/-
# The command line

What the arguments of a call ask for. Options that take a value have it behind
an equals sign, behind the letter of the option, or as the next argument,
which then must not begin with a dash unless it is nothing else. Behind a
double dash no argument is an option. Only stylesheets and the wish to log
more may be given several times.

Key definitions: `Invocation`, `Invocation.ofArguments`, `helpText`.
-/
import RichText.Dump.Document
import RichText.Logging

namespace RichText.CommandLine

open RichText.Text

/-- What a call asks for. -/
inductive Invocation where
  | help
  | dump (options : DumpOptions) (log : LogConfig)
  /-- The call is wrong. -/
  | wrong (failure : Failure)
deriving DecidableEq, Repr

/-- The arguments read so far. -/
structure Arguments where
  document : Option String := none
  stylesheets : List String := []
  format : Option DumpFormat := none
  id : Option String := none
  all : Bool := false
  hover : Bool := false
  verbosity : Nat := 0
  logFilter : Option String := none
  logFormat : Option LogFormat := none
deriving DecidableEq, Repr

/-- Why reading the arguments stops. -/
inductive Stop where
  | help
  | wrong (what : String)
deriving DecidableEq, Repr

/-- An option that takes a value. -/
inductive Setting where
  | css
  | format
  | id
  | logFilter
  | logFormat
deriving DecidableEq, Repr

/-- An option without a value. -/
inductive Flag where
  | all
  | hover
  | verbose
  | help
deriving DecidableEq, Repr

inductive Switch where
  | setting (s : Setting)
  | flag (f : Flag)
deriving DecidableEq, Repr

/-- The option of a long name. -/
def ofName? : String → Option Switch
  | "css" => some (.setting .css)
  | "format" => some (.setting .format)
  | "id" => some (.setting .id)
  | "log-filter" => some (.setting .logFilter)
  | "log-format" => some (.setting .logFormat)
  | "all" => some (.flag .all)
  | "hover" => some (.flag .hover)
  | "verbose" => some (.flag .verbose)
  | "help" => some (.flag .help)
  | _ => none

/-- The option of a letter. -/
def ofLetter? : Char → Option Switch
  | 'f' => some (.setting .format)
  | 'v' => some (.flag .verbose)
  | 'h' => some (.flag .help)
  | _ => none

/-- Gives an option its only value. -/
def once {α : Type} (old : Option α) (new : α) : Except Stop (Option α) :=
  match old with
  | none => .ok (some new)
  | some _ => .error (.wrong "the argument cannot be used multiple times")

/-- Sets a flag that was not set. -/
def setOnce (old : Bool) : Except Stop Bool :=
  if old then .error (.wrong "the argument cannot be used multiple times") else .ok true

/-- A path. -/
def readPath (value : String) : Except Stop String :=
  if value = "" then .error (.wrong "a value is required but none was supplied") else .ok value

def readFormat : String → Except Stop DumpFormat
  | "text" => .ok .text
  | "json" => .ok .json
  | other => .error (.wrong s!"invalid format '{other}'")

def readLogFormat (value : String) : Except Stop LogFormat :=
  match LogFormat.ofName value with
  | .ok format => .ok format
  | .error e => .error (.wrong e.message)

namespace Arguments

/-- The arguments with an option and its value. -/
def set (a : Arguments) (s : Setting) (value : String) : Except Stop Arguments :=
  match s with
  | .css => (readPath value).map fun path => { a with stylesheets := a.stylesheets ++ [path] }
  | .format => do return { a with format := ← once a.format (← readFormat value) }
  | .id => do return { a with id := ← once a.id value }
  | .logFilter => do return { a with logFilter := ← once a.logFilter value }
  | .logFormat => do return { a with logFormat := ← once a.logFormat (← readLogFormat value) }

/-- The arguments with an option that takes no value. -/
def raise (a : Arguments) (f : Flag) : Except Stop Arguments :=
  match f with
  | .all => do return { a with all := ← setOnce a.all }
  | .hover => do return { a with hover := ← setOnce a.hover }
  | .verbose => .ok { a with verbosity := a.verbosity + 1 }
  | .help => .error .help

/-- The arguments with one that is no option. -/
def place (a : Arguments) (value : String) : Except Stop Arguments := do
  let path ← readPath value
  match a.document with
  | none => return { a with document := some path }
  | some _ => .error (.wrong s!"unexpected argument '{value}' found")

/-- The arguments with letters behind a single dash, and the option that still
needs a value. -/
def letters (a : Arguments) : List Char → Except Stop (Arguments × Option Setting)
  | [] => .ok (a, none)
  | c :: rest =>
    match ofLetter? c with
    | none => .error (.wrong s!"unexpected argument '-{c}' found")
    | some (.flag f) => (a.raise f).bind fun a => a.letters rest
    | some (.setting s) =>
      match rest with
      | [] => .ok (a, some s)
      | '=' :: value => (a.set s (String.ofList value)).map fun a => (a, none)
      | value => (a.set s (String.ofList value)).map fun a => (a, none)

/-- The arguments with what stands behind a double dash, and the option that
still needs a value. -/
def long (a : Arguments) (text : List Char) : Except Stop (Arguments × Option Setting) :=
  let name := String.ofList (text.takeWhile (· ≠ '='))
  match ofName? name, text.dropWhile (· ≠ '=') with
  | some (.flag f), [] => (a.raise f).map fun a => (a, none)
  | some (.setting s), [] => .ok (a, some s)
  | some (.setting s), _ :: value => (a.set s (String.ofList value)).map fun a => (a, none)
  | _, _ => .error (.wrong s!"unexpected argument '--{name}' found")

/-- One argument, and the option that still needs a value behind it. -/
def take (a : Arguments) (text : String) : Except Stop (Arguments × Option Setting) :=
  match text.toList with
  | '-' :: '-' :: rest => a.long rest
  | '-' :: c :: rest => a.letters (c :: rest)
  | _ => (a.place text).map fun a => (a, none)

/-- Whether an argument can be the value of the option before it. -/
def isValue (text : String) : Bool := text = "-" || !hasLead ['-'] text.toList

/-- The arguments with all others; `waiting` is the option that needs a
value. -/
def takeAll (a : Arguments) (waiting : Option Setting) : List String → Except Stop Arguments
  | [] =>
    match waiting with
    | none => .ok a
    | some _ => .error (.wrong "a value is required but none was supplied")
  | text :: rest =>
    match waiting with
    | some s =>
      if isValue text then (a.set s text).bind fun a => a.takeAll none rest
      else .error (.wrong "a value is required but none was supplied")
    | none =>
      if text = "--" then rest.foldlM place a
      else (a.take text).bind fun taken => taken.1.takeAll taken.2 rest

/-- The configuration of the log. -/
def log (a : Arguments) : LogConfig :=
  let config := LogConfig.ofVerbosity a.verbosity
  { config with filter := a.logFilter, format := a.logFormat.getD config.format }

/-- The call that all arguments make. -/
def invocation (a : Arguments) : Invocation :=
  match a.document with
  | none => .wrong (.invalidArgument "a document is required")
  | some document =>
    .dump
      { document
        stylesheets := a.stylesheets
        format := a.format.getD .text
        id := a.id
        all := a.all
        hover := a.hover }
      a.log

end Arguments

/-- What the arguments of a call ask for. -/
def Invocation.ofArguments (arguments : List String) : Invocation :=
  match Arguments.takeAll {} none arguments with
  | .ok a => a.invocation
  | .error .help => .help
  | .error (.wrong what) => .wrong (.invalidArgument what)

def helpText : String :=
  "Dump resolved StyleKit attributes for every element of a document\n\n" ++
  "Usage: style-dump [OPTIONS] <DOCUMENT>\n\n" ++
  "Arguments:\n" ++
  "  <DOCUMENT>  XHTML document or fragment\n\n" ++
  "Options:\n" ++
  "      --css <FILE>               " ++
    "Extra stylesheet, applied after the linked ones (repeatable)\n" ++
  "  -f, --format <FORMAT>          " ++
    "Output format [default: text] [possible values: text, json]\n" ++
  "      --id <ID>                  Only dump the subtree of the element with this id\n" ++
  "      --all                      Include attributes that resolve to their default\n" ++
  "      --hover                    Include hover variants\n" ++
  "  -v, --verbose...               Increase log verbosity (-v debug, -vv trace)\n" ++
  "      --log-filter <LOG_FILTER>  Log filter, e.g. \"stylekit_css=debug\"\n" ++
  "      --log-format <LOG_FORMAT>  Log record format: pretty, compact or json\n" ++
  "  -h, --help                     Print help\n"

end RichText.CommandLine
