/-
# Logging

How much a program logs and in which form. Directives such as `css=trace` say
it target by target; when there are none, or they cannot be read, the level
counts for all.

Key definitions: `LogLevel`, `LogFormat`, `LogConfig`,
`LogConfig.ofVerbosity`, `LogConfig.directives`, `isDirective`.
-/
import RichText.Failure
import RichText.Text.Cut
import RichText.Text.Letter

namespace RichText

open RichText.Text

inductive LogLevel where
  | error
  | warn
  | info
  | debug
  | trace
deriving DecidableEq, Repr

def LogLevel.name : LogLevel → String
  | error => "error"
  | warn => "warn"
  | info => "info"
  | debug => "debug"
  | trace => "trace"

inductive LogFormat where
  /-- Several lines for each record. -/
  | pretty
  /-- One line for each record. -/
  | compact
  | json
deriving DecidableEq, Repr

/-- The format of a name in any case. -/
def LogFormat.ofName (s : String) : Except Failure LogFormat :=
  match lowerCase s with
  | "pretty" => .ok .pretty
  | "compact" => .ok .compact
  | "json" => .ok .json
  | other => .error (.invalidArgument s!"unknown log format: {other}")

structure LogConfig where
  level : LogLevel := .warn
  format : LogFormat := .compact
  /-- Whether records say where in the program they come from. -/
  location : Bool := false
  /-- Whether the beginning and the end of spans are logged. -/
  spanEvents : Bool := false
  /-- Whether colors are used. -/
  ansi : Bool := true
  filter : Option String := none
deriving DecidableEq, Repr

/-- Whether a text is the name or the number of a level, or turns logging
off. -/
def isLevel (s : List Char) : Bool :=
  ["off", "error", "warn", "info", "debug", "trace", "0", "1", "2", "3", "4", "5"].contains
    (lowerCase (String.ofList s))

/-- Whether a text can name what is logged. -/
def isTarget (s : List Char) : Bool :=
  !s.isEmpty && s.all fun c => isAlphanumeric c || c == '_' || c == '-' || c == ':'

/-- Whether a text is a level, a target, or a target with its level. -/
def isDirective (s : List Char) : Bool :=
  match pieces '=' s with
  | [word] => isLevel word || isTarget word
  | [target, level] => isTarget target && isLevel level
  | _ => false

namespace LogConfig

def debug : LogConfig := { level := .debug, format := .pretty, location := true }

def trace : LogConfig :=
  { level := .trace, format := .pretty, location := true, spanEvents := true }

/-- For programs that read the log. -/
def production : LogConfig := { level := .info, format := .json, ansi := false }

/-- The configuration for the number of times that more was asked for. -/
def ofVerbosity : Nat → LogConfig
  | 0 => {}
  | 1 => debug
  | _ => trace

/-- The directives that count. -/
def directives (c : LogConfig) : String :=
  match c.filter with
  | some filter => if (pieces ',' filter.toList).all isDirective then filter else c.level.name
  | none => c.level.name

end LogConfig

end RichText
