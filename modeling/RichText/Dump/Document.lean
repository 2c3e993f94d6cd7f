/-
# Resolved documents

What is shown of a document that has been resolved: of every element, or of
those inside a given one, the kind, the key, the text, and the attributes that
are not at their defaults.

Key definitions: `DumpOptions`, `ElementDump`, `DocumentDump`,
`DocumentDump.collect`, `DocumentDump.text`, `DocumentDump.json`.
-/
import RichText.Document.Basic
import RichText.Failure
import RichText.Json.Printer
import RichText.Resolver
import RichText.Text.Quoted

namespace RichText

inductive DumpFormat where
  | text
  | json
deriving DecidableEq, Repr

structure DumpOptions where
  /-- The path of the document. -/
  document : String
  /-- The paths of more stylesheets, above those that the document names. -/
  stylesheets : List String := []
  format : DumpFormat := .text
  /-- The id of the element to show with all inside it. -/
  id : Option String := none
  /-- Whether attributes at their defaults are shown. -/
  all : Bool := false
  /-- Whether attributes for hovering are shown. -/
  hover : Bool := false
deriving DecidableEq, Repr

structure ElementDump where
  depth : Nat
  kind : String
  key : Option String
  text : Option String
  /-- Names and values, sorted by name. -/
  attributes : List (String × String)
deriving DecidableEq, Repr

structure DocumentDump where
  title : Option String
  stylesheets : List String
  elements : List ElementDump
deriving DecidableEq, Repr

/-- Of elements visited in order those inside one of them, with their depths
below it. -/
def below (element : Nat) (visited : List (Nat × Nat)) : List (Nat × Nat) :=
  match visited.dropWhile (·.1 ≠ element) with
  | [] => []
  | top :: others =>
    (top.1, 0) :: (others.takeWhile (top.2 < ·.2)).map fun v => (v.1, v.2 - top.2)

/-- The elements to be shown, with their depths. -/
def Document.selected (d : Document) (id : Option String) : Except Failure (List (Nat × Nat)) :=
  match id with
  | none => .ok d.traverse
  | some id =>
    (Failure.ofOption s!"element #{id}" (d.elementById? id)).map fun element =>
      below element d.traverse

/-- Whether an attribute is shown when it has a value. -/
def DumpOptions.shows (o : DumpOptions) (a : Attribute) (v : Value) : Bool :=
  (a.variant ≠ .hover || o.hover) && (o.all || !a.default.any fun d => d.same v)

namespace ElementDump

/-- The attributes of a node to be shown, in the order of their ordinals, from
`ordinal` on. -/
def attributesFrom (o : DumpOptions) (t : StyleTree) (node ordinal : Nat) :
    List Attribute → StateM Resolver (List (String × String))
  | [] => return []
  | a :: attributes => do
    let value ← t.getValue node ordinal
    let others ← attributesFrom o t node (ordinal + 1) attributes
    match value with
    | some v => return if o.shows a v then (a.name, v.render) :: others else others
    | none => return others

/-- What is shown of an element. -/
def collect (o : DumpOptions) (d : Document) (visited : Nat × Nat) :
    StateM Resolver (Option ElementDump) := do
  match d.element? visited.1 with
  | none => return none
  | some e =>
    let shown ← attributesFrom o d.styles e.style 0 d.styles.registry.attributes
    return some {
      depth := visited.2
      kind := e.kind.name
      key := (d.styles.key? e.style).map (·.text)
      text := match e.kind with
        | .text s => some s
        | _ => none
      attributes := shown.mergeSort fun a b => !(b.1 < a.1) }

/-- The lines of an element, two spaces further in for each step of depth. -/
def lines (e : ElementDump) : List String :=
  let margin := "".pushn ' ' (2 * e.depth)
  let key := (e.key.map fun key => " <" ++ key ++ ">").getD ""
  let text := (e.text.map fun text => " " ++ Text.quoted text).getD ""
  (margin ++ e.kind ++ key ++ text) ::
    e.attributes.map fun a => margin ++ "    " ++ a.1 ++ ": " ++ a.2

def json (e : ElementDump) : Json :=
  .object <|
    [("depth", .natural e.depth), ("kind", .text e.kind)] ++
      (e.key.toList.map fun key => ("key", .text key)) ++
      (e.text.toList.map fun text => ("text", .text text)) ++
      [("attributes", .object (e.attributes.map fun a => (a.1, .text a.2)))]

end ElementDump

namespace DocumentDump

/-- What is shown of elements. -/
def collectAll (o : DumpOptions) (d : Document) :
    List (Nat × Nat) → StateM Resolver (List ElementDump)
  | [] => return []
  | visited :: others => do
    let first ← ElementDump.collect o d visited
    let rest ← collectAll o d others
    return first.toList ++ rest

/-- What is shown of a document. -/
def collect (o : DumpOptions) (d : Document) :
    StateM Resolver (Except Failure DocumentDump) := do
  match d.selected o.id with
  | .error e => return .error e
  | .ok visited =>
    let elements ← collectAll o d visited
    return .ok { title := d.title, stylesheets := d.links, elements }

def text (d : DocumentDump) : String :=
  let head := (d.title.toList.map ("title: " ++ ·)) ++ d.stylesheets.map ("stylesheet: " ++ ·)
  String.join ((head ++ d.elements.flatMap (·.lines)).map (· ++ "\n"))

def json (d : DocumentDump) : Json :=
  .object
    [("title", (d.title.map Json.text).getD .null),
      ("stylesheets", .array (d.stylesheets.map .text)),
      ("elements", .array (d.elements.map (·.json)))]

def render (format : DumpFormat) (d : DocumentDump) : String :=
  match format with
  | .text => d.text
  | .json => d.json.render ++ "\n"

end DocumentDump

end RichText
