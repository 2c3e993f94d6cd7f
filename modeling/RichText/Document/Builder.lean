/-
# Building documents

A document is built from events, one after another. Every tag opens a node in
the tree of styles, with the tag, its class and its id as key and its inline
style as values. The children of a container are under one more node without a
key, so that a text inherits from its container and matches no selector.

Texts are gathered and become an element when the next tag that counts comes;
a text of nothing but blanks becomes none. A container joins the one around it
when it ends. The first error ends the building.

Key definitions: `Builder`, `Builder.step`, `Builder.finish`,
`Document.ofEvents`, `Document.ofString`, `isDocument`, `wrapped`.
-/
import RichText.Declaration.Inline
import RichText.Document.Basic
import RichText.Document.Event
import RichText.Document.Frame
import RichText.Text.Blank

namespace RichText

open RichText.Markup RichText.Text

/-- A document of which some events have been read. -/
structure Builder where
  document : Document
  styles : StyleStack
  /-- The text gathered. -/
  text : String := ""
  /-- Where new elements go. -/
  container : Option Nat := none
  /-- The frame of the innermost open element that has one. -/
  frame : Frame := .prolog
  /-- The frames around it, from the inside out. -/
  outer : List Frame := []

namespace Builder

/-- Before the first event. The lowest style belongs to the root. -/
def start (number : Nat) (registry : Registry) : Builder where
  document := (Document.empty number registry).pushStyle none none .empty
  styles := ⟨0, []⟩

/-- Enters an element that has a frame of its own. -/
def enter (b : Builder) (frame : Frame) : Builder :=
  { b with frame, outer := b.frame :: b.outer }

/-- Leaves the element of the frame. -/
def leave (b : Builder) : Builder :=
  match b.outer with
  | [] => b
  | frame :: outer => { b with frame, outer }

def malformed {α : Type} (p : Position) (fault : Misplaced) : Except DocumentError α :=
  .error (.malformed p fault)

/-- Opens a node under the one opened last. -/
def pushNode (b : Builder) (key : Option Key) (raw : Style) : Builder :=
  { b with
    document := b.document.pushStyle (some b.styles.top) key raw
    styles := b.styles.push b.document.styles.size }

/-- The key of a tag. -/
def tagKey (name : String) (attributes : Attributes) : Key :=
  .of name (attributes.get? "class") (attributes.get? "id")

/-- The values of a tag's inline style. -/
def tagStyle (r : Registry) (attributes : Attributes) : Style :=
  match attributes.get? "style" with
  | some text => (Declaration.applyInline r .empty text).2
  | none => .empty

/-- Opens the node of a tag. -/
def pushTag (b : Builder) (name : String) (attributes : Attributes) : Builder :=
  b.pushNode (some (tagKey name attributes)) (tagStyle b.document.styles.registry attributes)

def popNode (b : Builder) : Builder := { b with styles := b.styles.pop }

/-- Makes an element with the given style. It gets the next number. -/
def make (b : Builder) (style : Nat) (kind : ElementKind) : Builder :=
  { b with document := b.document.push { style, kind } }

/-- The number of the element made last. -/
def last (b : Builder) : Nat := b.document.size - 1

def register (b : Builder) (element : Nat) : Except DocumentError Builder :=
  (b.document.register element).map fun document => { b with document }

def append (b : Builder) (parent : Option Nat) (element : Nat) : Builder :=
  match parent with
  | some parent => { b with document := b.document.append parent element }
  | none => b

/-- Puts an element into the container. -/
def add (b : Builder) (element : Nat) : Except DocumentError Builder :=
  (b.append b.container element).register element

/-- Turns the text gathered into an element. -/
def flush (b : Builder) : Except DocumentError Builder :=
  let text := b.text
  let b := { b with text := "" }
  if b.container.isNone || allBlank text.toList then .ok b
  else
    let b := b.make b.styles.top (.text text)
    (b.register b.last).map fun flushed => flushed.append flushed.container b.last

/-- Reads the children of an element, under a node without a key. -/
def enterContainer (b : Builder) (element : Nat) (role : Role) : Builder :=
  { (b.pushNode none .empty).enter (.container element b.container role) with
    container := some element }

/-- The integer that an attribute is. -/
def integer (p : Position) (attributes : Attributes) (name : String) (default : Int) :
    Except DocumentError Int :=
  match attributes.get? name with
  | none => .ok default
  | some value =>
    match Number.readInt32? (trim value.toList) with
    | some n => .ok n
    | none => malformed p (.notAnInteger name value)

/-- Whether a name is that of a heading. -/
def isHeading (name : String) : Bool :=
  ["h0", "h1", "h2", "h3", "h4", "h5", "h6"].contains name

/-- The kind of element that a tag makes whose content are its children. -/
def containerKind? (name : String) (attributes : Attributes) : Option ElementKind :=
  match name with
  | "p" => some .paragraph
  | "ul" => some .container
  | "li" => some .listItem
  | "div" => some .block
  | "a" => (attributes.get? "href").map .link
  | _ => if isHeading name then some .block else none

/-- The kind of element that a tag makes which holds no other. -/
def leafKind? (name : String) (attributes : Attributes) : Option ElementKind :=
  match name with
  | "img" => some (.image ((attributes.get? "src").getD "") (attributes.get? "alt"))
  | "button" =>
    some (.widget ((attributes.get? "name").getD "") ((attributes.get? "value").getD ""))
  | "br" => some .lineBreak
  | _ => none

/-- A tag in the content of a container. -/
def openContent (b : Builder) (p : Position) (name : String) (attributes : Attributes) :
    Except DocumentError Builder := do
  if name = "head" then return b.enter (.head 0)
  let b := (← b.flush).pushTag name attributes
  match containerKind? name attributes with
  | some kind =>
    let b := b.make b.styles.top kind
    return b.enterContainer b.last .child
  | none =>
    match name with
    | "ol" =>
      let start ← integer p attributes "start" 1
      let b := b.make b.styles.top (.orderedList start)
      return b.enter (.orderedList b.last 0)
    | "table" =>
      let spacing ← integer p attributes "cellspacing" 0
      let padding ← integer p attributes "cellpadding" 0
      return b.enter (.table { style := b.styles.top, spacing, padding } 0)
    | _ =>
      match leafKind? name attributes with
      | some kind =>
        let b := b.make b.styles.top kind
        return (← b.add b.last).enter .inline
      | none => return b.enter .inline

/-- A tag in the root. -/
def openInRoot (b : Builder) (name : String) (attributes : Attributes) :
    Except DocumentError Builder := do
  match name with
  | "head" => return b.enter (.head 0)
  | "body" =>
    let b := b.pushTag name attributes
    let b := b.make b.styles.top .block
    let b ← { b with document := b.document.addRoot b.last }.register b.last
    return b.enterContainer b.last .body
  | _ => return b.enter (.skipped 0)

/-- The stylesheet that a tag in the head asks for. -/
def linkTarget? (name : String) (attributes : Attributes) : Option String :=
  if name = "link" ∧ attributes.get? "rel" = some "stylesheet" ∧
      attributes.get? "type" = some "text/css" then attributes.get? "href"
  else none

/-- A tag in the head, `depth` elements deep. -/
def openInHead (b : Builder) (depth : Nat) (name : String) (attributes : Attributes) : Builder :=
  if name = "title" then b.enter (.title "" 0)
  else
    let b := { b with frame := .head (depth + 1) }
    match linkTarget? name attributes with
    | some target => { b with document := b.document.addLink target }
    | none => b

/-- A tag in a list with numbers, `depth` elements deep. -/
def openInList (b : Builder) (list depth : Nat) (name : String) (attributes : Attributes) :
    Builder :=
  let b := b.pushTag name attributes
  if name = "li" then
    let b := b.make b.styles.top .container
    b.enterContainer b.last (.item list)
  else { b with frame := .orderedList list (depth + 1) }

/-- A tag in a table, `depth` elements deep. -/
def openInTable (b : Builder) (p : Position) (draft : TableDraft) (depth : Nat) (name : String)
    (attributes : Attributes) : Except DocumentError Builder := do
  let b := b.pushTag name attributes
  match name with
  | "td" | "th" =>
    let columns := draft.span (← integer p attributes "colspan" 1)
    if draft.rows = [] then malformed p (.cellOutsideRow name)
    else
      let b := b.make b.styles.top (.tableCell columns)
      return b.enterContainer b.last (.cell columns)
  | "tr" => return { b with frame := .table (draft.addRow b.styles.top) (depth + 1) }
  | _ => return { b with frame := .table draft (depth + 1) }

/-- An element is opened. -/
def opened (b : Builder) (p : Position) (name : String) (attributes : Attributes) :
    Except DocumentError Builder :=
  match b.frame with
  | .prolog =>
    if name = "html" then .ok ({ b with frame := .epilog }.enter .root)
    else .error (.missingHtml (some name))
  | .epilog => malformed p .afterRoot
  | .root => b.openInRoot name attributes
  | .head depth => .ok (b.openInHead depth name attributes)
  | .title text depth => .ok { b with frame := .title text (depth + 1) }
  | .skipped depth => .ok { b with frame := .skipped (depth + 1) }
  | .inline => b.openContent p name attributes
  | .container _ _ _ => b.openContent p name attributes
  | .orderedList list depth => .ok (b.openInList list depth name attributes)
  | .table draft depth => b.openInTable p draft depth name attributes

/-- A container has been left. -/
def settle (b : Builder) (element : Nat) (role : Role) : Except DocumentError Builder :=
  match role with
  | .body => .ok b
  | .child => b.add element
  | .item list => (b.register element).map fun b => b.append (some list) element
  | .cell columns =>
    (b.register element).map fun b =>
      match b.frame with
      | .table draft depth => { b with frame := .table (draft.addCell element columns) depth }
      | _ => b

/-- The end of the element of a table. -/
def closeTable (b : Builder) (draft : TableDraft) : Except DocumentError Builder :=
  let b := b.popNode.leave.make draft.style (.table draft.table)
  b.add b.last

/-- The innermost element is closed. -/
def closed (b : Builder) (p : Position) (name : String) : Except DocumentError Builder :=
  match b.frame with
  | .prolog => malformed p .beforeRoot
  | .epilog => malformed p .afterRoot
  | .root => .ok b.leave
  | .head 0 => .ok b.leave
  | .head (depth + 1) => .ok { b with frame := .head depth }
  | .title text 0 =>
    let title := String.ofList (trim text.toList)
    .ok { b with document := b.document.setTitle title }.leave
  | .title text (depth + 1) => .ok { b with frame := .title text depth }
  | .skipped 0 => .ok b.leave
  | .skipped (depth + 1) => .ok { b with frame := .skipped depth }
  | .inline => b.flush.map fun b => b.popNode.leave
  | .container element outer role => do
    let b := (← b.flush).popNode.popNode.leave
    { b with container := outer }.settle element role
  | .orderedList list 0 => b.popNode.leave.add list
  | .orderedList list (depth + 1) => .ok { b.popNode with frame := .orderedList list depth }
  | .table draft 0 => b.closeTable draft
  | .table draft (depth + 1) =>
    let draft := if name = "tr" then draft.endRow else draft
    .ok { b.popNode with frame := .table draft depth }

/-- A text stands where an element is open. -/
def textRead (b : Builder) (p : Position) (s : String) : Except DocumentError Builder :=
  match b.frame with
  | .prolog => if allBlank s.toList then .ok b else malformed p .beforeRoot
  | .epilog => if allBlank s.toList then .ok b else malformed p .afterRoot
  | .title text depth => .ok { b with frame := .title (text ++ s) depth }
  | .inline => .ok { b with text := b.text ++ s }
  | .container _ _ _ => .ok { b with text := b.text ++ s }
  | _ => .ok b

/-- One event. -/
def step (b : Builder) (event : Position × Event) : Except DocumentError Builder :=
  match event.2 with
  | .opened name attributes => b.opened event.1 name attributes
  | .closed name => b.closed event.1 name
  | .text s => b.textRead event.1 s

/-- The document, at the end of the events. -/
def finish (b : Builder) : Except DocumentError Document :=
  match b.frame with
  | .prolog => .error (.missingHtml none)
  | .epilog => .ok b.document
  | _ => .error (.unfinished "document")

end Builder

namespace Document

/-- The document of a stream of events. -/
def ofEvents (number : Nat) (registry : Registry) (events : EventStream) :
    Except DocumentError Document := do
  let b ← events.items.foldlM Builder.step (Builder.start number registry)
  match events.failure with
  | some e => .error e
  | none => b.finish

/-- The document of a text whose root is an `html` element. -/
def ofString (number : Nat) (registry : Registry) (s : String) : Except DocumentError Document :=
  ofEvents number registry (.ofString s)

end Document

/-- Whether a text begins like a document. -/
def isDocument (s : String) : Bool :=
  5 < s.utf8ByteSize &&
    (hasLead "<?xml".toList s.toList || hasLead "<!DOCTYPE".toList s.toList ||
      hasLead "<html>".toList s.toList)

/-- A text, in the body of a document unless it begins like one. -/
def wrapped (s : String) : String :=
  if isDocument s then s else "<html><body>" ++ s ++ "</body></html>"

end RichText
