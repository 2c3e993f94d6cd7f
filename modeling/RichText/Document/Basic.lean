/-
# Documents

A document is a store of elements, of which some are roots, together with the
tree of their styles, an index of ids, and what the head of the text says.

Key definitions: `Document`, `Document.push`, `Document.append`,
`Document.register`, `Document.elementById?`, `Document.traverse`,
`Document.textContent`.
Key theorems: `Document.element?_push`, `Document.element?_append`.
-/
import RichText.Document.Element
import RichText.Document.Error
import RichText.StyleTree

namespace RichText

structure Document where
  styles : StyleTree
  elements : Array Element := #[]
  roots : List Nat := []
  /-- The ids registered, and the elements that have them. -/
  ids : List (String × Nat) := []
  /-- The stylesheets that the head asks for. -/
  links : List String := []
  title : Option String := none

namespace Document

/-- A document without content. The number tells its tree of styles from
others. -/
def empty (number : Nat) (registry : Registry) : Document := { styles := .empty number registry }

/-- The number of elements. -/
def size (d : Document) : Nat := d.elements.size

def isEmpty (d : Document) : Bool := d.elements.isEmpty

def element? (d : Document) (i : Nat) : Option Element := d.elements[i]?

/-- The element that has an id. -/
def elementById? (d : Document) (id : String) : Option Nat := d.ids.lookup id

/-- The key of an element's node in the tree of styles. -/
def keyOf? (d : Document) (i : Nat) : Option Key :=
  (d.element? i).bind fun e => d.styles.key? e.style

/-- The document with one element more, which gets the next number. -/
def push (d : Document) (e : Element) : Document := { d with elements := d.elements.push e }

theorem element?_push (d : Document) (e : Element) (i : Nat) :
    (d.push e).element? i = if i = d.size then some e else d.element? i := by
  unfold element? push
  rw [Array.getElem?_push]
  rfl

/-- The document with a node more in its tree of styles. -/
def pushStyle (d : Document) (parent : Option Nat) (key : Option Key) (raw : Style) : Document :=
  { d with styles := d.styles.push parent key raw }

def addRoot (d : Document) (i : Nat) : Document := { d with roots := d.roots ++ [i] }

/-- The document in which `child` is the last child of `parent`, if that kind of
element has children. -/
def append (d : Document) (parent child : Nat) : Document :=
  { d with
    elements := d.elements.modify parent fun e =>
      if e.kind.hasChildren then { e with children := e.children ++ [child] } else e }

theorem element?_append (d : Document) (parent child i : Nat) :
    (d.append parent child).element? i =
      if i = parent then
        (d.element? i).map fun e =>
          if e.kind.hasChildren then { e with children := e.children ++ [child] } else e
      else d.element? i := by
  unfold element? append
  rw [Array.getElem?_modify]
  by_cases h : parent = i
  · simp [h]
  · simp [h, Ne.symm h]

/-- The document in which the id of an element's key, if it has one, leads to
the element. -/
def register (d : Document) (i : Nat) : Except DocumentError Document :=
  match (d.keyOf? i).bind (·.id) with
  | none => .ok d
  | some id =>
    match d.elementById? id with
    | some _ => .error (.duplicateId id)
    | none => .ok { d with ids := (id, i) :: d.ids }

def addLink (d : Document) (target : String) : Document := { d with links := d.links ++ [target] }

def setTitle (d : Document) (title : String) : Document := { d with title := some title }

/-- The elements directly inside an element. -/
def partsOf (d : Document) (i : Nat) : List Nat := ((d.element? i).map (·.parts)).getD []

/-- An element and all inside it, in the order of the text, each with its
depth, at most `height` deep. -/
def visit (d : Document) : (height depth i : Nat) → List (Nat × Nat)
  | 0, _, _ => []
  | height + 1, depth, i =>
    (i, depth) :: (d.partsOf i).flatMap fun part => d.visit height (depth + 1) part

/-- An element and all inside it, in the order of the text, each with its depth
below the element. -/
def subtree (d : Document) (i : Nat) : List (Nat × Nat) := d.visit d.size 0 i

/-- The roots and all elements inside them, in the order of the text, each with
its depth. -/
def traverse (d : Document) : List (Nat × Nat) := d.roots.flatMap d.subtree

/-- The text of an element and of all inside it. -/
def textContent (d : Document) (i : Nat) : String :=
  String.join ((d.subtree i).map fun visited => ((d.element? visited.1).map (·.ownText)).getD "")

end Document

end RichText
