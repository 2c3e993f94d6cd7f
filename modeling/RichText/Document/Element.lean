/-
# Elements

What a document consists of. Elements are addressed by the order in which they
were made, and name the ones inside them by these numbers; each has a node in
the tree of styles.

A table is a grid. The first slot that a cell covers holds it; the others it
covers are empty, and so are those that a short row does not fill.

Key definitions: `Row`, `Row.fit`, `Table`, `Table.cell?`, `ElementKind`,
`Element`, `Element.parts`.
Key theorems: `Row.length_fit`.
-/

namespace RichText

structure Row where
  /-- The node of the row in the tree of styles. -/
  style : Nat
  slots : List (Option Nat)
deriving DecidableEq, Repr

/-- The row with exactly `columns` slots. -/
def Row.fit (columns : Nat) (row : Row) : Row :=
  { row with slots := row.slots.take columns ++ List.replicate (columns - row.slots.length) none }

@[simp]
theorem Row.length_fit (columns : Nat) (row : Row) : (row.fit columns).slots.length = columns := by
  simp only [fit, List.length_append, List.length_take, List.length_replicate]
  omega

structure Table where
  columns : Nat
  spacing : Int
  padding : Int
  rows : List Row
deriving DecidableEq, Repr

namespace Table

/-- All slots, row by row. -/
def slots (t : Table) : List (Option Nat) := t.rows.flatMap (·.slots)

/-- The cells, row by row. -/
def cells (t : Table) : List Nat := t.slots.filterMap id

/-- The cell in a slot; none in an empty slot and outside the table. -/
def cell? (t : Table) (row column : Nat) : Option Nat :=
  if column < t.columns then t.rows[row]?.bind fun r => r.slots[column]?.join else none

/-- The node of a row in the tree of styles. -/
def rowStyle? (t : Table) (row : Nat) : Option Nat := t.rows[row]?.map (·.style)

end Table

inductive ElementKind where
  | text (s : String)
  | lineBreak
  | image (source : String) (description : Option String)
  /-- Something that the program around the document draws. -/
  | widget (name parameter : String)
  | paragraph
  /-- A division, a heading or the body. -/
  | block
  /-- A list without numbers, or an item of one with numbers. -/
  | container
  | listItem
  | link (target : String)
  /-- A list whose items are numbered from `start`. -/
  | orderedList (start : Int)
  | tableCell (columns : Nat)
  | table (t : Table)
deriving DecidableEq, Repr

namespace ElementKind

def name : ElementKind → String
  | text _ => "text"
  | lineBreak => "line-break"
  | image _ _ => "image"
  | widget _ _ => "widget"
  | paragraph => "paragraph"
  | block => "block"
  | container => "container"
  | listItem => "list-item"
  | link _ => "link"
  | orderedList _ => "ordered-list"
  | tableCell _ => "table-cell"
  | table _ => "table"

/-- Whether an element of the kind can have children. -/
def hasChildren : ElementKind → Bool
  | paragraph | block | container | listItem | link _ | orderedList _ | tableCell _ => true
  | _ => false

end ElementKind

structure Element where
  /-- The node of the element in the tree of styles. -/
  style : Nat
  kind : ElementKind
  children : List Nat := []
deriving DecidableEq, Repr

namespace Element

/-- The elements directly inside: children, or the cells of a table. -/
def parts (e : Element) : List Nat :=
  match e.kind with
  | .table t => t.cells
  | _ => e.children

/-- What the element itself adds to the text of a document. -/
def ownText (e : Element) : String :=
  match e.kind with
  | .text s => s
  | .lineBreak => "\n"
  | _ => ""

end Element

end RichText
