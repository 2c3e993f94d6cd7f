/-
# What a document is being read into

While markup is read, every element that is still open has a frame that says
what its events mean. The nodes of the tree of styles that are open form a
stack that never runs empty.

Key definitions: `StyleStack`, `TableDraft`, `TableDraft.table`, `Role`,
`Frame`.
-/
import RichText.Document.Element

namespace RichText

/-- The open nodes of a tree of styles. -/
structure StyleStack where
  top : Nat
  /-- The others, from the top down. -/
  below : List Nat := []
deriving DecidableEq, Repr

namespace StyleStack

def push (s : StyleStack) (node : Nat) : StyleStack := ⟨node, s.top :: s.below⟩

/-- The stack without its top. The last node stays. -/
def pop (s : StyleStack) : StyleStack :=
  match s.below with
  | [] => s
  | node :: below => ⟨node, below⟩

end StyleStack

/-- A table of which some rows have been read. -/
structure TableDraft where
  /-- The node of the table in the tree of styles. -/
  style : Nat
  spacing : Int
  padding : Int
  /-- The rows, the last one first. -/
  rows : List Row := []
  /-- The number of columns, or zero as long as no row with cells has ended. -/
  columns : Nat := 0
deriving DecidableEq, Repr

namespace TableDraft

/-- The columns that a cell may cover at most in a table whose number of columns
is not known. -/
def widest : Nat := 1000

/-- The columns that a cell covers when `asked` are asked for. -/
def span (t : TableDraft) (asked : Int) : Nat :=
  min (max asked 1).toNat (if 0 < t.columns then t.columns else widest)

def addRow (t : TableDraft) (style : Nat) : TableDraft := { t with rows := ⟨style, []⟩ :: t.rows }

/-- The table with one cell more in the last row. -/
def addCell (t : TableDraft) (cell columns : Nat) : TableDraft :=
  match t.rows with
  | [] => t
  | row :: rows =>
    let covered := some cell :: List.replicate (columns - 1) none
    { t with rows := { row with slots := row.slots ++ covered } :: rows }

/-- The table at the end of a row: the first row that has cells says how many
columns there are. -/
def endRow (t : TableDraft) : TableDraft :=
  if t.columns = 0 then { t with columns := (t.rows.head?.map (·.slots.length)).getD 0 } else t

/-- The number of columns of the whole table. -/
def width (t : TableDraft) : Nat :=
  if t.columns = 0 then (t.rows.getLast?.map (·.slots.length)).getD 0 else t.columns

/-- The whole table. Each row is cut or filled up to the number of columns. -/
def table (t : TableDraft) : Table where
  columns := t.width
  spacing := t.spacing
  padding := t.padding
  rows := t.rows.reverse.map (Row.fit t.width)

end TableDraft

/-- What becomes of a container when it ends. -/
inductive Role where
  /-- Nothing: it is a root already. -/
  | body
  /-- It goes into the container around it. -/
  | child
  /-- It goes into a list with numbers. -/
  | item (list : Nat)
  /-- It goes into the last row of a table. -/
  | cell (columns : Nat)
deriving DecidableEq, Repr

/-- What the events inside an open element mean. A depth counts the elements
open inside that have no frame of their own. -/
inductive Frame where
  /-- No element has been opened. -/
  | prolog
  /-- The root has been closed. -/
  | epilog
  | root
  | head (depth : Nat)
  | title (text : String) (depth : Nat)
  /-- An element without meaning. -/
  | skipped (depth : Nat)
  /-- The content of an element that holds none goes into the container around
  it. -/
  | inline
  /-- The children of `element`, in a container around which `outer` is the
  next one. -/
  | container (element : Nat) (outer : Option Nat) (role : Role)
  | orderedList (list depth : Nat)
  | table (draft : TableDraft) (depth : Nat)
deriving DecidableEq, Repr

end RichText
