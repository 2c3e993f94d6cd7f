/-
# The rows of a table

The tags in a table that are not inside of its cells say how the table is laid out, and
so do the ends of its rows (`Forest.marks`). A draft goes through these marks one by one
(`TableDraft.Step`). What it has in the end (`TableDraft.Run`) are the rows of the
markup, each with the cells up to the next row (`TableDraft.Run.rows`), and no cell
covers more columns than the table allows (`TableDraft.Run.spans`). If rows are not
nested and hold all cells, the first of them that has a cell says how many columns there
are (`TableDraft.Run.measured`, `leadWidth_eq`).

Rows and spans are kept by every mark wherever it stands. The number of columns is not:
a row may begin inside another one and end there, and then it is the one whose cells are
counted. So the last result needs to know whether a row is open (`Mark.next?`).

Key definitions: `Forest.contents`, `Mark`, `Forest.marks`, `Tag.grid`, `rowsOf`,
`Forest.Neat`, `TableDraft.Step`, `TableDraft.Run`, `TableDraft.Measured`.
Key theorems: `foldl_addTag`, `TableDraft.Run.rows`, `TableDraft.Run.spans`,
`TableDraft.Run.measured`, `TableDraft.Measured.width`, `leadWidth_eq`.
-/
import RichText.Proofs.WrittenTables

namespace RichText

open Markup Text

/-! ### The tags of a table -/

namespace Tag

def IsRow (t : Tag) : Prop := t.name = "tr"

def IsCell (t : Tag) : Prop := t.name = "td" ∨ t.name = "th"

/-- Whether the tag is that of a table. -/
def IsTable (t : Tag) : Prop := t.region = .content ∧ t.name = "table"

instance : DecidablePred IsRow := fun t => inferInstanceAs (Decidable (t.name = "tr"))

instance : DecidablePred IsCell :=
  fun t => inferInstanceAs (Decidable (t.name = "td" ∨ t.name = "th"))

theorem IsCell.not_isRow {t : Tag} (h : t.IsCell) : ¬t.IsRow := by
  rintro hrow
  rw [IsCell, hrow] at h
  simp at h

end Tag

/-- What the layout of a table depends on: a tag outside the cells, or the end of a row. -/
inductive Mark where
  | tag (t : Tag)
  | rowEnd

def Mark.tag? : Mark → Option Tag
  | tag t => some t
  | rowEnd => none

namespace Forest

/-- The tags of a forest, as in `Forest.tags`, each with what is inside its element. -/
def contents : Forest → Region → (outer : Option Nat) → (seat next : Nat) → List (Tag × Forest)
  | nil, _, _, _, _ => []
  | text _ _ rest, region, outer, seat, next => rest.contents region outer seat next
  | element p name attributes inside _ rest, region, outer, seat, next =>
    match region.inside name with
    | none => rest.contents region outer seat next
    | some within =>
      let tag : Tag := ⟨p, name, attributes, region, outer, seat, next⟩
      let first := next + region.nodeCount name attributes
      (tag, inside) :: (inside.contents within (some next) tag.seat first ++
        rest.contents region outer seat (first + inside.nodeCount within))

/-- The marks in a table. The numbers of the tags are those of `Forest.tags`. -/
def marks : Forest → (outer : Option Nat) → (seat next : Nat) → List Mark
  | nil, _, _, _ => []
  | text _ _ rest, outer, seat, next => rest.marks outer seat next
  | element p name attributes inside _ rest, outer, seat, next =>
    let tag : Tag := ⟨p, name, attributes, .table, outer, seat, next⟩
    let first := next + Region.table.nodeCount name attributes
    if name = "td" ∨ name = "th" then
      .tag tag :: rest.marks outer seat (first + inside.nodeCount .content)
    else
      .tag tag :: (inside.marks (some next) tag.seat first ++
        ((if name = "tr" then [.rowEnd] else []) ++
          rest.marks outer seat (first + inside.nodeCount .table)))

/-- In a table no row stands inside a row, and every cell inside one. What is inside of
cells does not count. -/
def Neat : Forest → (inRow : Bool) → Prop
  | nil, _ => True
  | text _ _ rest, inRow => rest.Neat inRow
  | element _ name _ inside _ rest, inRow =>
    (if name = "td" ∨ name = "th" then inRow = true
      else if name = "tr" then inRow = false ∧ inside.Neat true
      else inside.Neat inRow) ∧ rest.Neat inRow

theorem fst_contents : ∀ (f : Forest) (region : Region) (outer : Option Nat) (seat next : Nat),
    (f.contents region outer seat next).map Prod.fst = f.tags region outer seat next
  | nil, _, _, _, _ => rfl
  | text _ _ rest, region, outer, seat, next => rest.fst_contents region outer seat next
  | element p name attributes inside q rest, region, outer, seat, next => by
    unfold contents tags
    cases region.inside name with
    | none => exact rest.fst_contents region outer seat next
    | some within => simp only [List.map_cons, List.map_append, fst_contents]

/-- Behind the tag of an element come those inside of it. -/
theorem sublist_contents : ∀ (f : Forest) {region : Region} {outer : Option Nat} {seat next : Nat}
    {tag : Tag} {inside : Forest}, (tag, inside) ∈ f.contents region outer seat next →
    ∃ within, tag.region.inside tag.name = some within ∧
      (tag :: inside.tags within (some tag.node) tag.seat (tag.node + tag.count)).Sublist
        (f.tags region outer seat next)
  | nil, _, _, _, _, _, _, h => nomatch h
  | text _ _ rest, _, _, _, _, _, _, h => rest.sublist_contents h
  | element p name attributes inside q rest, region, outer, seat, next, tag, found, h => by
    cases hwithin : region.inside name with
    | none =>
      simp only [contents, tags, hwithin] at h ⊢
      exact rest.sublist_contents h
    | some within =>
      simp only [contents, tags, hwithin] at h ⊢
      rcases List.mem_cons.1 h with heq | h
      · obtain ⟨rfl, rfl⟩ := Prod.mk.inj heq
        exact ⟨within, hwithin, (List.sublist_append_left _ _).cons_cons _⟩
      · rcases List.mem_append.1 h with h | h
        · obtain ⟨deeper, hdeeper, hsub⟩ := inside.sublist_contents h
          exact ⟨deeper, hdeeper, (hsub.trans (List.sublist_append_left _ _)).cons _⟩
        · obtain ⟨deeper, hdeeper, hsub⟩ := rest.sublist_contents h
          exact ⟨deeper, hdeeper, (hsub.trans (List.sublist_append_right _ _)).cons _⟩

/-- The tags outside of cells come in the order of all the tags in a table. -/
theorem sublist_marks : ∀ (f : Forest) (outer : Option Nat) (seat next : Nat),
    ((f.marks outer seat next).filterMap Mark.tag?).Sublist (f.tags .table outer seat next)
  | nil, _, _, _ => List.Sublist.slnil
  | text _ _ rest, outer, seat, next => rest.sublist_marks outer seat next
  | element p name attributes inside q rest, outer, seat, next => by
    by_cases hn : name = "td" ∨ name = "th"
    · simp only [marks, tags, Region.inside, if_pos hn, List.filterMap_cons, Mark.tag?]
      exact ((rest.sublist_marks _ _ _).trans (List.sublist_append_right _ _)).cons_cons _
    · have hend : (if name = "tr" then [Mark.rowEnd] else []).filterMap Mark.tag? = [] := by
        split <;> rfl
      simp only [marks, tags, Region.inside, if_neg hn, List.filterMap_cons, Mark.tag?,
        List.filterMap_append, hend, List.nil_append]
      exact ((inside.sublist_marks _ _ _).append (rest.sublist_marks _ _ _)).cons_cons _

theorem contents_cons (p : Position) (name : String) (attributes : Attributes) (inside : Forest)
    (q : Position) (rest : Forest) (region : Region) (outer : Option Nat) (seat next : Nat) :
    (element p name attributes inside q rest).contents region outer seat next =
      (element p name attributes inside q nil).contents region outer seat next ++
        rest.contents region outer seat
          (next + (element p name attributes inside q nil).nodeCount region) := by
  cases hwithin : region.inside name with
  | none => simp [contents, nodeCount, hwithin]
  | some within => simp [contents, nodeCount, hwithin, Nat.add_assoc]

theorem marks_cons (p : Position) (name : String) (attributes : Attributes) (inside : Forest)
    (q : Position) (rest : Forest) (outer : Option Nat) (seat next : Nat) :
    (element p name attributes inside q rest).marks outer seat next =
      (element p name attributes inside q nil).marks outer seat next ++ rest.marks outer seat
        (next + (element p name attributes inside q nil).nodeCount .table) := by
  by_cases hn : name = "td" ∨ name = "th"
  · simp [marks, nodeCount, Region.inside, hn, Nat.add_assoc]
  · simp [marks, nodeCount, Region.inside, hn, Nat.add_assoc]

end Forest

/-- The marks in the table of a tag. -/
def Tag.marks (t : Tag) (inside : Forest) : List Mark :=
  inside.marks (some t.node) t.seat (t.node + t.count)

/-- The tags in the table of a tag, but for those inside of its cells. -/
def Tag.grid (t : Tag) (inside : Forest) : List Tag := (t.marks inside).filterMap Mark.tag?

/-! ### Rows -/

/-- The cells in front of the next row. -/
def leadingCells (tags : List Tag) : List Tag :=
  (tags.takeWhile fun tag => ¬tag.IsRow).filter fun tag => tag.IsCell

/-- The rows, each with the cells that follow it up to the next one. -/
def rowsOf : List Tag → List (Tag × List Tag)
  | [] => []
  | tag :: tags => if tag.IsRow then (tag, leadingCells tags) :: rowsOf tags else rowsOf tags

/-- The rows up to a tag, the last one first. A cell belongs to the row that began last. -/
def addTag (written : List (Tag × List Tag)) (tag : Tag) : List (Tag × List Tag) :=
  if tag.IsRow then (tag, []) :: written
  else if tag.IsCell then written.modifyHead fun row => (row.1, row.2 ++ [tag])
  else written

theorem fst_rowsOf : ∀ tags : List Tag,
    (rowsOf tags).map Prod.fst = tags.filter fun tag => tag.IsRow
  | [] => rfl
  | tag :: tags => by
    rw [rowsOf]
    by_cases hrow : tag.IsRow
    · simp [hrow, fst_rowsOf tags]
    · simp [hrow, fst_rowsOf tags]

theorem leadingCells_cons (tag : Tag) (tags : List Tag) :
    leadingCells (tag :: tags) = if tag.IsRow then [] else
      if tag.IsCell then tag :: leadingCells tags else leadingCells tags := by
  unfold leadingCells
  by_cases hrow : tag.IsRow
  · simp [hrow]
  · by_cases hcell : tag.IsCell <;> simp [hrow, hcell]

/-- The row that began last gets the cells in front of the next one. -/
theorem foldl_addTag_cons : ∀ (tags : List Tag) (row : Tag) (cells : List Tag)
    (written : List (Tag × List Tag)),
    tags.foldl addTag ((row, cells) :: written) =
      (rowsOf tags).reverse ++ (row, cells ++ leadingCells tags) :: written
  | [], row, cells, written => by simp [rowsOf, leadingCells]
  | tag :: tags, row, cells, written => by
    rw [List.foldl_cons, leadingCells_cons, rowsOf]
    by_cases hrow : tag.IsRow
    · rw [addTag, if_pos hrow, foldl_addTag_cons, if_pos hrow, if_pos hrow]
      simp
    · by_cases hcell : tag.IsCell
      · simp only [addTag, if_neg hrow, if_pos hcell, List.modifyHead_cons, foldl_addTag_cons]
        simp
      · simp only [addTag, if_neg hrow, if_neg hcell, foldl_addTag_cons]

/-- Reading the tags of a table one by one gives its rows. -/
theorem foldl_addTag : ∀ tags : List Tag, tags.foldl addTag [] = (rowsOf tags).reverse
  | [] => rfl
  | tag :: tags => by
    rw [List.foldl_cons, rowsOf]
    by_cases hrow : tag.IsRow
    · rw [addTag, if_pos hrow, foldl_addTag_cons, if_pos hrow, List.reverse_cons]
      rfl
    · have hnone : addTag [] tag = [] := by simp [addTag, hrow]
      rw [hnone, if_neg hrow, foldl_addTag]

/-- The row is the one in the markup. -/
structure Row.Holds (shapes : List (ElementKind × Nat)) (row : Row) (written : Tag × List Tag) :
    Prop where
  style : row.style = written.1.node
  slots : Fills shapes row.slots (written.2.map Tag.node)

/-! ### Drafts -/

namespace TableDraft

variable {shapes shapes' : List (ElementKind × Nat)} {draft draft₁ draft' : TableDraft}
  {mark : Mark} {marks marks' : List Mark}

/-- What a mark does to the draft of a table. Where a cell stands, the element of its tag
has been made. -/
inductive Step (shapes : List (ElementKind × Nat)) (draft : TableDraft) : Mark → TableDraft → Prop
  | row {tag : Tag} (hn : tag.IsRow) : Step shapes draft (.tag tag) (draft.addRow tag.node)
  | cell {tag : Tag} (hn : tag.IsCell) (hrows : draft.rows ≠ []) (c : Nat) (asked : Int)
    (hc : shapes[c]? = some (.tableCell (draft.span asked), tag.node)) :
    Step shapes draft (.tag tag) (draft.addCell c (draft.span asked))
  | other {tag : Tag} (hrow : ¬tag.IsRow) (hcell : ¬tag.IsCell) : Step shapes draft (.tag tag) draft
  | rowEnd : Step shapes draft .rowEnd draft.endRow

/-- What marks do, one after another. -/
inductive Run (shapes : List (ElementKind × Nat)) : TableDraft → List Mark → TableDraft → Prop
  | nil (draft : TableDraft) : Run shapes draft [] draft
  | cons {draft draft₁ draft' : TableDraft} {mark : Mark} {marks : List Mark}
    (h : Step shapes draft mark draft₁) (more : Run shapes draft₁ marks draft') :
    Run shapes draft (mark :: marks) draft'

theorem Step.mono (h : Step shapes draft mark draft') (hshapes : shapes <+: shapes') :
    Step shapes' draft mark draft' := by
  cases h with
  | row hn => exact .row hn
  | cell hn hrows c asked hc => exact .cell hn hrows c asked (shape_mono hshapes hc)
  | other hrow hcell => exact .other hrow hcell
  | rowEnd => exact .rowEnd

theorem Step.style (h : Step shapes draft mark draft') : draft'.style = draft.style := by
  cases h with
  | row | other => rfl
  | cell _ _ c asked => exact draft.style_addCell c (draft.span asked)
  | rowEnd => exact draft.style_endRow

theorem columns_addCell (t : TableDraft) (cell columns : Nat) :
    (t.addCell cell columns).columns = t.columns := by
  unfold addCell
  split <;> rfl

/-- Once the number of columns is known it stays. -/
theorem Step.columns (h : Step shapes draft mark draft') (hcolumns : draft.columns ≠ 0) :
    draft'.columns = draft.columns := by
  cases h with
  | row | other => rfl
  | cell _ _ c asked => exact draft.columns_addCell c (draft.span asked)
  | rowEnd => rw [endRow, if_neg hcolumns]

theorem Step.rows {written : List (Tag × List Tag)} (h : Step shapes draft mark draft')
    (hrows : List.Forall₂ (Row.Holds shapes) draft.rows written) :
    List.Forall₂ (Row.Holds shapes) draft'.rows ((mark.tag?.toList).foldl addTag written) := by
  cases h with
  | row hn =>
    simp only [Mark.tag?, Option.toList, List.foldl_cons, List.foldl_nil, addTag, if_pos hn]
    exact .cons ⟨rfl, .nil⟩ hrows
  | @cell tag hn hsome c asked hc =>
    simp only [Mark.tag?, Option.toList, List.foldl_cons, List.foldl_nil, addTag,
      if_neg hn.not_isRow, if_pos hn]
    obtain ⟨row, rows, hsplit⟩ := List.exists_cons_of_ne_nil hsome
    rw [addCell, hsplit]
    rw [hsplit] at hrows
    cases hrows with
    | @cons _ last _ before hlast hmore =>
      have hcell : Fills shapes (some c :: (List.replicate (draft.span asked - 1) none ++ []))
          [tag.node] := .cell hc (Builder.span_pos draft asked) .nil
      rw [List.append_nil] at hcell
      refine .cons ⟨hlast.style, ?_⟩ hmore
      rw [List.map_append]
      exact hlast.slots.append hcell
  | other hrow hcell => simpa [Mark.tag?, addTag, hrow, hcell] using hrows
  | rowEnd =>
    rw [rows_endRow]
    exact hrows

namespace Run

theorem mono (h : Run shapes draft marks draft') (hshapes : shapes <+: shapes') :
    Run shapes' draft marks draft' := by
  induction h with
  | nil => exact .nil _
  | cons h _ ih => exact .cons (h.mono hshapes) ih

theorem append (h : Run shapes draft marks draft₁) (h' : Run shapes draft₁ marks' draft') :
    Run shapes draft (marks ++ marks') draft' := by
  induction h with
  | nil => exact h'
  | cons h _ ih => exact .cons h (ih h')

theorem style (h : Run shapes draft marks draft') : draft'.style = draft.style := by
  induction h with
  | nil => rfl
  | cons h _ ih => exact ih.trans h.style

theorem columns (h : Run shapes draft marks draft') (hcolumns : draft.columns ≠ 0) :
    draft'.columns = draft.columns := by
  induction h with
  | nil => rfl
  | cons h _ ih => exact (ih (by rwa [h.columns hcolumns])).trans (h.columns hcolumns)

theorem rows_foldl {written : List (Tag × List Tag)} (h : Run shapes draft marks draft')
    (hrows : List.Forall₂ (Row.Holds shapes) draft.rows written) :
    List.Forall₂ (Row.Holds shapes) draft'.rows
      ((marks.filterMap Mark.tag?).foldl addTag written) := by
  induction h generalizing written with
  | nil => exact hrows
  | @cons _ _ _ mark marks h _ ih =>
    have hstep := ih (h.rows hrows)
    cases mark <;> exact hstep

/-- A draft that began without rows has those of the markup. -/
theorem rows (h : Run shapes draft marks draft') (hnone : draft.rows = []) :
    List.Forall₂ (Row.Holds shapes) draft'.rows.reverse (rowsOf (marks.filterMap Mark.tag?)) := by
  have hstart : List.Forall₂ (Row.Holds shapes) draft.rows [] := by
    rw [hnone]
    exact .nil
  have hrows := h.rows_foldl hstart
  rw [foldl_addTag] at hrows
  simpa using List.rel_reverse hrows

/-- Every cell covers a column, and no more than the limit at its place. -/
theorem spans (h : Run shapes draft marks draft') : ∀ tag ∈ marks.filterMap Mark.tag?, tag.IsCell →
    ∃ c n : Nat, shapes[c]? = some (.tableCell n, tag.node) ∧ 0 < n ∧
      n ≤ max widest draft'.columns := by
  induction h with
  | nil => nofun
  | @cons draft draft₁ draft' mark marks h more ih =>
    intro tag htag hcell
    cases h with
    | row hn =>
      rcases List.mem_cons.1 htag with rfl | htag
      · exact absurd hn hcell.not_isRow
      · exact ih tag htag hcell
    | cell hn hrows c asked hc =>
      rcases List.mem_cons.1 htag with rfl | htag
      · refine ⟨c, _, hc, Builder.span_pos draft asked, ?_⟩
        by_cases hzero : draft.columns = 0
        · have hspan : draft.span asked ≤ widest := by
            rw [span, if_neg (by omega)]
            exact Nat.min_le_right _ _
          omega
        · have hkept : draft'.columns = draft.columns :=
            (more.columns (by rwa [columns_addCell])).trans (draft.columns_addCell _ _)
          have hspan : draft.span asked ≤ draft.columns := by
            rw [span, if_pos (Nat.pos_of_ne_zero hzero)]
            exact Nat.min_le_right _ _
          omega
      · exact ih tag htag hcell
    | other hrow hother =>
      rcases List.mem_cons.1 htag with rfl | htag
      · exact absurd hcell hother
      · exact ih tag htag hcell
    | rowEnd => exact ih tag htag hcell

end Run

end TableDraft

/-! ### Rows that are not nested -/

/-- Whether a row is open behind a mark, if one is open before it or not. There is no
answer where a row would stand inside a row, or a cell outside of one. -/
def Mark.next? : (inRow : Bool) → Mark → Option Bool
  | inRow, rowEnd => if inRow then some false else none
  | inRow, tag t =>
    if t.IsCell then if inRow then some true else none
    else if t.IsRow then if inRow then none else some true
    else some inRow

theorem Forest.Neat.next? : ∀ {f : Forest} {inRow : Bool} (outer : Option Nat) (seat next : Nat),
    f.Neat inRow → (f.marks outer seat next).foldlM Mark.next? inRow = some inRow
  | .nil, _, _, _, _, _ => rfl
  | .text _ _ rest, _, outer, seat, next, h => Neat.next? (f := rest) outer seat next h
  | .element p name attributes inside q rest, inRow, outer, seat, next, h => by
    obtain ⟨hfirst, hrest⟩ := h
    have hmore := fun outer seat next => Neat.next? outer seat next hrest
    by_cases hcell : name = "td" ∨ name = "th"
    · obtain rfl : inRow = true := by rwa [if_pos hcell] at hfirst
      simp [marks, Mark.next?, Tag.IsCell, hcell, hmore]
    rw [if_neg hcell] at hfirst
    by_cases hrow : name = "tr"
    · obtain ⟨rfl, hinside⟩ : inRow = false ∧ inside.Neat true := by rwa [if_pos hrow] at hfirst
      have hwithin := fun outer seat next => Neat.next? outer seat next hinside
      simp [marks, Mark.next?, Tag.IsCell, Tag.IsRow, hrow, hwithin, hmore]
    · rw [if_neg hrow] at hfirst
      have hwithin := fun outer seat next => Neat.next? outer seat next hfirst
      simp [marks, Mark.next?, Tag.IsCell, Tag.IsRow, hcell, hrow, hwithin, hmore]

/-- The number of slots in the first row that has any. The last row is the first one here. -/
def leadWidth : List Row → Nat
  | [] => 0
  | row :: before => if leadWidth before = 0 then row.slots.length else leadWidth before

theorem length_eq_zero_of_leadWidth : ∀ {rows : List Row}, leadWidth rows = 0 →
    ∀ row ∈ rows, row.slots.length = 0
  | row :: before, h, other, hother => by
    rw [leadWidth] at h
    have hbefore : leadWidth before = 0 := by
      by_contra hne
      rw [if_neg hne] at h
      exact hne h
    rw [if_pos hbefore] at h
    rcases List.mem_cons.1 hother with rfl | hother
    · exact h
    · exact length_eq_zero_of_leadWidth hbefore other hother

/-- The columns that a row of the markup has, by what its cells cover. -/
def widthBy (columns : Nat → Nat) (row : Tag × List Tag) : Nat :=
  (row.2.map fun cell => columns cell.node).sum

theorem Row.Holds.length_slots {shapes : List (ElementKind × Nat)} {columns : Nat → Nat}
    (hsingles : Singles shapes columns) {row : Row} {written : Tag × List Tag}
    (h : row.Holds shapes written) : row.slots.length = widthBy columns written := by
  rw [h.slots.length_slots hsingles, List.map_map]
  rfl

/-- The first row with slots is the first one with a cell. -/
theorem leadWidth_eq {shapes : List (ElementKind × Nat)} {columns : Nat → Nat}
    (hsingles : Singles shapes columns) {rows : List Row} {written : List (Tag × List Tag)}
    (h : List.Forall₂ (Row.Holds shapes) rows written) : leadWidth rows =
      ((written.reverse.find? fun row => !row.2.isEmpty).map (widthBy columns)).getD 0 := by
  induction h with
  | nil => rfl
  | @cons row w before written hrow hmore ih =>
    rw [leadWidth, List.reverse_cons, List.find?_append]
    cases hfound : written.reverse.find? fun row => !row.2.isEmpty with
    | some found =>
      rw [hfound] at ih
      -- A row that is found has a cell, and so it has slots.
      obtain ⟨other, -, hother⟩ := exists_of_mem_right hmore
        (List.mem_reverse.1 (List.mem_of_find?_eq_some hfound))
      have hfilled : found.2 ≠ [] := by simpa using List.find?_some hfound
      have hne : leadWidth before ≠ 0 := by
        rw [ih]
        show widthBy columns found ≠ 0
        rw [← hother.length_slots hsingles, Ne, hother.slots.length_eq_zero]
        simpa using hfilled
      rw [if_neg hne, ih]
      rfl
    | none =>
      have hzero : leadWidth before = 0 := by rw [ih, hfound]; rfl
      rw [if_pos hzero, hrow.length_slots hsingles]
      cases hcells : w.2 with
      | nil => simp [hcells, widthBy]
      | cons cell cells => simp [hcells, widthBy]

namespace TableDraft

variable {shapes : List (ElementKind × Nat)} {draft draft' : TableDraft} {mark : Mark}
  {marks : List Mark} {inRow out : Bool}

/-- The number of columns is that of the first row with slots, but for a row that is open. -/
def Measured (draft : TableDraft) (inRow : Bool) : Prop :=
  draft.columns = leadWidth (if inRow then draft.rows.tail else draft.rows)

theorem Step.measured (h : Step shapes draft mark draft') (hnext : mark.next? inRow = some out)
    (hdraft : draft.Measured inRow) : draft'.Measured out := by
  cases h with
  | @row tag hn =>
    have hcell : ¬tag.IsCell := fun hcell => hcell.not_isRow hn
    cases inRow with
    | true => simp [Mark.next?, hcell, hn] at hnext
    | false =>
      obtain rfl : true = out := by simpa [Mark.next?, hcell, hn] using hnext
      exact hdraft
  | @cell tag hn hrows c asked hc =>
    cases inRow with
    | false => simp [Mark.next?, hn] at hnext
    | true =>
      obtain rfl : true = out := by simpa [Mark.next?, hn] using hnext
      obtain ⟨row, before, hsplit⟩ := List.exists_cons_of_ne_nil hrows
      simp only [Measured, hsplit] at hdraft
      simp only [Measured, addCell, hsplit]
      exact hdraft
  | other hrow hcell =>
    obtain rfl : inRow = out := by simpa [Mark.next?, hcell, hrow] using hnext
    exact hdraft
  | rowEnd =>
    cases inRow with
    | false => simp [Mark.next?] at hnext
    | true =>
      obtain rfl : false = out := by simpa [Mark.next?] using hnext
      have hcolumns : draft.columns = leadWidth draft.rows.tail := hdraft
      show draft.endRow.columns = leadWidth draft.endRow.rows
      rw [rows_endRow, endRow]
      cases hrows : draft.rows with
      | nil =>
        rw [hrows] at hcolumns
        simp [leadWidth, show draft.columns = 0 from hcolumns]
      | cons row before =>
        rw [hrows] at hcolumns
        rw [leadWidth, ← show draft.columns = leadWidth before from hcolumns]
        split <;> simp

theorem Run.measured (h : Run shapes draft marks draft') :
    ∀ {inRow : Bool}, marks.foldlM Mark.next? inRow = some out → draft.Measured inRow →
      draft'.Measured out := by
  induction h with
  | nil =>
    intro inRow hnext hdraft
    obtain rfl : inRow = out := by simpa using hnext
    exact hdraft
  | cons h _ ih =>
    intro inRow hnext hdraft
    rw [List.foldlM_cons] at hnext
    obtain ⟨between, hfirst, hmore⟩ := Option.bind_eq_some_iff.1 hnext
    exact ih hmore (h.measured hfirst hdraft)

/-- A table has as many columns as its first row with slots. -/
theorem Measured.width (h : draft.Measured false) : draft.width = leadWidth draft.rows := by
  have hcolumns : draft.columns = leadWidth draft.rows := h
  rw [TableDraft.width]
  split
  · next hzero =>
    have hnone := length_eq_zero_of_leadWidth (hcolumns.symm.trans hzero)
    rw [← hcolumns, hzero]
    cases hlast : draft.rows.getLast? with
    | none => rfl
    | some row => exact hnone row (List.mem_of_getLast? hlast)
  · exact hcolumns

end TableDraft

end RichText
