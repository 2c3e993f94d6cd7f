/-
# How far cells reach

The columns that a cell covers are its own: of two cells in a row the one ends before
the other begins (`sum_le_of_splits`), so the slots behind that of a cell are empty as far
as it reaches (`Table.LaidOut.reach`).

A cell may ask for no more columns than the table has, but how many are left in its row
is not looked at; and a row that is too long in the end is cut, while the cell at which it
is cut still says that it covers as many columns as before. So a cell may reach over the
last column. It does so only in a row that is written too long, where it is the last one
(`Document.spans_of_ofString`); `Document.overhanging_cell` is such a cell.

Key definitions: `Table.Reaches`.
Key theorems: `sum_le_of_splits`, `mem_rowsOf`, `Table.LaidOut.reaches`,
`Document.spans_of_ofString`.
-/
import RichText.Proofs.TableLayout

namespace RichText

/-- Of two items of a list, the one that has less before it ends before the other begins. -/
theorem sum_le_of_splits {α : Type} (width : α → Nat) {front rest front' rest' : List α} {a b : α}
    (h : front ++ a :: rest = front' ++ b :: rest')
    (hlt : (front.map width).sum < (front'.map width).sum) :
    (front.map width).sum + width a ≤ (front'.map width).sum := by
  rcases List.append_eq_append_iff.1 h with ⟨between, rfl, hrest⟩ | ⟨between, rfl, -⟩
  · cases between with
    | nil => simp at hlt
    | cons first between =>
      obtain ⟨rfl, -⟩ := List.cons.inj hrest
      simp only [List.map_append, List.map_cons, List.sum_append, List.sum_cons]
      omega
  · -- The other item would stand first.
    simp only [List.map_append, List.sum_append] at hlt
    omega

/-- The cells of a row are among the tags. -/
theorem mem_rowsOf : ∀ {tags : List Tag} {row : Tag × List Tag} {cell : Tag}, row ∈ rowsOf tags →
    cell ∈ row.2 → cell ∈ tags ∧ cell.IsCell
  | tag :: tags, row, cell, hrow, hcell => by
    have deeper (h : row ∈ rowsOf tags) : cell ∈ tag :: tags ∧ cell.IsCell := by
      obtain ⟨hmem, hcell⟩ := mem_rowsOf h hcell
      exact ⟨.tail _ hmem, hcell⟩
    rw [rowsOf] at hrow
    split at hrow
    · rcases List.mem_cons.1 hrow with rfl | hrow
      · obtain ⟨hmem, hcell⟩ := List.mem_filter.1 hcell
        exact ⟨.tail _ ((List.takeWhile_sublist _).subset hmem), of_decide_eq_true hcell⟩
      · exact deeper hrow
    · exact deeper hrow

/-- In a table laid out in rows, the element `x` is a cell of `k` columns, which are its own
from column `c` of row `r` on; and they are all in the table, unless the row is written
with more columns than the table has and the cell is the last one in it. -/
structure Table.Reaches (d : Document) (t : Table) (written : Tag × List Tag) (r c x k : Nat) :
    Prop where
  cell : ∃ e, d.element? x = some e ∧ e.kind = .tableCell k
  pos : 0 < k
  covered : ∀ j, 0 < j → j < k → t.cell? r (c + j) = none
  fits : widthBy d.columnsAt written ≤ t.columns → c + k ≤ t.columns
  last : t.columns < c + k → ∀ c', c < c' → t.cell? r c' = none

theorem Table.LaidOut.reaches {d : Document} {t : Table} {tag : Tag} {inside : Forest}
    (h : t.LaidOut d tag inside) {r c x : Nat} (hx : t.cell? r c = some x) :
    ∃ k written, (rowsOf (tag.grid inside))[r]? = some written ∧ t.Reaches d written r c x k := by
  obtain ⟨⟨written, hwritten, front, cell, rest, hsplit, ⟨e, he, hkind, -⟩, hc⟩, -⟩ :=
    (h.cell r c x).1 hx
  have hcell : cell ∈ written.2 := by simp [hsplit]
  obtain ⟨hgrid, hiscell⟩ := mem_rowsOf (List.mem_of_getElem? hwritten) hcell
  -- The next cell begins where this one ends, or behind.
  have hnext {c' y : Nat} (hlt : c < c') (hy : t.cell? r c' = some y) :
      c + d.columnsAt cell.node ≤ c' := by
    obtain ⟨⟨written', hwritten', front', cell', rest', hsplit', -, hc'⟩, -⟩ := (h.cell r c' y).1 hy
    obtain rfl := Option.some.inj (hwritten.symm.trans hwritten')
    rw [hc, hc'] at hlt ⊢
    exact sum_le_of_splits _ (hsplit.symm.trans hsplit') hlt
  refine ⟨_, written, hwritten, ⟨e, he, hkind⟩, (h.spans cell hgrid hiscell).2.1,
    fun j hj hlt => ?_, fun hfits => ?_, fun hover c' hlt => ?_⟩
  · refine Option.eq_none_iff_forall_ne_some.2 fun y hy => ?_
    have := hnext (by omega) hy
    omega
  · have hwidth : widthBy d.columnsAt written =
        c + (d.columnsAt cell.node + (rest.map fun cell => d.columnsAt cell.node).sum) := by
      rw [widthBy, hsplit, List.map_append, List.sum_append, List.map_cons, List.sum_cons, hc]
    omega
  · refine Option.eq_none_iff_forall_ne_some.2 fun y hy => ?_
    have := hnext hlt hy
    have := ((h.cell r c' y).1 hy).2
    omega

namespace Document

variable {number : Nat} {registry : Registry} {source : String} {d : Document} {f : Forest}

/-- No two tables have one node. -/
theorem Sized.table_unique (h : d.Sized) {t t' : Table} {node : Nat}
    (ht : (.table t, node) ∈ d.shapes) (ht' : (.table t', node) ∈ d.shapes) : t = t' := by
  obtain ⟨i, hi⟩ := List.mem_iff_getElem?.1 ht
  obtain ⟨j, hj⟩ := List.mem_iff_getElem?.1 ht'
  obtain ⟨e, he, hkind, hstyle⟩ := getElem?_shapes_eq_some.1 hi
  obtain ⟨e', he', hkind', hstyle'⟩ := getElem?_shapes_eq_some.1 hj
  obtain rfl := cell_unique h he he' (n := t.columns) (by rw [hkind]; rfl) (by rw [hkind']; rfl)
    (hstyle.trans hstyle'.symm)
  obtain rfl := Option.some.inj (he.symm.trans he')
  exact ElementKind.table.inj (hkind.symm.trans hkind')

/-- **Cells cover their columns alone.** Wherever a table has a cell, the cell has at least
one column, and the slots of the others are empty. They are all in the table, unless the
row is written with more columns than the table has; then the cell that reaches over the
last column is the last one of its row. -/
theorem spans_of_ofString (h : ofString number registry source = .ok d) :
    (∃ f : Forest, (EventStream.ofString source).items = f.events) ∧
    ∀ f : Forest, (EventStream.ofString source).items = f.events →
      ∀ i e t, d.element? i = some e → e.kind = .table t → ∃ tag inside,
        (tag, inside) ∈ contentsOf f ∧ tag.IsTable ∧ tag.node = e.style ∧
          ∀ r c x, t.cell? r c = some x → ∃ k written,
            (rowsOf (tag.grid inside))[r]? = some written ∧ t.Reaches d written r c x k := by
  refine ⟨?_, fun f hf i e t he hkind => ?_⟩
  · obtain ⟨_, -, hend, -⟩ := exists_of_ofString h
    exact EventStream.exists_forest hend
  have hsized := sized_of_ofString h hf
  have hmem : e ∈ d.elements.toList := Array.mem_toList_iff.2 (Array.mem_of_getElem? he)
  obtain ⟨tag, htag, htable, hnode⟩ := exists_tag_of_table h hf hmem hkind
  rw [tagsOf, ← f.root.fst_contents] at htag
  obtain ⟨⟨tag, inside⟩, hcontent, rfl⟩ := List.mem_map.1 htag
  obtain ⟨spacing, padding, draft, hrun, hmade⟩ := makes_of_ofString h hf _ hcontent htable
  have hshape : (.table t, tag.node) ∈ d.shapes := by
    refine List.mem_map.2 ⟨e, hmem, ?_⟩
    rw [hkind, ← hnode]
  obtain rfl := hsized.table_unique hshape hmade
  exact ⟨tag, inside, hcontent, htable, hnode, fun r c x => (hrun.laidOut hsized).reaches⟩

/-- A table of two columns, with a cell of two columns in the second one. -/
def wideCell : String :=
  "<html><body><table><tr><td/><td/></tr><tr><td/><td colspan='2'/></tr></table></body></html>"

theorem ofString_wideCell : EventStream.ofString wideCell =
    ⟨[(⟨1, 1⟩, .opened "html" []), (⟨1, 7⟩, .opened "body" []), (⟨1, 13⟩, .opened "table" []),
      (⟨1, 20⟩, .opened "tr" []), (⟨1, 24⟩, .opened "td" []), (⟨1, 24⟩, .closed "td"),
      (⟨1, 29⟩, .opened "td" []), (⟨1, 29⟩, .closed "td"), (⟨1, 34⟩, .closed "tr"),
      (⟨1, 39⟩, .opened "tr" []), (⟨1, 43⟩, .opened "td" []), (⟨1, 43⟩, .closed "td"),
      (⟨1, 48⟩, .opened "td" [("colspan", "2")]), (⟨1, 48⟩, .closed "td"), (⟨1, 65⟩, .closed "tr"),
      (⟨1, 70⟩, .closed "table"), (⟨1, 78⟩, .closed "body"), (⟨1, 85⟩, .closed "html")], none⟩ := by
  decide +kernel

/-- The second row is written with more columns than the table has. -/
theorem spans_of_ofString_wideCell :
    ∃ (d : Document) (f : Forest) (t : Table) (written : Tag × List Tag),
    ofString 0 .standard wideCell = .ok d ∧ (EventStream.ofString wideCell).items = f.events ∧
    (d.element? 5).map (·.kind) = some (.table t) ∧ t.cell? 1 1 = some 4 ∧
    t.Reaches d written 1 1 4 2 ∧ t.columns < widthBy d.columnsAt written := by
  obtain ⟨d, e, t, cell, hd, he, hkind, hslot, hcell, hspan, hcolumns⟩ :
      ∃ d e t cell, ofString 0 .standard wideCell = .ok d ∧ d.element? 5 = some e ∧
        e.kind = .table t ∧ t.cell? 1 1 = some 4 ∧ d.element? 4 = some cell ∧
        cell.kind = .tableCell 2 ∧ t.columns = 2 :=
    ⟨_, _, _, _, (congrArg (ofEvents 0 .standard) ofString_wideCell).trans rfl,
      rfl, rfl, rfl, rfl, rfl, rfl⟩
  obtain ⟨⟨f, hf⟩, hall⟩ := spans_of_ofString hd
  obtain ⟨_, _, -, -, -, hreaches⟩ := hall f hf 5 e t he hkind
  obtain ⟨k, written, -, h⟩ := hreaches 1 1 4 hslot
  obtain ⟨cell', hcell', hkind'⟩ := h.cell
  obtain rfl := Option.some.inj (hcell.symm.trans hcell')
  obtain rfl := ElementKind.tableCell.inj (hspan.symm.trans hkind')
  refine ⟨d, f, t, written, hd, hf, by rw [he, ← hkind]; rfl, hslot, h, ?_⟩
  by_contra hle
  have := h.fits (Nat.le_of_not_lt hle)
  omega

/-- The cell is told that it may cover as many columns as the table has, although only one
is left for it. -/
theorem overhanging_cell : ∃ (d : Document) (e : Element) (t : Table) (cell : Element),
    ofString 0 .standard wideCell = .ok d ∧ d.element? 5 = some e ∧ e.kind = .table t ∧
    t.cell? 1 1 = some 4 ∧ d.element? 4 = some cell ∧ cell.kind = .tableCell 2 ∧
    ¬ 1 + 2 ≤ t.columns :=
  ⟨_, _, _, _, (congrArg (ofEvents 0 .standard) ofString_wideCell).trans rfl,
    rfl, rfl, rfl, rfl, rfl, by decide⟩

end Document
end RichText
