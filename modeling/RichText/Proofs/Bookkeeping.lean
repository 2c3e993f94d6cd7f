/-
# The books of a store

An element is made at its start tag, a table at its end, and a container joins the one
around it when it ends; until then it waits. `Document.Gains` keeps the books: what is
held or waits afterwards is what was held or waited before, and what is new, but for
the cells that tables have lost. Every change to a store keeps them if whatever gets a
part has an earlier node than the part has.

Key definitions: `Document.Gains`, `Document.Seats`, `Document.Tabled`.
Key theorems: `Document.Gains.trans`, `Document.gains_push`, `Document.gains_append`,
`Document.gains_table`, `Document.Tabled.addCell`.
-/
import RichText.Proofs.Holding
import RichText.Proofs.WrittenTables

namespace RichText

open Markup Text

namespace Document

variable {d d' d'' : Document} {w w' w'' : List Nat} {written written' : List WrittenTable}
  {c i bound : Nat}

/-- The store has become `d'`. The elements in `w` have waited before to be held, those
in `w'` wait now; of the tables that were made in between, `written` in the markup, some
cells have been lost. -/
structure Gains (d : Document) (w : List Nat) (written : List WrittenTable) (d' : Document)
    (w' : List Nat) : Prop where
  size : d.size ≤ d'.size
  nodes : d.styles.size ≤ d'.styles.size
  shapes : d.shapes <+: d'.shapes
  rises : d.Rises → d'.Rises
  books : ∃ drafts : List TableDraft, List.Forall₂ (Laid d'.shapes) drafts written ∧ ∀ i,
    d'.held.count i + w'.count i + (drafts.flatMap TableDraft.cut).count i =
      d.held.count i + w.count i + if d.size ≤ i ∧ i < d'.size then 1 else 0

theorem Gains.trans (h : Gains d w written d' w') (h' : Gains d' w' written' d'' w'') :
    Gains d w (written ++ written') d'' w'' := by
  obtain ⟨drafts, hlaid, hbooks⟩ := h.books
  obtain ⟨drafts', hlaid', hbooks'⟩ := h'.books
  refine ⟨h.size.trans h'.size, h.nodes.trans h'.nodes, h.shapes.trans h'.shapes,
    h'.rises ∘ h.rises, drafts ++ drafts',
    List.rel_append (hlaid.imp fun _ _ hl => hl.mono h'.shapes) hlaid', fun i => ?_⟩
  have hcount := hbooks i
  have hcount' := hbooks' i
  have hsize := h.size
  have hsize' := h'.size
  rw [List.flatMap_append, List.count_append]
  split_ifs at hcount hcount' ⊢ <;> omega

/-- What else waits, goes on waiting. -/
theorem Gains.frame (h : Gains d w written d' w') (more : List Nat) :
    Gains d (w ++ more) written d' (w' ++ more) := by
  obtain ⟨drafts, hlaid, hbooks⟩ := h.books
  refine ⟨h.size, h.nodes, h.shapes, h.rises, drafts, hlaid, fun i => ?_⟩
  have hcount := hbooks i
  simp only [List.count_append]
  omega

theorem Gains.perm {v v' : List Nat} (h : Gains d w written d' w') (hw : v.Perm w)
    (hw' : w'.Perm v') : Gains d v written d' v' := by
  obtain ⟨drafts, hlaid, hbooks⟩ := h.books
  refine ⟨h.size, h.nodes, h.shapes, h.rises, drafts, hlaid, fun i => ?_⟩
  rw [hw.count_eq, ← hw'.count_eq]
  exact hbooks i

/-- Only elements, roots and the number of nodes count. -/
theorem gains_of_eq (helements : d'.elements = d.elements) (hroots : d'.roots = d.roots)
    (hstyles : d.styles.size ≤ d'.styles.size) : Gains d w [] d' w := by
  have hsize : d'.size = d.size := by rw [Document.size, helements]; rfl
  have hshapes : d'.shapes = d.shapes := by rw [Document.shapes, helements]; rfl
  refine ⟨Nat.le_of_eq hsize.symm, hstyles, hshapes ▸ List.prefix_refl _,
    fun hd => hd.congr helements hstyles, [], .nil, fun i => ?_⟩
  rw [held, held, helements, hroots, hsize, if_neg (by omega)]
  rfl

/-- A new element waits; its parts do no longer. -/
theorem gains_push {e : Element} (hstyle : e.style < d.styles.size)
    (hparts : ∀ part ∈ e.parts, e.style < d.styleOf part) :
    Gains d (e.parts ++ w) [] (d.push e) (d.size :: w) := by
  refine ⟨by rw [size_push]; exact Nat.le_succ _, Nat.le_refl _, ⟨_, (d.shapes_push e).symm⟩,
    fun hd => hd.push hstyle hparts, [], .nil, fun i => ?_⟩
  rw [held_push, size_push]
  simp only [List.count_append, List.count_cons, List.flatMap_nil, List.count_nil, beq_iff_eq]
  split_ifs <;> omega

theorem gains_addRoot (d : Document) (i : Nat) (w : List Nat) :
    Gains d (i :: w) [] (d.addRoot i) w := by
  refine ⟨Nat.le_refl _, Nat.le_refl _, List.prefix_refl _, fun hd => hd.congr rfl (Nat.le_refl _),
    [], .nil, fun j => ?_⟩
  rw [(d.held_addRoot i).count_eq, show (d.addRoot i).size = d.size from rfl, if_neg (by omega)]
  simp only [List.count_cons, List.flatMap_nil, List.count_nil]
  omega

/-- The element can have children, and its node comes before `bound`. -/
def Seats (d : Document) (c bound : Nat) : Prop :=
  ∃ kind node, d.shapes[c]? = some (kind, node) ∧ kind.hasChildren = true ∧ node < bound

theorem Seats.mono {bound' : Nat} (h : Seats d c bound) (hshapes : d.shapes <+: d'.shapes)
    (hbound : bound ≤ bound') : Seats d' c bound' := by
  obtain ⟨kind, node, hc, hchildren, hlt⟩ := h
  exact ⟨kind, node, shape_mono hshapes hc, hchildren, Nat.lt_of_lt_of_le hlt hbound⟩

theorem styleOf_shape {kind : ElementKind} {node : Nat} (h : d.shapes[i]? = some (kind, node)) :
    d.styleOf i = node := by
  obtain ⟨e, he, -, hnode⟩ := getElem?_shapes_eq_some.1 h
  rw [styleOf_eq he, hnode]

theorem Seats.holds (h : Seats d c bound) : Holds c d := by
  obtain ⟨kind, node, hc, hchildren, -⟩ := h
  obtain ⟨e, he, rfl, -⟩ := getElem?_shapes_eq_some.1 hc
  exact ⟨e, he, hchildren⟩

theorem Seats.styleOf_lt (h : Seats d c bound) : d.styleOf c < bound := by
  obtain ⟨kind, node, hc, -, hlt⟩ := h
  rwa [styleOf_shape hc]

/-- An element that has waited becomes a child. -/
theorem gains_append (hc : Seats d c bound) (hi : bound ≤ d.styleOf i) :
    Gains d (i :: w) [] (d.append c i) w := by
  have hshapes := d.shapes_append c i
  refine ⟨Nat.le_of_eq (size_append d c i).symm, Nat.le_refl _, hshapes ▸ List.prefix_refl _,
    fun hd => hd.append hc.holds (Nat.lt_of_lt_of_le hc.styleOf_lt hi), [], .nil, fun j => ?_⟩
  rw [(held_append hc.holds i).count_eq, size_append, if_neg (by omega)]
  simp only [List.count_cons, List.flatMap_nil, List.count_nil]
  omega

/-- A table takes up the cells of its draft, or loses them. -/
theorem gains_table {draft : TableDraft} {t : WrittenTable} (hstyle : draft.style < d.styles.size)
    (hcells : ∀ cell ∈ draft.cells, draft.style < d.styleOf cell) (hnode : draft.style = t.node)
    (hrows : List.Forall₂ (fun row nodes => Fills d.shapes row.slots nodes) draft.rows t.rows) :
    Gains d (draft.cells ++ w) [t] (d.push { style := draft.style, kind := .table draft.table })
      (d.size :: w) := by
  have hperm := draft.perm_cells
  have hparts : ∀ part ∈ draft.table.cells, draft.style < d.styleOf part :=
    fun part hpart => hcells part (hperm.subset (List.mem_append_left _ hpart))
  have hpush := gains_push (w := w) (e := { style := draft.style, kind := .table draft.table })
    hstyle hparts
  have hrows' := hrows.imp fun _ _ hfills => hfills.mono hpush.shapes
  refine ⟨hpush.size, hpush.nodes, hpush.shapes, hpush.rises, [draft], ?_, fun i => ?_⟩
  · refine .cons ⟨hnode, hrows', ?_⟩ .nil
    rw [shapes_push]
    exact List.mem_append_right _ List.mem_cons_self
  · obtain ⟨drafts, hlaid, hbooks⟩ := hpush.books
    cases hlaid
    have hcount := hbooks i
    have hcells := hperm.count_eq i
    simp only [List.count_append, List.flatMap_nil, List.count_nil,
      List.flatMap_cons, List.append_nil] at hcount hcells ⊢
    have hself : (Element.mk draft.style (.table draft.table) []).parts = draft.table.cells := rfl
    rw [hself] at hcount
    omega

theorem styleOf_mono (hshapes : d.shapes <+: d'.shapes) (hi : i < d.size) :
    d'.styleOf i = d.styleOf i := by
  have he : d.shapes[i]? = some (d.elements[i].kind, d.elements[i].style) :=
    getElem?_shapes_eq_some.2 ⟨_, Array.getElem?_eq_getElem hi, rfl, rfl⟩
  rw [styleOf_shape he, styleOf_shape (shape_mono hshapes he)]

/-- A draft of which the markup has written `rows`. -/
structure Tabled (d : Document) (draft : TableDraft) (rows : List (List Nat)) : Prop where
  style : draft.style < d.styles.size
  cells : ∀ cell ∈ draft.cells, draft.style < d.styleOf cell
  rows : List.Forall₂ (fun row nodes => Fills d.shapes row.slots nodes) draft.rows rows

theorem Tabled.mono {draft : TableDraft} {rows : List (List Nat)} (h : Tabled d draft rows)
    (hshapes : d.shapes <+: d'.shapes) (hstyles : d.styles.size ≤ d'.styles.size) :
    Tabled d' draft rows where
  style := Nat.lt_of_lt_of_le h.style hstyles
  cells cell hcell := by
    have hlt := h.cells cell hcell
    rwa [styleOf_mono hshapes (lt_size_of_styleOf hlt)]
  rows := h.rows.imp fun _ _ hfills => hfills.mono hshapes

theorem Tabled.addRow {draft : TableDraft} {rows : List (List Nat)} (h : Tabled d draft rows)
    (style : Nat) : Tabled d (draft.addRow style) ([] :: rows) :=
  ⟨h.style, h.cells, .cons .nil h.rows⟩

theorem Tabled.endRow {draft : TableDraft} {rows : List (List Nat)} (h : Tabled d draft rows) :
    Tabled d draft.endRow rows where
  style := by rw [draft.style_endRow]; exact h.style
  cells := by rw [draft.cells_endRow, draft.style_endRow]; exact h.cells
  rows := by rw [draft.rows_endRow]; exact h.rows

/-- A cell that has been read goes into the last row. -/
theorem Tabled.addCell {draft : TableDraft} {rows : List (List Nat)} (h : Tabled d draft rows)
    (hrows : draft.rows ≠ []) {cell columns node : Nat}
    (hcell : d.shapes[cell]? = some (.tableCell columns, node)) (hcolumns : 0 < columns)
    (hnode : draft.style < node) :
    Tabled d (draft.addCell cell columns) (rows.modifyHead (· ++ [node])) where
  style := by rw [draft.style_addCell]; exact h.style
  cells other hother := by
    rw [draft.style_addCell]
    rcases List.mem_cons.1 ((TableDraft.cells_addCell hrows cell columns).subset hother) with
      rfl | hother
    · rwa [styleOf_shape hcell]
    · exact h.cells other hother
  rows := by
    obtain ⟨row, more, hsplit⟩ := List.exists_cons_of_ne_nil hrows
    have hfills := h.rows
    rw [hsplit] at hfills
    cases hfills with
    | cons hfirst hmore =>
      have hlast : Fills d.shapes (some cell :: (List.replicate (columns - 1) none ++ [])) [node] :=
        .cell hcell hcolumns .nil
      rw [List.append_nil] at hlast
      rw [TableDraft.addCell, hsplit]
      exact .cons (hfirst.append hlast) hmore

end Document

end RichText
