/-
# How tables are laid out

Every table of a document is laid out as the tags say that stand in it and not inside of
its cells (`Document.tables_laid_out`). A builder that reads a table passes its marks one
by one (`Builder.drafts_run`, by induction on the forest), and the table is what its draft
has become by then. The slots of all rows are one list in a document, where the slot in a
row and column is found by counting (`Table.Rect.cell?_eq`).

Key definitions: `Table.Rect`, `Document.CellAt`, `Table.LaidOut`, `Document.contentsOf`,
`Builder.Drafts`.
Key theorems: `Table.Rect.cell?_eq`, `TableDraft.Run.laidOut`, `Builder.drafts_run`,
`Document.tables_laid_out`.
-/
import RichText.Proofs.TableRows
import RichText.Proofs.Traversal

namespace RichText

open Markup Text

/-! ### Slots of tables -/

namespace Table

/-- Every row has one slot for each column. -/
def Rect (t : Table) : Prop := ∀ row ∈ t.rows, row.slots.length = t.columns

theorem getElem?_flatMap_slots {width c : Nat} (hc : c < width) : ∀ (rows : List Row) (r : Nat),
    (∀ row ∈ rows, row.slots.length = width) →
    (rows.flatMap (·.slots))[r * width + c]? = rows[r]?.bind fun row => row.slots[c]?
  | [], _, _ => by simp
  | row :: rows, 0, h => by
    have hlength : c < row.slots.length := h row List.mem_cons_self ▸ hc
    rw [List.flatMap_cons, Nat.zero_mul, Nat.zero_add, List.getElem?_append_left hlength]
    rfl
  | row :: rows, r + 1, h => by
    have hlength : row.slots.length = width := h row List.mem_cons_self
    have hindex : (r + 1) * width + c = row.slots.length + (r * width + c) := by
      rw [hlength, Nat.succ_mul]
      omega
    rw [List.flatMap_cons, hindex, List.getElem?_append_right (Nat.le_add_right _ _),
      Nat.add_sub_cancel_left, List.getElem?_cons_succ]
    exact getElem?_flatMap_slots hc rows r fun other hother =>
      h other (List.mem_cons_of_mem _ hother)

variable {t : Table}

theorem Rect.length_slots (h : t.Rect) : t.slots.length = t.rows.length * t.columns := by
  rw [slots, List.length_flatMap, List.map_congr_left h]
  simp

/-- A slot is found by counting those before it, row by row. -/
theorem Rect.cell?_eq (h : t.Rect) (r : Nat) {c : Nat} (hc : c < t.columns) :
    t.cell? r c = t.slots[r * t.columns + c]?.join := by
  rw [slots, getElem?_flatMap_slots hc t.rows r h, cell?, if_pos hc]
  cases t.rows[r]? <;> rfl

theorem cell?_eq_none {r c : Nat} (hout : t.rows.length ≤ r ∨ t.columns ≤ c) :
    t.cell? r c = none := by
  by_cases hc : c < t.columns
  · have hr : t.rows.length ≤ r := hout.resolve_right (Nat.not_le.2 hc)
    simp [cell?, List.getElem?_eq_none hr]
  · exact if_neg hc

end Table

namespace TableDraft

theorem rect_table (t : TableDraft) : t.table.Rect := by
  intro row hrow
  obtain ⟨row, -, rfl⟩ := List.mem_map.1 hrow
  exact row.length_fit t.width

/-- Cutting and filling rows changes nothing up to the last column. -/
theorem cell?_table (t : TableDraft) (r c x : Nat) : t.table.cell? r c = some x ↔
    (∃ row, t.rows.reverse[r]? = some row ∧ row.slots[c]? = some (some x)) ∧ c < t.width := by
  have hslot (row : Row) (hc : c < t.width) :
      (row.fit t.width).slots[c]?.join = some x ↔ row.slots[c]? = some (some x) := by
    by_cases hlt : c < row.slots.length
    · have htake : c < (row.slots.take t.width).length := by
        rw [List.length_take]
        exact Nat.lt_min.2 ⟨hc, hlt⟩
      rw [Row.fit, List.getElem?_append_left htake, List.getElem?_take_of_lt hc,
        Option.join_eq_some_iff]
    · have hle : row.slots.length ≤ c := Nat.le_of_not_lt hlt
      have htake : (row.slots.take t.width).length ≤ c := by
        rw [List.length_take]
        exact (Nat.min_le_right _ _).trans hle
      rw [Row.fit, List.getElem?_append_right htake, List.getElem?_replicate,
        List.getElem?_eq_none hle]
      split <;> simp
  show (if c < t.width then _ else none) = some x ↔ _
  split
  · next hc =>
    simp only [table, List.getElem?_map, Option.bind_eq_some_iff, Option.map_eq_some_iff, hc,
      and_true]
    constructor
    · rintro ⟨_, ⟨row, hrow, rfl⟩, hx⟩
      exact ⟨row, hrow, (hslot row hc).1 hx⟩
    · rintro ⟨row, hrow, hx⟩
      exact ⟨_, ⟨row, hrow, rfl⟩, (hslot row hc).2 hx⟩
  · next hc => simp [hc]

end TableDraft

/-- Of lists that correspond, one has an item of a kind at an index if the other has. -/
theorem exists_getElem?_congr {α β : Type} {R : α → β → Prop} {P : α → Prop} {Q : β → Prop}
    {l : List α} {l' : List β} (h : List.Forall₂ R l l') (hPQ : ∀ a b, R a b → (P a ↔ Q b)) :
    ∀ i : Nat, (∃ a, l[i]? = some a ∧ P a) ↔ ∃ b, l'[i]? = some b ∧ Q b := by
  induction h with
  | nil => simp
  | cons hab _ ih =>
    intro i
    cases i with
    | zero => simpa using hPQ _ _ hab
    | succ i => simpa using ih i

/-! ### Tables of a document -/

/-- The element is the cell of a tag. -/
def Document.CellAt (d : Document) (x : Nat) (tag : Tag) : Prop :=
  ∃ e, d.element? x = some e ∧ e.kind = .tableCell (d.columnsAt tag.node) ∧ e.style = tag.node

/-- The table is that of a tag which has `inside` inside of its element. A cell covers as
many columns as `Document.columnsAt` says of its tag's node. -/
structure Table.LaidOut (d : Document) (t : Table) (tag : Tag) (inside : Forest) : Prop where
  rows : t.rows.length = ((tag.grid inside).filter fun tag => tag.IsRow).length
  slots : t.slots.length = t.rows.length * t.columns
  style : ∀ r, t.rowStyle? r = ((tag.grid inside).filter fun tag => tag.IsRow)[r]?.map Tag.node
  spans : ∀ cell ∈ tag.grid inside, cell.IsCell → (∃ x, d.CellAt x cell) ∧
    1 ≤ d.columnsAt cell.node ∧ d.columnsAt cell.node ≤ max 1000 t.columns
  /-- A slot has the cell whose columns begin there. -/
  cell : ∀ r c x, t.cell? r c = some x ↔ (∃ row, (rowsOf (tag.grid inside))[r]? = some row ∧
    ∃ before cell after, row.2 = before ++ cell :: after ∧ d.CellAt x cell ∧
      c = (before.map fun cell => d.columnsAt cell.node).sum) ∧ c < t.columns
  outside : ∀ r c, t.rows.length ≤ r ∨ t.columns ≤ c → t.cell? r c = none
  flat : ∀ r c, c < t.columns → t.cell? r c = t.slots[r * t.columns + c]?.join
  neat : inside.Neat false → t.columns = (((rowsOf (tag.grid inside)).find?
    fun row => !row.2.isEmpty).map (widthBy d.columnsAt)).getD 0

namespace Document

variable {d : Document}

/-- The cell of a node is the only one there. -/
theorem cellAt_iff (hd : d.Sized) (x : Nat) (tag : Tag) :
    d.CellAt x tag ↔ ∃ n, d.shapes[x]? = some (.tableCell n, tag.node) := by
  constructor
  · rintro ⟨e, he, hkind, hstyle⟩
    exact ⟨_, getElem?_shapes_eq_some.2 ⟨e, he, hkind, hstyle⟩⟩
  · rintro ⟨n, hx⟩
    have hcolumns := (singles hd).columns x n tag.node hx
    obtain ⟨e, he, hkind, hstyle⟩ := getElem?_shapes_eq_some.1 hx
    exact ⟨e, he, by rw [hkind, hcolumns], hstyle⟩

end Document

/-- A row has its cells where its slots say. -/
theorem Row.Holds.getElem?_slots {d : Document} (hd : d.Sized) {row : Row}
    {written : Tag × List Tag} (h : row.Holds d.shapes written) (c x : Nat) :
    row.slots[c]? = some (some x) ↔ ∃ before cell after, written.2 = before ++ cell :: after ∧
      d.CellAt x cell ∧ c = (before.map fun cell => d.columnsAt cell.node).sum := by
  rw [h.slots.getElem?_slots (Document.singles hd) x c]
  constructor
  · rintro ⟨n, before, node, after, hx, hsplit, hsum⟩
    obtain ⟨front, back, hcells, rfl, hback⟩ := List.map_eq_append_iff.1 hsplit
    obtain ⟨cell, rest, rfl, rfl, rfl⟩ := List.map_eq_cons_iff.1 hback
    refine ⟨front, cell, rest, hcells, (Document.cellAt_iff hd x cell).2 ⟨n, hx⟩, ?_⟩
    rw [hsum, List.map_map]
    rfl
  · rintro ⟨before, cell, after, hcells, hx, hsum⟩
    obtain ⟨n, hx⟩ := (Document.cellAt_iff hd x cell).1 hx
    refine ⟨n, before.map Tag.node, cell.node, after.map Tag.node, hx, by simp [hcells], ?_⟩
    rw [hsum, List.map_map]
    rfl

/-- A draft that has passed the marks of a tag makes the table of the tag. -/
theorem TableDraft.Run.laidOut {d : Document} (hd : d.Sized) {tag : Tag} {inside : Forest}
    {style : Nat} {spacing padding : Int} {draft : TableDraft}
    (h : Run d.shapes { style, spacing, padding } (tag.marks inside) draft) :
    draft.table.LaidOut d tag inside := by
  have hrows := h.rows rfl
  have hrect := draft.rect_table
  have hstyles : draft.table.rows.map (·.style) =
      ((tag.grid inside).filter fun tag => tag.IsRow).map Tag.node := by
    rw [TableDraft.table, List.map_map, ← fst_rowsOf, List.map_map]
    exact List.forall₂_eq_eq_eq ▸ List.forall₂_map_left_iff.2
      (List.forall₂_map_right_iff.2 (hrows.imp fun _ _ hrow => hrow.style))
  refine ⟨?_, hrect.length_slots, fun r => ?_, fun cell hcell hn => ?_, fun r c x => ?_,
    fun r c => Table.cell?_eq_none, fun r c => hrect.cell?_eq r, fun hneat => ?_⟩
  · simpa using congrArg List.length hstyles
  · rw [Table.rowStyle?, ← List.getElem?_map, hstyles, List.getElem?_map]
  · obtain ⟨x, n, hx, hpos, hle⟩ := h.spans cell hcell hn
    rw [(Document.singles hd).columns x n cell.node hx]
    refine ⟨⟨x, (Document.cellAt_iff hd x cell).2 ⟨n, hx⟩⟩, hpos, ?_⟩
    have hwidth : draft.columns ≤ draft.table.columns := by
      show draft.columns ≤ draft.width
      rw [width]
      split <;> omega
    exact hle.trans (max_le_max_left _ hwidth)
  · rw [draft.cell?_table, exists_getElem?_congr hrows fun row written hrow =>
      hrow.getElem?_slots hd c x]
    rfl
  · have hmeasured := h.measured (hneat.next? _ _ _) rfl
    have hwidth := leadWidth_eq (Document.singles hd) (List.rel_reverse hrows)
    rw [List.reverse_reverse, List.reverse_reverse] at hwidth
    exact hmeasured.width.trans hwidth

/-! ### Tables that are read -/

namespace Builder

variable {b b₁ b₂ b₃ b' m : Builder} {p q : Position} {name : String} {attributes : Attributes}
  {region within : Region} {inside : Forest}

/-- The table of a tag has been made of a draft that has passed its marks. -/
def Makes (d : Document) (tag : Tag) (inside : Forest) : Prop :=
  ∃ (spacing padding : Int) (draft : TableDraft),
    TableDraft.Run d.shapes { style := tag.node, spacing, padding } (tag.marks inside) draft ∧
      (.table draft.table, tag.node) ∈ d.shapes

theorem Makes.mono {d d' : Document} {tag : Tag} (h : Makes d tag inside)
    (hshapes : d.shapes <+: d'.shapes) : Makes d' tag inside := by
  obtain ⟨spacing, padding, draft, hrun, hmade⟩ := h
  exact ⟨spacing, padding, draft, hrun.mono hshapes, hshapes.subset hmade⟩

/-- What reading a forest does to drafts: those of the tables in it become tables, and
that of a table around it passes the marks. -/
structure Drafts (f : Forest) (region : Region) (b b' : Builder) : Prop where
  makes : ∀ outer, ∀ content ∈ f.contents region outer b.styles.top b.document.styles.size,
    content.1.IsTable → Makes b'.document content.1 content.2
  passes : ∀ {draft depth}, b.frame = .table draft depth → ∀ outer, ∃ draft',
    b'.frame = .table draft' depth ∧ TableDraft.Run b'.document.shapes draft
      (f.marks outer b.styles.top b.document.styles.size) draft'

theorem prefix_run {f : Forest} (hin : Inside region b) (h : b.run f.events = .ok b') :
    b.document.shapes <+: b'.document.shapes := by
  obtain ⟨shapes, hadds, -⟩ := mirrors_run f none hin h
  exact ⟨shapes, hadds.shapes.symm⟩

theorem prefix_closed (hin : Inside region b) (h : b.closed q name = .ok b') :
    b.document.shapes <+: b'.document.shapes := by
  obtain ⟨shapes, hadds, -⟩ := closed_adds hin h
  exact ⟨_, hadds.shapes.symm⟩

theorem Inside.eq_table {draft : TableDraft} {depth : Nat} (hin : Inside region b)
    (hframe : b.frame = .table draft depth) : region = .table := by
  have hregion := hin.frame
  rw [hframe] at hregion
  exact (Option.some.inj hregion).symm

/-- A table is made at its end. -/
theorem makes_table {outer : Option Nat} {seat : Nat} (ih : Drafts inside within b₁ b₂)
    (hclose : b₂.closed q name = .ok b₃) (hname : name = "table")
    (h : OpensContent b name attributes b₁)
    (hseat : b₁.styles.top =
      Tag.seat ⟨p, name, attributes, .content, outer, seat, b.document.styles.size⟩)
    (hsize : b₁.document.styles.size =
      b.document.styles.size + Region.content.nodeCount name attributes)
    (hshapes : b₂.document.shapes <+: b₃.document.shapes) :
    Makes b₃.document ⟨p, name, attributes, .content, outer, seat, b.document.styles.size⟩
      inside := by
  cases h with
  | head hn => simp [hn] at hname
  | container _ _ hk => exact absurd hname (containerKind?_eq_some hk).1.2
  | orderedList hn => simp [hn] at hname
  | leaf _ hk => exact absurd hname (leafKind?_eq_some hk).1.2.1
  | inline hn => exact absurd hname hn.2.2
  | @table _ flushed hf spacing padding =>
    have htree : flushed.document.styles.size = b.document.styles.size := by
      rw [(flushes hf).kept.tree]
    obtain ⟨draft, hframe, hrun⟩ := ih.passes rfl (some b.document.styles.size)
    rw [hseat, hsize, htree] at hrun
    cases closes hframe hclose with
    | table _ ha =>
      refine ⟨spacing, padding, draft, hrun.mono hshapes, ?_⟩
      rw [((adds_make _ _ _).trans (adds_add ha)).shapes, hrun.style]
      exact List.mem_append_right _ List.mem_cons_self

/-- Inside an element of a table that is no cell the marks go on, and a row has its end. -/
theorem passes_deeper {draft : TableDraft} {depth : Nat} {tag : Tag}
    (ih : Drafts inside within b₁ b₂) (hclose : b₂.closed q name = .ok b₃)
    (hframe : b₁.frame = .table draft (depth + 1)) (hseat : b₁.styles.top = tag.seat)
    (hsize : b₁.document.styles.size = tag.node + tag.count)
    (hshapes : b₂.document.shapes <+: b₃.document.shapes) : ∃ draft',
    b₃.frame = .table draft' depth ∧ TableDraft.Run b₃.document.shapes draft
      (tag.marks inside ++ if name = "tr" then [.rowEnd] else []) draft' := by
  obtain ⟨draft₂, hframe₂, hrun⟩ := ih.passes hframe (some tag.node)
  rw [hseat, hsize] at hrun
  cases closes hframe₂ hclose with
  | inTable =>
    refine ⟨_, rfl, (hrun.mono hshapes).append ?_⟩
    split
    · exact .cons .rowEnd (.nil _)
    · exact .nil _

/-- At its end a cell comes into the draft of the table around it. -/
theorem frame_closed_cell {draft : TableDraft} {depth e columns : Nat}
    (hframe : m.frame = .table draft depth) (hlevel : Level (m.enterContainer e (.cell columns)) b₂)
    (hclose : b₂.closed q name = .ok b₃) :
    b₃.frame = .table (draft.addCell e columns) depth := by
  have hinner : b₂.frame = .container e m.container (.cell columns) :=
    hlevel.frame.eq_of_content rfl
  obtain ⟨flushed, hf, hsettle⟩ := closed_container hinner hclose
  have houter : flushed.popNode.popNode.outer = m.frame :: m.outer :=
    (flushes hf).kept.outer.trans hlevel.outer
  have hleft : flushed.popNode.popNode.leave.frame = .table draft depth := by
    rw [leave_eq houter]
    exact hframe
  obtain ⟨registered, -, rfl⟩ := settle_cell
    (b := { flushed.popNode.popNode.leave with container := m.container }) hleft hsettle
  rfl

theorem marks_element (p : Position) (name : String) (attributes : Attributes) (inside : Forest)
    (q : Position) (outer : Option Nat) (seat next : Nat) :
    (Forest.element p name attributes inside q .nil).marks outer seat next =
      .tag ⟨p, name, attributes, .table, outer, seat, next⟩ ::
        if name = "td" ∨ name = "th" then []
        else Tag.marks ⟨p, name, attributes, .table, outer, seat, next⟩ inside ++
          if name = "tr" then [.rowEnd] else [] := by
  unfold Forest.marks
  split <;> simp [Forest.marks, Tag.marks, Tag.count]

/-- An element of a table passes its marks: its own, and those inside unless it is a cell. -/
theorem passes_table {draft : TableDraft} {depth : Nat} {tag : Tag}
    (htag : tag = ⟨p, name, attributes, .table, tag.outer, tag.parent, b.document.styles.size⟩)
    (hframe : b.frame = .table draft depth)
    (hopen : b.openInTable p draft depth name attributes = .ok b₁)
    (hinside : b₁.run inside.events = .ok b₂) (ih : Drafts inside within b₁ b₂)
    (hclose : b₂.closed q name = .ok b₃) (hseat : b₁.styles.top = tag.seat)
    (hsize : b₁.document.styles.size = tag.node + tag.count)
    (hshapes₁ : b₁.document.shapes <+: b₂.document.shapes)
    (hshapes₂ : b₂.document.shapes <+: b₃.document.shapes) : ∃ draft',
    b₃.frame = .table draft' depth ∧ TableDraft.Run b₃.document.shapes draft
      ((Forest.element p name attributes inside q .nil).marks tag.outer tag.parent
        b.document.styles.size) draft' := by
  have hname : tag.name = name := by rw [htag]
  have hnode : tag.node = b.document.styles.size := by rw [htag]
  rw [marks_element, ← htag]
  by_cases hn : name = "td" ∨ name = "th"
  · obtain ⟨hrows, asked, rfl⟩ := openInTable_span hn hopen
    have hshape := b.shape_makeTag name attributes (.tableCell (draft.span asked))
    have hframe₁ : ((b.pushTag name attributes).make b.document.styles.size
        (.tableCell (draft.span asked))).frame = .table draft depth := hframe
    refine ⟨_, frame_closed_cell hframe₁ (level_run inside hinside) hclose, ?_⟩
    rw [if_pos hn]
    refine .cons (.cell ?_ hrows _ asked ?_) (.nil _)
    · rwa [Tag.IsCell, hname]
    · rw [hnode]
      exact shape_mono (hshapes₁.trans hshapes₂) hshape
  · rw [if_neg hn]
    cases opensTable hopen with
    | cell hcell => exact absurd hcell hn
    | row htr =>
      obtain ⟨draft', hframe', hrun⟩ := passes_deeper ih hclose rfl hseat hsize hshapes₂
      refine ⟨draft', hframe', .cons ?_ hrun⟩
      rw [← hnode]
      exact .row (hname.trans htr)
    | other hother =>
      obtain ⟨draft', hframe', hrun⟩ := passes_deeper ih hclose rfl hseat hsize hshapes₂
      refine ⟨draft', hframe', .cons (.other ?_ ?_) hrun⟩
      · rw [Tag.IsRow, hname]
        exact hother.2.2
      · rwa [Tag.IsCell, hname]

/-- An element does to drafts what its region says. -/
theorem drafts_element (hin : Inside region b) (hopen : b.opened p name attributes = .ok b₁)
    (hinside : b₁.run inside.events = .ok b₂) (hclose : b₂.closed q name = .ok b₃)
    (ih : ∀ {within}, Inside within b₁ → Drafts inside within b₁ b₂) :
    Drafts (.element p name attributes inside q .nil) region b b₃ := by
  cases hwithin : region.inside name with
  | none =>
    refine ⟨fun outer content hcontent => ?_, fun hframe => ?_⟩
    · simp [Forest.contents, hwithin] at hcontent
    · obtain rfl := hin.eq_table hframe
      simp [Region.inside] at hwithin
  | some within =>
    obtain ⟨_, ⟨-, hin₁, -, -⟩, -⟩ := opened_adds (p := p) hin hwithin hopen none
    have hread := ih hin₁
    have hshapes₁ := prefix_run hin₁ hinside
    have hshapes₂ := prefix_closed (inside_run hin₁ hinside) hclose
    -- The tag that comes depends on what is around it.
    have entered (outer : Option Nat) : b₁.styles.top = Tag.seat
          ⟨p, name, attributes, region, outer, b.styles.top, b.document.styles.size⟩ ∧
        b₁.document.styles.size = b.document.styles.size + region.nodeCount name attributes := by
      obtain ⟨_, hentered, -⟩ := opened_adds (p := p) hin hwithin hopen outer
      exact ⟨hentered.seat, hentered.size⟩
    refine ⟨fun outer content hcontent htable => ?_, fun {draft depth} hframe outer => ?_⟩
    · obtain ⟨hseat, hsize⟩ := entered outer
      simp only [Forest.contents, hwithin, List.append_nil] at hcontent
      rcases List.mem_cons.1 hcontent with rfl | hcontent
      · obtain ⟨hregion, hname⟩ : region = .content ∧ name = "table" := htable
        subst hregion
        cases opens_of_region hin.frame hopen with
        | content h => exact makes_table hread hclose hname h hseat hsize hshapes₂
      · rw [← hseat, ← hsize] at hcontent
        exact (hread.makes _ content hcontent htable).mono hshapes₂
    · obtain ⟨hseat, hsize⟩ := entered outer
      obtain rfl := hin.eq_table hframe
      have hcell : b.openInTable p draft depth name attributes = .ok b₁ := by
        simpa only [opened, hframe] using hopen
      let tag : Tag := ⟨p, name, attributes, .table, outer, b.styles.top, b.document.styles.size⟩
      have htag : tag = ⟨p, name, attributes, .table, tag.outer, tag.parent, _⟩ := rfl
      exact passes_table htag hframe hcell hinside hread hclose hseat hsize hshapes₁ hshapes₂

/-- Behind an element the others go on. -/
theorem Drafts.cons {rest : Forest}
    (h : Drafts (.element p name attributes inside q .nil) region b b₁) (hin : Inside region b)
    (hlevel : Level b b₁) (hsize : b₁.document.styles.size = b.document.styles.size +
      (Forest.element p name attributes inside q .nil).nodeCount region)
    (h' : Drafts rest region b₁ b') (hshapes : b₁.document.shapes <+: b'.document.shapes) :
    Drafts (.element p name attributes inside q rest) region b b' where
  makes outer content hcontent htable := by
    rw [Forest.contents_cons, ← hsize, ← hlevel.styles] at hcontent
    rcases List.mem_append.1 hcontent with hcontent | hcontent
    · rw [hlevel.styles] at hcontent
      exact (h.makes outer content hcontent htable).mono hshapes
    · exact h'.makes outer content hcontent htable
  passes {draft depth} hframe outer := by
    obtain rfl := hin.eq_table hframe
    obtain ⟨draft₁, hframe₁, hrun₁⟩ := h.passes hframe outer
    obtain ⟨draft₂, hframe₂, hrun₂⟩ := h'.passes hframe₁ outer
    rw [hlevel.styles, hsize] at hrun₂
    refine ⟨draft₂, hframe₂, ?_⟩
    rw [Forest.marks_cons]
    exact (hrun₁.mono hshapes).append hrun₂

theorem drafts_run : ∀ (f : Forest) {region : Region} {b b' : Builder}, Inside region b →
    b.run f.events = .ok b' → Drafts f region b b'
  | .nil, region, b, b', _, h => by
    obtain rfl := Except.ok.inj h
    exact ⟨fun _ _ hcontent => absurd hcontent List.not_mem_nil,
      fun hframe _ => ⟨_, hframe, .nil _⟩⟩
  | .text p s rest, region, b, b', hin, h => by
    obtain ⟨b₁, htext, hrest⟩ := run_text h
    have hin₁ := hin.textRead htext
    obtain rfl := textRead_of_region hin.frame htext
    obtain ⟨hmakes, hpasses⟩ := drafts_run rest hin₁ hrest
    exact ⟨hmakes, hpasses⟩
  | .element p name attributes inside q rest, region, b, b', hin, h => by
    obtain ⟨b₁, b₂, b₃, hopen, hinside, hclose, hrest⟩ := run_element h
    have hsingle := run_single hopen hinside hclose
    have hfirst := drafts_element hin hopen hinside hclose fun hin₁ =>
      drafts_run inside hin₁ hinside
    have hin₃ := inside_run hin hsingle
    exact hfirst.cons hin (level_run _ hsingle) (size_run hin hsingle) (drafts_run rest hin₃ hrest)
      (prefix_run hin₃ hrest)

end Builder

/-! ### Whole documents -/

/-- Tables are made by the tags of tables only. -/
theorem Tag.isTable_of_kindName? {t : Tag} (h : t.kindName? = some "table") : t.IsTable := by
  unfold kindName? at h
  cases hregion : t.region with
  | root => simp [hregion] at h
  | list => simp [hregion] at h
  | table => simp [hregion] at h
  | content =>
    refine ⟨hregion, ?_⟩
    by_contra hn
    simp only [hregion, if_neg hn, ite_eq_iff] at h
    obtain ⟨-, h⟩ | ⟨-, h⟩ := h
    · simp at h
    · obtain ⟨kind, hkind, hname⟩ := Option.map_eq_some_iff.1 h
      rcases Option.or_eq_some_iff.1 hkind with hk | ⟨-, hk⟩
      · have hchildren := (Builder.containerKind?_eq_some hk).2
        cases kind <;> simp [ElementKind.name, ElementKind.hasChildren] at hname hchildren
      · unfold Builder.leafKind? at hk
        split at hk
        · simp [← Option.some.inj hk, ElementKind.name] at hname
        · simp [← Option.some.inj hk, ElementKind.name] at hname
        · simp [← Option.some.inj hk, ElementKind.name] at hname
        · cases hk

namespace Document

variable {number : Nat} {registry : Registry} {source : String} {d : Document} {f : Forest}

/-- The tags that have nodes in a document of a forest, with what is inside. -/
def contentsOf (f : Forest) : List (Tag × Forest) := f.root.contents .root none 0 1

theorem exists_tag_of_table (h : ofString number registry source = .ok d)
    (hf : (EventStream.ofString source).items = f.events) {e : Element} {t : Table}
    (he : e ∈ d.elements.toList) (hkind : e.kind = .table t) :
    ∃ tag ∈ tagsOf f, tag.IsTable ∧ tag.node = e.style := by
  have hpart : ("table", e.style) ∈ partShapes d.shapes :=
    List.mem_filterMap.2 ⟨(.table t, e.style), List.mem_map.2 ⟨e, he, by rw [hkind]⟩, rfl⟩
  obtain ⟨tag, htag, hmade⟩ := List.mem_flatMap.1 ((laid_out h hf).2.2.subset hpart)
  obtain ⟨name, hname, heq⟩ : ∃ name, tag.kindName? = some name ∧
      (name, tag.node) = ("table", e.style) := by
    simpa [Tag.made] using hmade
  obtain ⟨rfl, hnode⟩ := Prod.mk.inj heq
  exact ⟨tag, htag, Tag.isTable_of_kindName? hname, hnode⟩

theorem makes_of_ofString (h : ofString number registry source = .ok d)
    (hf : (EventStream.ofString source).items = f.events) : ∀ content ∈ contentsOf f,
      content.1.IsTable → Builder.Makes d content.1 content.2 := by
  obtain ⟨b, hrun, -, hframe, rfl⟩ := exists_of_ofString h
  rw [hf] at hrun
  obtain ⟨b₁, hroot, hdocument⟩ := Builder.run_root f hrun hframe
  rw [hdocument]
  exact (Builder.drafts_run f.root (Builder.inside_inRoot number registry) hroot).makes none

/-- Every table is laid out as its tags say: with a row for each tag of a row, in which
the cells stand that follow the tag up to the next row, each as far to the right as those
before it cover columns. -/
theorem tables_laid_out (h : ofString number registry source = .ok d) :
    (∃ f : Forest, (EventStream.ofString source).items = f.events) ∧
    ∀ f : Forest, (EventStream.ofString source).items = f.events →
      ∀ i e t, d.element? i = some e → e.kind = .table t → ∃ tag inside,
        (tag, inside) ∈ contentsOf f ∧ tag.IsTable ∧ tag.node = e.style ∧
          (tag.grid inside).Sublist (tagsOf f) ∧ t.LaidOut d tag inside := by
  refine ⟨?_, fun f hf i e t he hkind => ?_⟩
  · obtain ⟨_, -, hend, -⟩ := exists_of_ofString h
    exact EventStream.exists_forest hend
  have hsized := sized_of_ofString h hf
  have hmem : e ∈ d.elements.toList := Array.mem_toList_iff.2 (Array.mem_of_getElem? he)
  obtain ⟨tag, htag, htable, hnode⟩ := exists_tag_of_table h hf hmem hkind
  rw [tagsOf, ← f.root.fst_contents] at htag
  obtain ⟨⟨tag, inside⟩, hcontent, rfl⟩ := List.mem_map.1 htag
  obtain ⟨spacing, padding, draft, hrun, hmade⟩ := makes_of_ofString h hf _ hcontent htable
  -- No other element is a table or cell of this node.
  obtain rfl : t = draft.table := by
    obtain ⟨j, hj⟩ := List.mem_iff_getElem?.1 hmade
    obtain ⟨e', he', hkind', hnode'⟩ := getElem?_shapes_eq_some.1 hj
    have hcolumns : e.kind.columns? = some t.columns := by rw [hkind]; rfl
    have hcolumns' : e'.kind.columns? = some draft.table.columns := by rw [hkind']; rfl
    obtain rfl := cell_unique hsized he he' hcolumns hcolumns' (hnode.symm.trans hnode'.symm)
    obtain rfl := Option.some.inj (he.symm.trans he')
    exact ElementKind.table.inj (hkind.symm.trans hkind')
  refine ⟨tag, inside, hcontent, htable, hnode, ?_, hrun.laidOut hsized⟩
  obtain ⟨within, hwithin, hsub⟩ := f.root.sublist_contents hcontent
  obtain ⟨hregion, hname⟩ : tag.region = .content ∧ tag.name = "table" := htable
  obtain rfl : Region.table = within := by
    simpa [Region.inside, hregion, hname] using hwithin
  exact (inside.sublist_marks _ _ _).trans ((List.sublist_cons_self _ _).trans hsub)

theorem ofString_spans : EventStream.ofString
      "<html><body><table><tr><td colspan='2'/><th/></tr><tr><td/></tr></table></body></html>" =
    ⟨[(⟨1, 1⟩, .opened "html" []), (⟨1, 7⟩, .opened "body" []), (⟨1, 13⟩, .opened "table" []),
      (⟨1, 20⟩, .opened "tr" []), (⟨1, 24⟩, .opened "td" [("colspan", "2")]),
      (⟨1, 24⟩, .closed "td"), (⟨1, 41⟩, .opened "th" []), (⟨1, 41⟩, .closed "th"),
      (⟨1, 46⟩, .closed "tr"), (⟨1, 51⟩, .opened "tr" []), (⟨1, 55⟩, .opened "td" []),
      (⟨1, 55⟩, .closed "td"), (⟨1, 60⟩, .closed "tr"), (⟨1, 65⟩, .closed "table"),
      (⟨1, 73⟩, .closed "body"), (⟨1, 80⟩, .closed "html")], none⟩ := by
  decide +kernel

/-- The first row says that there are three columns; the second one is filled up. -/
theorem tables_laid_out_spans : ∃ d f e t tag inside, ofString 0 .standard
      "<html><body><table><tr><td colspan='2'/><th/></tr><tr><td/></tr></table></body></html>" =
        .ok d ∧
    (EventStream.ofString
      "<html><body><table><tr><td colspan='2'/><th/></tr><tr><td/></tr></table></body></html>"
        ).items = f.events ∧
    d.element? 4 = some e ∧ e.kind = .table t ∧
    t.slots = [some 1, none, some 2, some 3, none, none] ∧ t.rowStyle? 1 = some 9 ∧
    (tag, inside) ∈ contentsOf f ∧ inside.Neat false ∧ t.LaidOut d tag inside := by
  obtain ⟨d, e, t, hd, he, hkind, hslots, hstyle⟩ : ∃ d e t, ofString 0 .standard
      "<html><body><table><tr><td colspan='2'/><th/></tr><tr><td/></tr></table></body></html>" =
        .ok d ∧ d.element? 4 = some e ∧ e.kind = .table t ∧
      t.slots = [some 1, none, some 2, some 3, none, none] ∧ t.rowStyle? 1 = some 9 :=
    ⟨_, _, _, (congrArg (ofEvents 0 .standard) ofString_spans).trans rfl, rfl, rfl, rfl, rfl⟩
  let second : Forest :=
    .element ⟨1, 51⟩ "tr" [] (.element ⟨1, 55⟩ "td" [] .nil ⟨1, 55⟩ .nil) ⟨1, 60⟩ .nil
  let first : Forest := .element ⟨1, 24⟩ "td" [("colspan", "2")] .nil ⟨1, 24⟩
    (.element ⟨1, 41⟩ "th" [] .nil ⟨1, 41⟩ .nil)
  let rows : Forest := .element ⟨1, 20⟩ "tr" [] first ⟨1, 46⟩ second
  let body : Forest :=
    .element ⟨1, 7⟩ "body" [] (.element ⟨1, 13⟩ "table" [] rows ⟨1, 65⟩ .nil) ⟨1, 73⟩ .nil
  have hf : (EventStream.ofString
      "<html><body><table><tr><td colspan='2'/><th/></tr><tr><td/></tr></table></body></html>"
        ).items = (Forest.element ⟨1, 1⟩ "html" [] body ⟨1, 80⟩ .nil).events := by
    rw [ofString_spans]
    rfl
  obtain ⟨tag, inside, hcontent, htable, -, -, hlaid⟩ := (tables_laid_out hd).2 _ hf 4 e t he hkind
  have hneat : inside.Neat false := by
    have hall : ∀ content ∈ contentsOf (.element ⟨1, 1⟩ "html" [] body ⟨1, 80⟩ .nil),
        content.1.IsTable → content.2.Neat false := by
      simp [contentsOf, Forest.root, body, rows, first, second, Forest.contents, Region.inside,
        Tag.IsTable, Forest.Neat]
    exact hall _ hcontent htable
  exact ⟨d, _, e, t, tag, inside, hd, hf, he, hkind, hslots, hstyle, hcontent, hneat, hlaid⟩

end Document

end RichText
