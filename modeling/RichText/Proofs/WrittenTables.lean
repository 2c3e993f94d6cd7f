/-
# Tables as they are written

The markup says which rows a table has and which cells stand in each of them
(`Forest.rows`, `Forest.tables`). While a table is read, its cells fill the slots of a
row, each as many as it covers columns (`Fills`). At the end every row is cut to the
number of columns. The column of a cell is the sum of what the cells before it in its row
cover (`Fills.getElem?_slots`), and it is lost exactly if this is not below that number
(`Fills.mem_cut`).

Key definitions: `WrittenTable`, `Forest.rows`, `Forest.tables`, `TableDraft.cells`,
`TableDraft.cut`, `Fills`, `Laid`, `WrittenTable.Loses`.
Key theorems: `TableDraft.perm_cells`, `Fills.getElem?_slots`, `Fills.mem_cut`,
`Laid.mem_cut`.
-/
import RichText.Proofs.Additions

namespace RichText

open Markup Text

/-! ### The rows of a draft -/

namespace Row

/-- The cells that begin in a row. -/
def cells (row : Row) : List Nat := row.slots.filterMap id

/-- The cells that are lost if the row has no more than `width` slots. -/
def cut (width : Nat) (row : Row) : List Nat := (row.slots.drop width).filterMap id

theorem cells_fit (width : Nat) (row : Row) :
    (row.fit width).cells ++ row.cut width = row.cells := by
  have hfit : (row.fit width).cells = (row.slots.take width).filterMap id := by
    simp [cells, fit]
  rw [hfit, cut, ← List.filterMap_append, List.take_append_drop]
  rfl

end Row

namespace TableDraft

/-- The cells of all rows. -/
def cells (t : TableDraft) : List Nat := t.rows.flatMap Row.cells

/-- The cells that the whole table does not have. -/
def cut (t : TableDraft) : List Nat := t.rows.flatMap (Row.cut t.width)

/-- A cell gets into the table or is lost. -/
theorem perm_cells (t : TableDraft) : (t.table.cells ++ t.cut).Perm t.cells := by
  have htable : t.table.cells = (t.rows.reverse.map (Row.fit t.width)).flatMap Row.cells := by
    simp only [Table.cells, Table.slots, table, List.filterMap_flatMap, List.flatMap_map]
    rfl
  have hcells : t.cells = t.rows.flatMap fun row => (row.fit t.width).cells ++ row.cut t.width := by
    simp only [cells, Row.cells_fit]
  rw [htable, hcells, List.flatMap_map]
  refine List.Perm.trans ?_ (List.flatMap_append_perm _ _ _)
  exact (t.rows.reverse_perm.flatMap_right _).append_right _

/-- Nothing is lost if no row is too long. -/
theorem cut_eq_nil {t : TableDraft} (h : ¬∃ row ∈ t.rows, t.width < row.slots.length) :
    t.cut = [] := by
  refine List.flatMap_eq_nil_iff.2 fun row hrow => ?_
  have hle : row.slots.length ≤ t.width := Nat.le_of_not_lt fun hlt => h ⟨row, hrow, hlt⟩
  rw [Row.cut, List.drop_eq_nil_of_le hle]
  rfl

theorem cells_addCell {t : TableDraft} (h : t.rows ≠ []) (cell columns : Nat) :
    (t.addCell cell columns).cells.Perm (cell :: t.cells) := by
  obtain ⟨row, rows, hrows⟩ := List.exists_cons_of_ne_nil h
  have hnew : (t.addCell cell columns).cells =
      (row.cells ++ [cell]) ++ rows.flatMap Row.cells := by
    simp [addCell, hrows, cells, Row.cells]
  rw [hnew, cells, hrows, List.flatMap_cons, List.append_assoc]
  exact List.perm_middle

theorem cells_endRow (t : TableDraft) : t.endRow.cells = t.cells := by
  unfold endRow
  split <;> rfl

theorem rows_endRow (t : TableDraft) : t.endRow.rows = t.rows := by
  unfold endRow
  split <;> rfl

end TableDraft

/-! ### Rows and tables in the markup -/

/-- A table of the markup. -/
structure WrittenTable where
  /-- The node of its tag. -/
  node : Nat
  /-- The nodes of the cells in each row. The last row is the first one here. -/
  rows : List (List Nat)

namespace Forest

/-- The rows of a table behind a forest in it, where `rows` stand before and `next` is the
first free number. A row begins at its tag; a cell belongs to the row that began last. -/
def rows : Forest → (next : Nat) → (rows : List (List Nat)) → List (List Nat)
  | nil, _, written => written
  | text _ _ rest, next, written => rest.rows next written
  | element _ name attributes inside _ rest, next, written =>
    let first := next + Region.table.nodeCount name attributes
    if name = "td" ∨ name = "th" then
      rest.rows (first + inside.nodeCount .content) (written.modifyHead (· ++ [next]))
    else
      rest.rows (first + inside.nodeCount .table)
        (inside.rows first (if name = "tr" then [] :: written else written))

/-- The rows behind the first element are those that the others go on with. -/
theorem rows_cons (p : Position) (name : String) (attributes : Attributes) (inside : Forest)
    (q : Position) (rest : Forest) (next : Nat) (written : List (List Nat)) :
    (element p name attributes inside q rest).rows next written =
      rest.rows (next + (element p name attributes inside q nil).nodeCount .table)
        ((element p name attributes inside q nil).rows next written) := by
  by_cases hn : name = "td" ∨ name = "th"
  · simp [rows, nodeCount, Region.inside, hn, Nat.add_assoc]
  · simp [rows, nodeCount, Region.inside, hn, Nat.add_assoc]

/-- The tables in a forest that stands in a region. The numbers are those of
`Forest.tags`. -/
def tables : Forest → Region → (next : Nat) → List WrittenTable
  | nil, _, _ => []
  | text _ _ rest, region, next => rest.tables region next
  | element _ name attributes inside _ rest, region, next =>
    match region.inside name with
    | none => rest.tables region next
    | some within =>
      let first := next + region.nodeCount name attributes
      let own := if region = .content ∧ name = "table" then [⟨next, inside.rows first []⟩] else []
      inside.tables within first ++ own ++ rest.tables region (first + inside.nodeCount within)

theorem tables_cons (p : Position) (name : String) (attributes : Attributes) (inside : Forest)
    (q : Position) (rest : Forest) (region : Region) (next : Nat) :
    (element p name attributes inside q rest).tables region next =
      (element p name attributes inside q nil).tables region next ++
        rest.tables region (next + (element p name attributes inside q nil).nodeCount region) := by
  cases hwithin : region.inside name with
  | none => simp [tables, nodeCount, hwithin]
  | some within => simp [tables, nodeCount, hwithin, Nat.add_assoc]

end Forest

/-! ### Cells and slots -/

/-- Elements stay what they are when more are made. -/
theorem shape_mono {shapes shapes' : List (ElementKind × Nat)} (h : shapes <+: shapes') {i : Nat}
    {shape : ElementKind × Nat} (hi : shapes[i]? = some shape) : shapes'[i]? = some shape := by
  rw [List.prefix_iff_getElem?] at h
  obtain ⟨hlt, rfl⟩ := List.getElem?_eq_some_iff.1 hi
  exact h i hlt

/-- The slots are those that cells with the given nodes fill. -/
inductive Fills (shapes : List (ElementKind × Nat)) : List (Option Nat) → List Nat → Prop
  | nil : Fills shapes [] []
  | cell {c n node : Nat} {slots : List (Option Nat)} {nodes : List Nat}
    (hc : shapes[c]? = some (.tableCell n, node)) (hn : 0 < n) (more : Fills shapes slots nodes) :
    Fills shapes (some c :: (List.replicate (n - 1) none ++ slots)) (node :: nodes)

/-- No two cells have one node, and `columns` says how many columns the cell of a node
covers. -/
structure Singles (shapes : List (ElementKind × Nat)) (columns : Nat → Nat) : Prop where
  columns : ∀ c n node : Nat, shapes[c]? = some (.tableCell n, node) → columns node = n
  unique : ∀ c c' n n' node : Nat, shapes[c]? = some (.tableCell n, node) →
    shapes[c']? = some (.tableCell n', node) → c = c'

namespace Fills

variable {shapes shapes' : List (ElementKind × Nat)} {slots slots' : List (Option Nat)}
  {nodes nodes' : List Nat}

theorem mono (h : Fills shapes slots nodes) (hshapes : shapes <+: shapes') :
    Fills shapes' slots nodes := by
  induction h with
  | nil => exact .nil
  | cell hc hn _ ih => exact .cell (shape_mono hshapes hc) hn ih

theorem append (h : Fills shapes slots nodes) (h' : Fills shapes slots' nodes') :
    Fills shapes (slots ++ slots') (nodes ++ nodes') := by
  induction h with
  | nil => exact h'
  | cell hc hn _ ih =>
    rw [List.cons_append, List.append_assoc]
    exact .cell hc hn ih

theorem exists_cell (h : Fills shapes slots nodes) {node : Nat} (hnode : node ∈ nodes) :
    ∃ c n : Nat, shapes[c]? = some (.tableCell n, node) := by
  induction h with
  | nil => cases hnode
  | cell hc _ _ ih =>
    rcases List.mem_cons.1 hnode with rfl | hnode
    · exact ⟨_, _, hc⟩
    · exact ih hnode

theorem length_eq_zero (h : Fills shapes slots nodes) : slots.length = 0 ↔ nodes = [] := by
  cases h <;> simp

/-- A row has as many slots as its cells cover columns. -/
theorem length_slots {columns : Nat → Nat} (hsingles : Singles shapes columns)
    (h : Fills shapes slots nodes) : slots.length = (nodes.map columns).sum := by
  induction h with
  | nil => rfl
  | cell hc hn _ ih =>
    rw [List.map_cons, List.sum_cons, hsingles.columns _ _ _ hc, ← ih]
    simp only [List.length_cons, List.length_append, List.length_replicate]
    omega

/-- The slot of a cell is as far behind the first one as the cells before it cover columns. -/
theorem getElem?_slots {columns : Nat → Nat} (hsingles : Singles shapes columns)
    (h : Fills shapes slots nodes) (x : Nat) : ∀ c : Nat,
    slots[c]? = some (some x) ↔ ∃ n before node after, shapes[x]? = some (.tableCell n, node) ∧
      nodes = before ++ node :: after ∧ c = (before.map columns).sum := by
  induction h with
  | nil => simp
  | @cell i n node slots nodes hi hn more ih =>
    have hcolumns := hsingles.columns i n node hi
    intro c
    -- The slot is that of the first cell, one that this cell covers too, or behind it.
    have hslot : (some i :: (List.replicate (n - 1) none ++ slots))[c]? = some (some x) ↔
        (c = 0 ∧ x = i) ∨ (n ≤ c ∧ slots[c - n]? = some (some x)) := by
      cases c with
      | zero => simp [eq_comm]; omega
      | succ c =>
        rw [List.getElem?_cons_succ]
        by_cases hc : c < n - 1
        · rw [List.getElem?_append_left (by simpa using hc)]
          simp only [List.getElem?_replicate, if_pos hc]
          simp; omega
        · rw [List.getElem?_append_right (by simpa using hc), List.length_replicate,
            show c - (n - 1) = c + 1 - n by omega]
          simp; omega
    rw [hslot]
    constructor
    · rintro (⟨rfl, rfl⟩ | ⟨hc, hx⟩)
      · exact ⟨n, [], node, nodes, hi, rfl, rfl⟩
      · obtain ⟨k, before, other, after, hk, rfl, hsum⟩ := (ih _).1 hx
        refine ⟨k, node :: before, other, after, hk, rfl, ?_⟩
        rw [List.map_cons, List.sum_cons, hcolumns]
        omega
    · rintro ⟨k, before, other, after, hk, hsplit, hsum⟩
      cases before with
      | nil =>
        obtain ⟨rfl, -⟩ := List.cons.inj hsplit
        exact .inl ⟨hsum, hsingles.unique x i k n node hk hi⟩
      | cons first before =>
        obtain ⟨rfl, rfl⟩ := List.cons.inj hsplit
        rw [List.map_cons, List.sum_cons, hcolumns] at hsum
        exact .inr ⟨by omega, (ih _).2 ⟨k, before, other, after, hk, rfl, by omega⟩⟩

/-- A cell begins behind the first `width` slots if the cells before it cover as many. -/
theorem mem_cut {columns : Nat → Nat} (hsingles : Singles shapes columns)
    (h : Fills shapes slots nodes) (i width : Nat) :
    i ∈ (slots.drop width).filterMap id ↔ ∃ n before node after,
      shapes[i]? = some (.tableCell n, node) ∧ nodes = before ++ node :: after ∧
        width ≤ (before.map columns).sum := by
  have hdrop : i ∈ (slots.drop width).filterMap id ↔
      ∃ c, slots[width + c]? = some (some i) := by
    rw [List.mem_filterMap]
    simp only [id_eq, exists_eq_right, List.mem_iff_getElem?, List.getElem?_drop]
  rw [hdrop]
  simp only [h.getElem?_slots hsingles]
  constructor
  · rintro ⟨c, n, before, node, after, hi, hsplit, hsum⟩
    exact ⟨n, before, node, after, hi, hsplit, by omega⟩
  · rintro ⟨n, before, node, after, hi, hsplit, hle⟩
    exact ⟨(before.map columns).sum - width, n, before, node, after, hi, hsplit, by omega⟩

end Fills

/-- A draft is that of a table in the markup, and the table has been made. -/
structure Laid (shapes : List (ElementKind × Nat)) (draft : TableDraft) (written : WrittenTable) :
    Prop where
  node : draft.style = written.node
  rows : List.Forall₂ (fun row nodes => Fills shapes row.slots nodes) draft.rows written.rows
  made : (.table draft.table, draft.style) ∈ shapes

theorem Laid.mono {shapes shapes' : List (ElementKind × Nat)} {draft : TableDraft}
    {written : WrittenTable} (h : Laid shapes draft written) (hshapes : shapes <+: shapes') :
    Laid shapes' draft written :=
  ⟨h.node, h.rows.imp fun _ _ hfills => hfills.mono hshapes, hshapes.subset h.made⟩

/-! ### Cells that are lost -/

/-- The number of columns that a cell covers, or that a table has. -/
def ElementKind.columns? : ElementKind → Option Nat
  | tableCell columns => some columns
  | table t => some t.columns
  | _ => none

/-- The number of columns of the cell or table of a node. -/
def Document.columnsAt (d : Document) (node : Nat) : Nat :=
  (d.elements.toList.findSome? fun e => if e.style = node then e.kind.columns? else none).getD 0

/-- The element is a cell in one of the table's rows, and the cells before it in this row
cover no fewer columns than the table has. -/
def WrittenTable.Loses (d : Document) (t : WrittenTable) (i : Nat) : Prop :=
  ∃ e n, d.element? i = some e ∧ e.kind = .tableCell n ∧ ∃ row ∈ t.rows, ∃ before after,
    row = before ++ e.style :: after ∧ d.columnsAt t.node ≤ (before.map d.columnsAt).sum

/-- The nodes of cells and tables are their own. -/
def Document.Sized (d : Document) : Prop :=
  d.elements.toList.Pairwise fun e e' =>
    e.kind.columns?.isSome → e'.kind.columns?.isSome → e.style ≠ e'.style

namespace Document

variable {d : Document}

theorem columnsAt_eq (h : d.Sized) {e : Element} {n : Nat} (he : e ∈ d.elements.toList)
    (hn : e.kind.columns? = some n) : d.columnsAt e.style = n := by
  unfold columnsAt Sized at *
  generalize d.elements.toList = elements at h he
  induction elements with
  | nil => cases he
  | cons first elements ih =>
    obtain ⟨hfirst, hrest⟩ := List.pairwise_cons.1 h
    rw [List.findSome?_cons]
    rcases List.mem_cons.1 he with rfl | he
    · simp [hn]
    · have hnone : (if first.style = e.style then first.kind.columns? else none) = none := by
        split
        · next hsame =>
          by_contra hsome
          exact hfirst e he (Option.isSome_iff_ne_none.2 hsome) (by simp [hn]) hsame
        · rfl
      rw [hnone]
      exact ih hrest he

/-- No two cells or tables have one node. -/
theorem cell_unique (h : d.Sized) {i j : Nat} {e e' : Element} {n n' : Nat}
    (hi : d.element? i = some e) (hj : d.element? j = some e') (hn : e.kind.columns? = some n)
    (hn' : e'.kind.columns? = some n') (hsame : e.style = e'.style) : i = j := by
  have apart {i j : Nat} {e e' : Element} (hlt : i < j) (hi : d.element? i = some e)
      (hj : d.element? j = some e') (hn : e.kind.columns?.isSome)
      (hn' : e'.kind.columns?.isSome) : e.style ≠ e'.style := by
    obtain ⟨hi', rfl⟩ := Array.getElem?_eq_some_iff.1 hi
    obtain ⟨hj', rfl⟩ := Array.getElem?_eq_some_iff.1 hj
    have hpair := List.pairwise_iff_getElem.1 h i j (by simpa using hi') (by simpa using hj') hlt
    simp only [Array.getElem_toList] at hpair
    exact hpair hn hn'
  rcases Nat.lt_trichotomy i j with hlt | heq | hlt
  · exact absurd hsame (apart hlt hi hj (by simp [hn]) (by simp [hn']))
  · exact heq
  · exact absurd hsame.symm (apart hlt hj hi (by simp [hn']) (by simp [hn]))

theorem singles (h : d.Sized) : Singles d.shapes d.columnsAt where
  columns c n node hc := by
    obtain ⟨e, he, hkind, rfl⟩ := getElem?_shapes_eq_some.1 hc
    have hmem : e ∈ d.elements.toList := by
      rw [Array.mem_toList_iff]
      exact Array.mem_of_getElem? he
    exact columnsAt_eq h hmem (by rw [hkind]; rfl)
  unique c c' n n' node hc hc' := by
    obtain ⟨e, he, hkind, hstyle⟩ := getElem?_shapes_eq_some.1 hc
    obtain ⟨e', he', hkind', hstyle'⟩ := getElem?_shapes_eq_some.1 hc'
    have hn : e.kind.columns? = some n := by rw [hkind]; rfl
    have hn' : e'.kind.columns? = some n' := by rw [hkind']; rfl
    exact cell_unique h he he' hn hn' (hstyle.trans hstyle'.symm)

end Document

/-- Of lists that correspond, one has an element of a kind if the other has. -/
theorem exists_mem_congr {α β : Type} {R : α → β → Prop} {P : α → Prop} {Q : β → Prop}
    {l : List α} {l' : List β} (h : List.Forall₂ R l l') (hPQ : ∀ a b, R a b → (P a ↔ Q b)) :
    (∃ a ∈ l, P a) ↔ ∃ b ∈ l', Q b := by
  induction h with
  | nil => simp
  | cons hab _ ih => simp only [List.exists_mem_cons_iff, hPQ _ _ hab, ih]

theorem exists_of_mem_right {α β : Type} {R : α → β → Prop} {l : List α} {l' : List β}
    (h : List.Forall₂ R l l') {b : β} (hb : b ∈ l') : ∃ a ∈ l, R a b := by
  induction h with
  | nil => cases hb
  | cons hab _ ih =>
    rcases List.mem_cons.1 hb with rfl | hb
    · exact ⟨_, List.mem_cons_self, hab⟩
    · obtain ⟨a, ha, hab⟩ := ih hb
      exact ⟨a, List.mem_cons_of_mem _ ha, hab⟩

/-- A table that is laid has the columns that its node says. -/
theorem Laid.columnsAt_eq {d : Document} {draft : TableDraft} {written : WrittenTable}
    (hd : d.Sized) (h : Laid d.shapes draft written) : d.columnsAt written.node = draft.width := by
  obtain ⟨e, he, heq⟩ := List.mem_map.1 h.made
  obtain ⟨hkind, hstyle⟩ := Prod.mk.inj heq
  rw [← h.node, ← hstyle]
  exact Document.columnsAt_eq hd he (by rw [hkind]; rfl)

/-- A row of a draft is too long if the cells that are written in it cover too many
columns. -/
theorem Laid.exceeds_iff {d : Document} {draft : TableDraft} {written : WrittenTable}
    (hd : d.Sized) (h : Laid d.shapes draft written) :
    (∃ row ∈ draft.rows, draft.width < row.slots.length) ↔
      ∃ row ∈ written.rows, d.columnsAt written.node < (row.map d.columnsAt).sum := by
  rw [h.columnsAt_eq hd]
  exact exists_mem_congr h.rows fun row nodes hfills => by
    rw [hfills.length_slots (Document.singles hd)]

/-- The cells that a draft does not get into its table are those that the table in the
markup loses. -/
theorem Laid.mem_cut {d : Document} {draft : TableDraft} {written : WrittenTable} (hd : d.Sized)
    (h : Laid d.shapes draft written) (i : Nat) : i ∈ draft.cut ↔ written.Loses d i := by
  have hwidth := h.columnsAt_eq hd
  have hrow {row : Row} {nodes : List Nat} (hfills : Fills d.shapes row.slots nodes) :
      i ∈ row.cut draft.width ↔ ∃ e n, d.element? i = some e ∧ e.kind = .tableCell n ∧
        ∃ before after, nodes = before ++ e.style :: after ∧
          d.columnsAt written.node ≤ (before.map d.columnsAt).sum := by
    rw [hwidth, Row.cut, hfills.mem_cut (Document.singles hd) i draft.width]
    constructor
    · rintro ⟨n, before, node, after, hi, hsplit, hsum⟩
      obtain ⟨e, he, hkind, rfl⟩ := Document.getElem?_shapes_eq_some.1 hi
      exact ⟨e, n, he, hkind, before, after, hsplit, hsum⟩
    · rintro ⟨e, n, he, hkind, before, after, hsplit, hsum⟩
      exact ⟨n, before, e.style, after,
        Document.getElem?_shapes_eq_some.2 ⟨e, he, hkind, rfl⟩, hsplit, hsum⟩
  rw [TableDraft.cut, List.mem_flatMap, exists_mem_congr h.rows fun row nodes => hrow]
  -- The table says first which cell is lost, and then in which row.
  constructor
  · rintro ⟨row, hrow, e, n, he, hkind, hlost⟩
    exact ⟨e, n, he, hkind, row, hrow, hlost⟩
  · rintro ⟨e, n, he, hkind, row, hrow, hlost⟩
    exact ⟨row, hrow, e, n, he, hkind, hlost⟩

end RichText
