/-
# What a traversal visits

Every document is a forest of its elements, but for the cells that its tables have lost
(`Document.once_of_run`). So a traversal visits no element twice, and all of them
but those inside of cells that are lost (`Document.traverse_covers`).

Key definitions: `Document.tablesOf`, `Document.HasTable`.
Key theorems: `Document.once_of_run`, `Document.written_tables`,
`Document.traverse_covers`.
-/
import RichText.Proofs.Attachment

namespace RichText

open Markup Text

/-- Each tag makes one element at most, and this has the tag's node. -/
theorem sublist_made : ∀ tags : List Tag,
    ((tags.flatMap Tag.made).map (·.2)).Sublist (tags.map Tag.node)
  | [] => List.Sublist.slnil
  | tag :: tags => by
    rw [List.flatMap_cons, List.map_append, List.map_cons]
    have hone : (tag.made.map (·.2)).Sublist [tag.node] := by
      unfold Tag.made
      cases tag.kindName? with
      | none => exact List.nil_sublist _
      | some name => exact List.Sublist.refl _
    exact hone.append (sublist_made tags)

namespace Document

variable {number : Nat} {registry : Registry} {source : String} {d : Document} {f : Forest}

/-- The tables in the markup of a document. -/
def tablesOf (f : Forest) : List WrittenTable := f.root.tables .root 1

/-- Cells and tables are elements of tags. -/
theorem sublist_partShapes : ∀ elements : List Element,
    ((elements.filter fun e => e.kind.columns?.isSome).map Element.style).Sublist
      ((partShapes (elements.map fun e => (e.kind, e.style))).map (·.2))
  | [] => List.Sublist.slnil
  | ⟨style, kind, children⟩ :: elements => by
    have hmore := sublist_partShapes elements
    cases kind with
    | text => exact hmore
    | tableCell | table => exact hmore.cons_cons style
    | _ => exact hmore.cons style

/-- Cells and tables have the nodes of their tags. -/
theorem sized_of_ofString (h : ofString number registry source = .ok d)
    (hf : (EventStream.ofString source).items = f.events) : d.Sized := by
  have hparts := (laid_out h hf).2.2
  have hnodup : ((partShapes d.shapes).map (·.2)).Nodup := by
    refine (hparts.map _).nodup_iff.2 ((sublist_made _).nodup ?_)
    exact (f.root.numbered_tags .root none 0 1).nodup
  have hsized := (sublist_partShapes d.elements.toList).nodup hnodup
  rwa [List.Nodup, List.pairwise_map, List.pairwise_filter] at hsized

/-- Every element is held once, but for the cells that are lost; parts have later
nodes. -/
theorem once_of_run {b : Builder} (hrun : (Builder.start number registry).run f.events = .ok b)
    (hframe : b.frame = .epilog) : b.document.Rises ∧
      ∃ drafts : List TableDraft, List.Forall₂ (Laid b.document.shapes) drafts (tablesOf f) ∧
        b.document.Once (drafts.flatMap TableDraft.cut) := by
  obtain ⟨b₁, hroot, hdocument⟩ := Builder.run_root f hrun hframe
  have hgains := (Builder.attaches_run f.root (Builder.inside_inRoot number registry)
    ⟨nofun, nofun⟩ hroot).gains
  have hlevel := Builder.level_run f.root hroot
  have hframe₁ : b₁.frame = .root := hlevel.frame.cases
  rw [hframe₁, ← hdocument] at hgains
  obtain ⟨drafts, hlaid, hbooks⟩ := hgains.books
  refine ⟨hgains.rises ⟨fun i e he => ?_, fun i part hpart => ?_⟩, drafts, hlaid, ?_⟩
  · exact absurd (lt_size he) (Nat.not_lt_zero i)
  · exact absurd (lt_size_of_mem_partsOf hpart) (Nat.not_lt_zero i)
  · refine List.perm_iff_count.2 fun i => ?_
    -- There was nothing before.
    have hcount : b.document.held.count i + 0 + (drafts.flatMap TableDraft.cut).count i =
        0 + 0 + if 0 ≤ i ∧ i < b.document.size then 1 else 0 := hbooks i
    rw [List.count_append]
    by_cases hi : i < b.document.size
    · rw [if_pos ⟨Nat.zero_le i, hi⟩] at hcount
      rw [List.count_eq_one_of_mem List.nodup_range (List.mem_range.2 hi)]
      omega
    · rw [if_neg fun hlt => hi hlt.2] at hcount
      rw [List.count_eq_zero_of_not_mem fun hmem => hi (List.mem_range.1 hmem)]
      omega

theorem once_of_ofString (h : ofString number registry source = .ok d)
    (hf : (EventStream.ofString source).items = f.events) : d.Rises ∧
      ∃ drafts : List TableDraft, List.Forall₂ (Laid d.shapes) drafts (tablesOf f) ∧
        d.Once (drafts.flatMap TableDraft.cut) := by
  obtain ⟨b, hrun, -, hframe, rfl⟩ := exists_of_ofString h
  rw [hf] at hrun
  exact once_of_run hrun hframe

/-- A table that is written is in a document, with a row for each that is written, and so are
the cells in these rows. -/
structure HasTable (d : Document) (t : WrittenTable) : Prop where
  table : ∃ i e table, d.element? i = some e ∧ e.kind = .table table ∧ e.style = t.node ∧
    table.columns = d.columnsAt t.node ∧ table.rows.length = t.rows.length
  cells : ∀ row ∈ t.rows, ∀ node ∈ row, ∃ c e columns, d.element? c = some e ∧
    e.kind = .tableCell columns ∧ e.style = node ∧ columns = d.columnsAt node

/-- The tables of the markup are in the document. -/
theorem written_tables (h : ofString number registry source = .ok d)
    (hf : (EventStream.ofString source).items = f.events) : ∀ t ∈ tablesOf f, d.HasTable t := by
  obtain ⟨-, drafts, hlaid, -⟩ := once_of_ofString h hf
  have hsized := sized_of_ofString h hf
  intro t ht
  obtain ⟨draft, -, ht⟩ := exists_of_mem_right hlaid ht
  constructor
  · obtain ⟨e, he, heq⟩ := List.mem_map.1 ht.made
    obtain ⟨hkind, hstyle⟩ := Prod.mk.inj heq
    obtain ⟨i, hi⟩ := List.mem_iff_getElem?.1 he
    refine ⟨i, e, draft.table, by simpa [element?] using hi, hkind, hstyle.trans ht.node,
      (ht.columnsAt_eq hsized).symm, ?_⟩
    simpa [TableDraft.table] using ht.rows.length_eq
  · intro row hrow node hnode
    obtain ⟨slots, -, hfills⟩ := exists_of_mem_right ht.rows hrow
    obtain ⟨c, n, hc⟩ := hfills.exists_cell hnode
    have hcolumns := (singles hsized).columns c n node hc
    obtain ⟨e, he, hkind, hstyle⟩ := getElem?_shapes_eq_some.1 hc
    exact ⟨c, e, n, he, hkind, hstyle, hcolumns.symm⟩

/-- A traversal visits no element twice, roots at depth 0 and every other element one
deeper than what holds it. What it does not visit is what is inside of cells that begin
behind the last column of their table; each table that is written is in the document. -/
theorem traverse_covers (h : ofString number registry source = .ok d) :
    (∃ f : Forest, (EventStream.ofString source).items = f.events) ∧
    ∀ f : Forest, (EventStream.ofString source).items = f.events →
      (d.traverse.map (·.1)).Nodup ∧
      (∀ i depth, (i, depth) ∈ d.traverse → (i ∈ d.roots → depth = 0) ∧
        (∀ p, i ∈ d.partsOf p → ∃ above, (p, above) ∈ d.traverse ∧ depth = above + 1) ∧
          (i ∈ d.roots ∨ ∃ p, i ∈ d.partsOf p)) ∧
      (∀ p depth, (p, depth) ∈ d.traverse → ∀ i ∈ d.partsOf p, (i, depth + 1) ∈ d.traverse) ∧
      (∀ i, i ∈ d.traverse.map (·.1) ↔ i < d.size ∧
        ¬∃ c, (∃ t ∈ tablesOf f, t.Loses d c) ∧ i ∈ (d.subtree c).map (·.1)) ∧
      ((∀ t ∈ tablesOf f, ∀ row ∈ t.rows,
        (row.map d.columnsAt).sum ≤ d.columnsAt t.node) →
          (d.traverse.map (·.1)).Perm (List.range d.size)) ∧
      ∀ t ∈ tablesOf f, d.HasTable t := by
  refine ⟨?_, fun f hf => ?_⟩
  · obtain ⟨_, -, hend, -⟩ := exists_of_ofString h
    exact EventStream.exists_forest hend
  obtain ⟨hrises, drafts, hlaid, honce⟩ := once_of_ofString h hf
  have hsized := sized_of_ofString h hf
  have hlost (c : Nat) : c ∈ drafts.flatMap TableDraft.cut ↔ ∃ t ∈ tablesOf f, t.Loses d c := by
    rw [List.mem_flatMap]
    exact exists_mem_congr hlaid fun draft t ht => ht.mem_cut hsized c
  refine ⟨honce.nodup_traverse hrises, fun i depth => honce.depth_traverse,
    fun p depth hp i => honce.parts_traverse hrises hp, fun i => ?_, fun hfits => ?_,
    written_tables h hf⟩
  · rw [honce.mem_traverse hrises]
    simp only [hlost, not_exists, not_and]
  · have hexceeds := exists_mem_congr hlaid fun draft t ht => ht.exceeds_iff hsized
    have hnone : drafts.flatMap TableDraft.cut = [] := by
      refine List.flatMap_eq_nil_iff.2 fun draft hdraft => TableDraft.cut_eq_nil fun hlong => ?_
      obtain ⟨t, ht, row, hrow, hlt⟩ := hexceeds.1 ⟨draft, hdraft, hlong⟩
      exact Nat.not_lt.2 (hfits t ht row hrow) hlt
    have hperm := honce.perm_traverse hrises
    rwa [hnone, reachAll, List.flatMap_nil, List.append_nil] at hperm

theorem ofString_cells : EventStream.ofString
      "<html><body><table><tr><td>a</td></tr><tr><td>b</td><td>c</td></tr></table></body></html>" =
    ⟨[(⟨1, 1⟩, .opened "html" []), (⟨1, 7⟩, .opened "body" []), (⟨1, 13⟩, .opened "table" []),
      (⟨1, 20⟩, .opened "tr" []), (⟨1, 24⟩, .opened "td" []), (⟨1, 28⟩, .text "a"),
      (⟨1, 29⟩, .closed "td"), (⟨1, 34⟩, .closed "tr"), (⟨1, 39⟩, .opened "tr" []),
      (⟨1, 43⟩, .opened "td" []), (⟨1, 47⟩, .text "b"), (⟨1, 48⟩, .closed "td"),
      (⟨1, 53⟩, .opened "td" []), (⟨1, 57⟩, .text "c"), (⟨1, 58⟩, .closed "td"),
      (⟨1, 63⟩, .closed "tr"), (⟨1, 68⟩, .closed "table"), (⟨1, 76⟩, .closed "body"),
      (⟨1, 83⟩, .closed "html")], none⟩ := by
  decide +kernel

/-- The first row says that there is one column, so the cell of the last text is lost. -/
theorem traverse_covers_cells : ∃ d f, ofString 0 .standard
      "<html><body><table><tr><td>a</td></tr><tr><td>b</td><td>c</td></tr></table></body></html>" =
        .ok d ∧
    (EventStream.ofString
      "<html><body><table><tr><td>a</td></tr><tr><td>b</td><td>c</td></tr></table></body></html>"
        ).items = f.events ∧
    d.traverse = [(0, 0), (7, 1), (1, 2), (2, 3), (3, 2), (4, 3)] ∧
    ∃ c, (∃ t ∈ tablesOf f, t.Loses d c) ∧ 6 ∈ (d.subtree c).map (·.1) := by
  obtain ⟨d, hd, hsize, hvisited⟩ : ∃ d, ofString 0 .standard
      "<html><body><table><tr><td>a</td></tr><tr><td>b</td><td>c</td></tr></table></body></html>" =
        .ok d ∧
      d.size = 8 ∧ d.traverse = [(0, 0), (7, 1), (1, 2), (2, 3), (3, 2), (4, 3)] :=
    ⟨_, (congrArg (ofEvents 0 .standard) ofString_cells).trans rfl, rfl, rfl⟩
  obtain ⟨⟨f, hf⟩, hall⟩ := traverse_covers hd
  refine ⟨d, f, hd, hf, hvisited, ?_⟩
  by_contra hnone
  have hmem := ((hall f hf).2.2.2.1 6).2 ⟨hsize ▸ (by decide), hnone⟩
  rw [hvisited] at hmem
  simp at hmem

end Document

end RichText
