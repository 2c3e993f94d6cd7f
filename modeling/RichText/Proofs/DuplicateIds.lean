/-
# Ids that clash

An element is refused if another one has been registered under its id. Two elements
have nodes with the same id either because two tags have it, or because both have the
node of one tag: then this tag makes no container, no list and no table, and texts
that stand directly inside have its node, one for each time that a tag in between
has ended the text (`duplicateId_of_ofString`). So it takes two tags, or one tag
inside a text that makes several elements.

Key definitions: `Repeats`, `Builder.Keeps`.
Key theorems: `Document.Indexes.refused`, `Builder.Innermost.repeats_of_text`,
`Builder.two_le_or_repeats`, `Document.duplicateId_of_ofString`.
-/
import RichText.Proofs.IdCarriers
import RichText.Proofs.IdIndex
import RichText.Proofs.InnermostTag
import RichText.Proofs.Refusals

namespace RichText

open Markup Text

/-! ### The other element -/

namespace Document

variable {d : Document} {x : String} {i j : Nat} {waiting : List Nat}

theorem nodup_entries (d : Document) : d.entries.Nodup := by
  refine List.Nodup.filterMap (fun i j entry hi hj => ?_) List.nodup_range
  have hi := (listing?_eq_some_iff.1 hi).2
  have hj := (listing?_eq_some_iff.1 hj).2
  exact hi.trans hj.symm

/-- Elements with one id have two nodes with it or share their node. -/
theorem two_le_carriers_or_shared (hi : d.idOf? i = some x) (hj : d.idOf? j = some x) :
    2 ≤ d.styles.carriers x ∨ ∃ node kind kind', (d.styles.key? node).bind (·.id) = some x ∧
      d.shapes[i]? = some (kind, node) ∧ d.shapes[j]? = some (kind', node) := by
  obtain ⟨e, key, he, hkey, hid⟩ := idOf?_eq_some_iff.1 hi
  obtain ⟨e', key', he', hkey', hid'⟩ := idOf?_eq_some_iff.1 hj
  have hnode : (d.styles.key? e.style).bind (·.id) = some x := by rw [hkey]; exact hid
  have hnode' : (d.styles.key? e'.style).bind (·.id) = some x := by rw [hkey']; exact hid'
  by_cases hsame : e.style = e'.style
  · exact .inr ⟨e.style, e.kind, e'.kind, hnode, getElem?_shapes_eq_some.2 ⟨e, he, rfl, rfl⟩,
      getElem?_shapes_eq_some.2 ⟨e', he', rfl, hsame.symm⟩⟩
  · exact .inl (StyleTree.two_le_carriers hsame hnode hnode')

/-- An element is refused for another one with the same id. -/
theorem Indexes.refused (h : d.Indexes (i :: waiting))
    (hr : d.register i = .error (.duplicateId x)) :
    2 ≤ d.styles.carriers x ∨ ∃ node kind, (d.styles.key? node).bind (·.id) = some x ∧
      d.shapes[i]? = some (kind, node) ∧
        ∃ (j : Nat) (kind' : ElementKind), j ≠ i ∧ d.shapes[j]? = some (kind', node) := by
  rcases d.register_cases i with ⟨-, heq⟩ | ⟨y, hid, ⟨-, heq⟩ | ⟨j, hfound, heq⟩⟩
  · cases heq.symm.trans hr
  · cases heq.symm.trans hr
  · cases heq.symm.trans hr
    have hmem : (x, j) ∈ d.ids := h.elementById?_eq_some_iff.1 hfound
    have hj : d.idOf? j = some x :=
      mem_entries.1 (h.entries.mem_iff.1 (List.mem_append_left _ hmem))
    have hne : j ≠ i := by
      rintro rfl
      have hlisting : d.listing? j = some (x, j) := by rw [listing?, hid]; rfl
      have hnodup := h.entries.nodup_iff.2 d.nodup_entries
      rw [List.filterMap_cons_some hlisting, List.nodup_append] at hnodup
      exact hnodup.2.2 _ hmem _ List.mem_cons_self rfl
    rcases two_le_carriers_or_shared hid hj with htwo | ⟨node, kind, kind', hnode, hki, hkj⟩
    · exact .inl htwo
    · exact .inr ⟨node, kind, hnode, hki, j, kind', hne, hkj⟩

end Document

/-- In the events there is a start tag with the id `x` of which at least two elements
with its node are made. It stands in the content of a container and makes neither a
container nor a list nor a table; its elements are the one it makes itself, if it makes
one, and the texts directly inside, which other tags end. -/
def Repeats (x : String) (events : List (Position × Event)) : Prop :=
  ∃ before p name attributes inside after,
    events = before ++ (p, .opened name attributes) :: (Forest.events inside ++ after) ∧
    attributes.get? "id" = some x ∧
    (∃ names, openAfter [] before = some names ∧ Region.at? names = some .content) ∧
    Region.content.inside name = some .content ∧ Builder.containerKind? name attributes = none ∧
    2 ≤ (Builder.leafKind? name attributes).toList.length + (inside.pieces "").length

namespace Builder

variable {b c b₀ b₁ first : Builder} {x : String} {i : Nat} {waiting : List Nat}
  {outer : List String} {before events : List (Position × Event)} {tag : Tag} {within : Region}
  {inside : Forest}

/-- The element made last is refused for an earlier one with its id. -/
theorem refused_last {node : Nat} {kind : ElementKind}
    (hc : Indexed c (b.document.size :: waiting))
    (hshapes : c.document.shapes = b.document.shapes ++ [(kind, node)])
    (hr : c.register b.document.size = .error (.duplicateId x)) :
    2 ≤ c.document.styles.carriers x ∨ (c.document.styles.key? node).bind (·.id) = some x ∧
      ∃ (j : Nat) (kind' : ElementKind), b.document.shapes[j]? = some (kind', node) := by
  rcases hc.index.refused (register_error hr) with
    htwo | ⟨node', kind₁, hid, hlast, j, kind', hne, hj⟩
  · exact .inl htwo
  right
  have hlength := length_shapes_document b.document
  rw [hshapes, ← hlength, List.getElem?_concat_length] at hlast
  obtain rfl : node = node' := congrArg Prod.snd (Option.some.inj hlast)
  have hbound := (List.getElem?_eq_some_iff.1 hj).1
  rw [hshapes, List.length_append, List.length_singleton, hlength] at hbound
  rw [hshapes, List.getElem?_append_left (by omega)] at hj
  exact ⟨hid, j, kind', hj⟩

/-- A tag makes no container inside which the content around it goes on. -/
theorem Innermost.inline (h : Innermost first outer events b before tag within inside b₀ b₁)
    (hcontainer : tag.isContainer = false) (hwithin : within = .content) :
    tag.region = .content ∧ containerKind? tag.name tag.attributes = none := by
  subst hwithin
  have hinside := h.within
  cases hregion : tag.region with
  | content =>
    refine ⟨rfl, ?_⟩
    rw [Tag.isContainer_content hregion] at hcontainer
    simpa using hcontainer
  | root =>
    simp only [hregion, Region.inside] at hinside
    simp only [Tag.isContainer, hregion, Region.isContainer] at hcontainer
    simp_all
  | list =>
    simp only [hregion, Region.inside] at hinside
    simp only [Tag.isContainer, hregion, Region.isContainer] at hcontainer
    simp_all
  | table =>
    simp only [hregion, Region.inside] at hinside
    simp only [Tag.isContainer, hregion, Region.isContainer] at hcontainer
    simp_all

section

variable (h : Innermost first outer events b before tag within inside b₀ b₁)

include h

theorem Innermost.top : b.styles.top = tag.seat := by
  obtain ⟨_, ⟨-, -, hseat, -⟩, -⟩ := h.isOpened
  rw [(level_run inside h.behind).styles, hseat]

theorem Innermost.inside_within : Inside within b := by
  obtain ⟨_, ⟨-, hin, -, -⟩, -⟩ := h.isOpened
  exact inside_run hin h.behind

/-- What is read inside adds to the elements. -/
theorem Innermost.exists_shapes :
    ∃ found, b.document.shapes = b₁.document.shapes ++ found := by
  obtain ⟨_, ⟨-, hin, -, -⟩, -⟩ := h.isOpened
  obtain ⟨found, hadds, -⟩ := mirrors_run inside none hin h.behind
  exact ⟨found, hadds.shapes⟩

theorem Innermost.exists_nodes : ∃ more, b.document.styles.nodes.toList =
    b₀.document.styles.nodes.toList ++ (tag.nodes b₀.registry ++ more) := by
  obtain ⟨_, ⟨hadds₀, hin, -, -⟩, -⟩ := h.isOpened
  obtain ⟨_, hadds, -⟩ := mirrors_run inside none hin h.behind
  exact ⟨_, by rw [hadds.nodes, hadds₀.nodes, List.append_assoc]⟩

theorem Innermost.key_node :
    b.document.styles.key? tag.node = some (tagKey tag.name tag.attributes) := by
  obtain ⟨more, hnodes⟩ := h.exists_nodes
  have hnode : tag.node = b₀.document.styles.nodes.toList.length := by simp [h.node, StyleTree.size]
  rw [StyleTree.key?, StyleTree.node?_eq, hnodes, hnode, List.getElem?_append_right (Nat.le_refl _),
    Nat.sub_self]
  rfl

theorem Innermost.key_seat (hc : tag.isContainer = true) :
    b.document.styles.key? tag.seat = none := by
  obtain ⟨more, hnodes⟩ := h.exists_nodes
  have hseat : tag.seat = b₀.document.styles.nodes.toList.length + 1 := by
    simp [Tag.seat, hc, h.node, StyleTree.size]
  rw [StyleTree.key?, StyleTree.node?_eq, hnodes, hseat,
    List.getElem?_append_right (Nat.le_add_right _ _), Nat.add_sub_cancel_left, Tag.nodes,
    if_pos hc]
  rfl

/-- Inside a tag in whose content that of a container goes on, the pieces of text have
the node of the tag. -/
theorem Innermost.length_pieces (hcontainer : tag.isContainer = false)
    (hwithin : within = .content) : (inside.pieces "").length =
      (inside.runs .content tag.node b₁.document.styles.size "").1.countP (·.2 = tag.node) +
        (keptText b.text tag.node).length := by
  subst hwithin
  obtain ⟨_, ⟨hadds, hin, hseat, htext⟩, -⟩ := h.isOpened
  obtain ⟨_, -, -, -, hpending⟩ := mirrors_run inside none hin h.behind
  have hnode : b₁.styles.top = tag.node := by simp [hseat, Tag.seat, hcontainer]
  rw [htext, hnode] at hpending
  rw [hpending]
  exact inside.length_pieces (hnode ▸ hin.top) ""

/-- A text that is refused stands directly inside a tag of which another element has
been made. -/
theorem Innermost.repeats_of_text (houter : outer = [])
    (hstyled : ∀ shape ∈ b₀.document.shapes, shape.2 < b₀.document.styles.size)
    (hindexed : Indexed b []) (hregion : b.frame.region? = some .content)
    (hf : b.flush = .error (.duplicateId x)) :
    2 ≤ b.document.styles.carriers x ∨ ∀ after, Repeats x (events ++ after) := by
  obtain ⟨hblank, hr⟩ := flush_error hf
  have hcleared : Indexed { b with text := "" } [] :=
    ⟨hindexed.stack, hindexed.tables, hindexed.outermost, hindexed.index⟩
  have hmade := hcleared.make (.text b.text) (hindexed.stack _ List.mem_cons_self)
  have hshapes : (make { b with text := "" } b.styles.top (.text b.text)).document.shapes =
      b.document.shapes ++ [(.text b.text, b.styles.top)] := b.document.shapes_push _
  rcases refused_last hmade hshapes hr with htwo | ⟨hid, j, kind, hold⟩
  · exact .inl htwo
  right
  change (b.document.styles.key? b.styles.top).bind (·.id) = some x at hid
  rw [h.top] at hid hold
  have hcontainer : tag.isContainer = false := by
    rw [Bool.eq_false_iff]
    intro hc
    simp [h.key_seat hc] at hid
  have hseat : tag.seat = tag.node := by simp [Tag.seat, hcontainer]
  rw [hseat] at hid hold
  have hwithin : within = .content :=
    Option.some.inj (h.inside_within.frame.symm.trans hregion)
  obtain ⟨hcontent, hnone⟩ := h.inline hcontainer hwithin
  have hinside := h.within
  rw [hcontent, hwithin] at hinside
  have hattribute : tag.attributes.get? "id" = some x := by
    rw [h.key_node] at hid
    exact get?_of_id_tagKey hid
  obtain ⟨names, hopen, hat⟩ := h.around
  intro after
  refine ⟨before, tag.position, tag.name, tag.attributes, inside, after, ?_, hattribute,
    ⟨names, houter ▸ hopen, hcontent ▸ hat⟩, hinside, hnone, ?_⟩
  · rw [h.split]
    simp [Tag.event]
  -- The text that is refused is one of the elements, and the other one another.
  have hlast : (keptText b.text tag.node).length = 1 := by simp [keptText, hblank]
  rw [h.length_pieces hcontainer hwithin, hlast]
  rcases h.made_or_text hstyled hold with ⟨-, -, hkind⟩ | ⟨-, -, s, hs⟩
  · have hleaf : (leafKind? tag.name tag.attributes).isSome = true := by
      have hol : tag.name ≠ "ol" := by
        rintro hol
        simp [Region.inside, hol] at hinside
      have htable : tag.name ≠ "table" := by
        rintro htable
        simp [Region.inside, htable] at hinside
      simpa [Tag.kindName?, hcontent, hol, htable, hnone] using hkind
    obtain ⟨leaf, hleaf⟩ := Option.isSome_iff_exists.1 hleaf
    simp only [hleaf, Option.toList_some, List.length_singleton]
    omega
  · have hfound : 0 < (inside.runs .content tag.node b₁.document.styles.size "").1.countP
        (·.2 = tag.node) := List.countP_pos_iff.2 ⟨_, hs, by simp⟩
    omega

end

/-- The element for which a builder has a frame that it registers at the end. -/
def Keeps (b : Builder) (e : Nat) : Prop :=
  (∃ outer role, b.frame = .container e outer role) ∨ b.frame = .orderedList e 0

theorem shapes_last {c : Builder} {node : Nat} {kind : ElementKind}
    (h : b.document.elements = (c.make node kind).document.elements) :
    b.document.size = c.document.size + 1 ∧
      b.document.shapes[c.document.size]? = some (kind, node) := by
  have hshapes : b.document.shapes = c.document.shapes ++ [(kind, node)] := by
    rw [Document.shapes, h]
    exact c.document.shapes_push _
  refine ⟨?_, ?_⟩
  · rw [Document.size, h]
    simp [make, Document.push, Document.size]
  · rw [hshapes, ← length_shapes_document, List.getElem?_concat_length]

/-- The element of a frame that a tag opens is the one made last, with the tag's node. -/
theorem opened_keeps {p : Position} {name : String} {attributes : Attributes} {region : Region}
    {e : Nat} (hregion : b₀.frame.region? = some region)
    (hopen : b₀.opened p name attributes = .ok b₁) (hwithin : region.inside name = some within)
    (hkeeps : Keeps b₁ e) : b₁.document.size = e + 1 ∧
      (∃ kind, b₁.document.shapes[e]? = some (kind, b₀.document.styles.size)) ∧
        (region.isContainer name attributes = true ∨ within = .list) := by
  -- The element has been made by `c` just before.
  have made {c : Builder} {kind : ElementKind} (hc : c.document.size = e)
      (htree : c.document.styles = b₀.document.styles)
      (helements : b₁.document.elements =
        (c.make c.document.styles.size kind).document.elements) :
      b₁.document.size = e + 1 ∧
        ∃ kind, b₁.document.shapes[e]? = some (kind, b₀.document.styles.size) := by
    obtain ⟨hsize, hlast⟩ := shapes_last helements
    rw [hc] at hsize hlast
    rw [htree] at hlast
    exact ⟨hsize, kind, hlast⟩
  cases opens_of_region hregion hopen with
  | root ho =>
    cases ho with
    | head | skipped => simp [Keeps, enter] at hkeeps
    | body hn hm hr =>
      subst hm
      obtain ⟨ids, rfl⟩ := register_eq hr
      obtain rfl : b₀.document.size = e := by
        simpa [Keeps, enterContainer, enter] using hkeeps
      obtain ⟨hsize, hlast⟩ := made rfl rfl rfl
      exact ⟨hsize, hlast, .inl (by simp [Region.isContainer, hn])⟩
  | content ho =>
    cases ho with
    | head | table => simp [Keeps, enter] at hkeeps
    | leaf | inline => simp [Keeps, enter] at hkeeps
    | @container _ flushed hf kind hk =>
      obtain rfl : flushed.document.size = e := by
        simpa [Keeps, enterContainer, enter] using hkeeps
      obtain ⟨hsize, hlast⟩ := made rfl (flushes hf).kept.tree rfl
      exact ⟨hsize, hlast, .inl (by simp [Region.isContainer, hk])⟩
    | @orderedList hn flushed hf start =>
      obtain rfl : flushed.document.size = e := by
        simpa [Keeps, enter] using hkeeps
      obtain ⟨hsize, hlast⟩ := made rfl (flushes hf).kept.tree rfl
      exact ⟨hsize, hlast, .inr (by simpa [Region.inside, hn] using hwithin.symm)⟩
  | list _ ho =>
    cases ho with
    | item hn =>
      obtain rfl : b₀.document.size = e := by
        simpa [Keeps, enterContainer, enter] using hkeeps
      obtain ⟨hsize, hlast⟩ := made rfl rfl rfl
      exact ⟨hsize, hlast, .inl (by simp [Region.isContainer, hn])⟩
    | other => simp [Keeps] at hkeeps
  | table _ ho =>
    cases ho with
    | cell hn columns =>
      obtain rfl : b₀.document.size = e := by
        simpa [Keeps, enterContainer, enter] using hkeeps
      obtain ⟨hsize, hlast⟩ := made rfl rfl rfl
      exact ⟨hsize, hlast, .inl (by simp [Region.isContainer, hn])⟩
    | row | other => simp [Keeps] at hkeeps

theorem Keeps.of_follows {e : Nat} (h : b₁.frame.Follows b.frame) (hkeeps : Keeps b e) :
    Keeps b₁ e := by
  unfold Keeps at hkeeps ⊢
  generalize b.frame = f at h hkeeps
  generalize b₁.frame = g at h ⊢
  cases h with
  | refl => exact hkeeps
  | root | title | table => simp at hkeeps

section

variable (h : Innermost first outer events b before tag within inside b₀ b₁)
  (hstyled : ∀ shape ∈ b₀.document.shapes, shape.2 < b₀.document.styles.size)

include h hstyled

/-- An element that is refused at the end of its tag has the tag's node alone, so there
is another node with the id. -/
theorem Innermost.two_le_of_keeps {e : Nat} (hkeeps : Keeps b e) (text : String)
    (hc : Indexed c (e :: waiting)) (htree : c.document.styles = b.document.styles)
    (hshapes : c.document.shapes = b.document.shapes ++ keptShape text b.styles.top)
    (htext : within = .list → text = "") (hr : c.register e = .error (.duplicateId x)) :
    2 ≤ b.document.styles.carriers x := by
  have hkeeps₁ := hkeeps.of_follows (level_run inside h.behind).frame
  obtain ⟨hsize, ⟨kind, he⟩, halone⟩ :=
    opened_keeps h.stands.frame h.opened h.within hkeeps₁
  rw [← h.node] at he
  obtain ⟨found, hfound⟩ := h.exists_shapes
  have hlength := length_shapes_document b₁.document
  rcases hc.index.refused (register_error hr) with
    htwo | ⟨node, kind₁, -, hki, j, kind₂, hne, hkj⟩
  · rwa [htree] at htwo
  exfalso
  rw [hshapes, hfound, List.append_assoc, List.getElem?_append_left (by omega), he] at hki
  obtain rfl : tag.node = node := congrArg Prod.snd (Option.some.inj hki)
  rw [hshapes] at hkj
  by_cases hlt : j < b.document.shapes.length
  · rw [List.getElem?_append_left hlt] at hkj
    rcases h.made_or_text hstyled hkj with ⟨hlast, -⟩ | ⟨hnone, hcontent, -⟩
    · omega
    · rcases halone with hcontainer | hlist
      · rw [show tag.isContainer = true from hcontainer] at hnone
        cases hnone
      · rw [hlist] at hcontent
        cases hcontent
  · -- It would be the text at the end of the container, which is not under the tag's node.
    rw [List.getElem?_append_right (Nat.le_of_not_lt hlt)] at hkj
    obtain ⟨run, hrun, heq⟩ := List.mem_map.1 (List.mem_of_getElem? hkj)
    have hnode : tag.node = tag.seat := by
      have hsame : run.2 = tag.node := congrArg Prod.snd heq
      rw [← hsame, Forest.mem_keptText hrun, h.top]
    rcases halone with hcontainer | hlist
    · simp [Tag.seat, show tag.isContainer = true from hcontainer] at hnode
    · rw [htext hlist] at hrun
      cases hrun

/-- So has a table. -/
theorem Innermost.two_le_of_table {draft : TableDraft} (hframe : b.frame = .table draft 0)
    (kind : ElementKind) (hc : Indexed c (b.document.size :: waiting))
    (htree : c.document.styles = b.document.styles)
    (hshapes : c.document.shapes = b.document.shapes ++ [(kind, draft.style)])
    (hr : c.register b.document.size = .error (.duplicateId x)) :
    2 ≤ b.document.styles.carriers x := by
  have howed : owed b₁.frame = [("table", draft.style)] := by
    rw [← owed_follows (level_run inside h.behind).frame, hframe]
    rfl
  have hnode : draft.style = tag.node := by
    obtain ⟨shapes, -, -, hmade⟩ := h.isOpened
    rw [howed] at hmade
    have hmem : ("table", draft.style) ∈ tag.made := hmade ▸ List.mem_append_right _ (by simp)
    obtain ⟨name, -, heq⟩ := Option.map_eq_some_iff.1 (Option.mem_toList.1 hmem)
    exact (congrArg Prod.snd heq).symm
  have hwithin : within = .table := by
    have hregion := h.inside_within.frame
    rw [hframe] at hregion
    exact (Option.some.inj hregion).symm
  rcases refused_last hc hshapes hr with htwo | ⟨-, j, kind', hj⟩
  · rwa [htree] at htwo
  exfalso
  rw [hnode] at hj
  rcases h.made_or_text hstyled hj with ⟨-, hnone, -⟩ | ⟨-, hcontent, -⟩
  · rw [howed] at hnone
    cases hnone
  · rw [hwithin] at hcontent
    cases hcontent

end

/-- An element that is refused when it is made has a new node, so there is another one
with the id. -/
theorem two_le_of_fresh {kind : ElementKind}
    (hstyled : ∀ shape ∈ b.document.shapes, shape.2 < b.document.styles.size)
    (hc : Indexed c (b.document.size :: waiting))
    (hshapes : c.document.shapes = b.document.shapes ++ [(kind, b.document.styles.size)])
    (hr : c.register b.document.size = .error (.duplicateId x)) :
    2 ≤ c.document.styles.carriers x := by
  rcases refused_last hc hshapes hr with htwo | ⟨-, j, kind', hj⟩
  · exact htwo
  · exact absurd (hstyled _ (List.mem_of_getElem? hj)) (Nat.lt_irrefl _)

/-! ### The text that fails -/

theorem styled_shapes {d : Document} (h : d.Indexes waiting) :
    ∀ shape ∈ d.shapes, shape.2 < d.styles.size := by
  intro shape hshape
  obtain ⟨e, he, rfl⟩ := List.mem_map.1 hshape
  obtain ⟨i, hi⟩ := List.mem_iff_getElem?.1 he
  exact h.styled i e (by simpa [Document.element?] using hi)

theorem shapes_append (b : Builder) (parent : Option Nat) (i : Nat) :
    (b.append parent i).document.shapes = b.document.shapes := by
  simpa using (b.adds_append parent i).shapes

theorem carriers_pushTag_le (b : Builder) (name : String) (attributes : Attributes) (x : String) :
    (b.pushTag name attributes).document.styles.carriers x ≤
      b.document.styles.carriers x + if (Event.opened name attributes).hasId x then 1 else 0 := by
  simp only [Event.hasId, decide_eq_true_eq]
  exact carriers_push_le b.document.styles _ name attributes _ x

/-- When an element is refused, there are two nodes with the id, one of them perhaps
that of the tag that is being read, or a tag of which several elements are made. -/
theorem two_le_or_repeats {number : Nat} {registry : Registry} {event : Position × Event}
    {names : List String} (hopen : Unclosed names events)
    (hrun : (start number registry).run events = .ok b)
    (herror : b.step event = .error (.duplicateId x)) :
    2 ≤ b.document.styles.carriers x + (if event.2.hasId x then 1 else 0) ∨
      ∀ after, Repeats x (events ++ after) := by
  have hindexed := indexed_run (indexed_start number registry) hrun
  -- Where a body is read, there is an innermost tag, with the elements made before it.
  have innermost (region : Region) (hregion : b.frame.region? = some region)
      (hne : region ≠ .root) : ∃ before tag within inside b₀ b₁,
      Innermost (start number registry) [] events b before tag within inside b₀ b₁ ∧
        ∀ shape ∈ b₀.document.shapes, shape.2 < b₀.document.styles.size := by
    obtain ⟨before, tag, within, inside, b₀, b₁, h⟩ := exists_innermost hopen hrun hregion hne
    have hindexed₀ := indexed_run (indexed_start number registry) h.front
    exact ⟨before, tag, within, inside, b₀, b₁, h, styled_shapes hindexed₀.index⟩
  obtain ⟨p, event⟩ := event
  cases refuses herror with
  | text hregion hf =>
    obtain ⟨before, tag, within, inside, b₀, b₁, h, hstyled⟩ :=
      innermost .content hregion (by decide)
    rcases h.repeats_of_text rfl hstyled hindexed hregion hf with htwo | hrepeats
    · exact .inl (Nat.le_trans htwo (Nat.le_add_right _ _))
    · exact .inr hrepeats
  | @leaf name attributes flushed hf kind ha =>
    have hflushed := hindexed.flush hf
    have hmade := hflushed.makeTag name attributes kind
    have hshapes : (append ((flushed.pushTag name attributes).make flushed.document.styles.size
        kind) flushed.container flushed.document.size).document.shapes =
          flushed.document.shapes ++ [(kind, flushed.document.styles.size)] := by
      rw [shapes_append]
      exact Document.shapes_push _ _
    have htwo := two_le_of_fresh (styled_shapes hflushed.index) (hmade.append flushed.container _)
      hshapes ha
    rw [(kept_append _ _ _).tree] at htwo
    refine .inl (Nat.le_trans htwo ?_)
    show _ ≤ b.document.styles.carriers x + _
    rw [← (flushes hf).kept.tree]
    exact flushed.carriers_pushTag_le name attributes x
  | @body attributes made hm hr =>
    subst hm
    have hmade := hindexed.makeTag "body" attributes .block
    have hroot : Indexed
        { (b.pushTag "body" attributes).make b.document.styles.size .block with
          document := ((b.pushTag "body" attributes).make b.document.styles.size
            .block).document.addRoot b.document.size } [b.document.size] :=
      hmade.congr rfl rfl rfl (Document.alike_of_eq rfl rfl rfl)
    have htwo := two_le_of_fresh (styled_shapes hindexed.index) hroot
      (Document.shapes_push _ _) hr
    exact .inl (Nat.le_trans htwo (b.carriers_pushTag_le "body" attributes x))
  | @container _ element outer role hframe flushed hf hs =>
    have hregion : b.frame.region? = some .content := by rw [hframe]; rfl
    obtain ⟨before, tag, within, inside, b₀, b₁, h, hstyled⟩ :=
      innermost .content hregion (by decide)
    obtain rfl : within = .content := Option.some.inj (h.inside_within.frame.symm.trans hregion)
    obtain ⟨hbody, parent, hr⟩ := settle_error hs
    have hleft := (hindexed.flush hf).popNode.popNode.leave
      ((flushes hf).kept.frame.trans hframe)
    have hpending : (Frame.container element outer role).pending = [element] := by
      cases role with
      | body => exact absurd rfl hbody
      | _ => rfl
    rw [hpending] at hleft
    have hcontainer : Indexed { flushed.popNode.popNode.leave with container := outer } [element] :=
      hleft.congr rfl rfl rfl (Document.alike_of_eq rfl rfl rfl)
    have hdocument : ({ flushed.popNode.popNode.leave with container := outer } :
        Builder).document = flushed.document := flushed.popNode.popNode.document_leave
    refine .inl (Nat.le_trans (h.two_le_of_keeps hstyled (.inl ⟨outer, role, hframe⟩) b.text
      (hcontainer.append parent element) ?_ ?_ (by simp) hr) (Nat.le_add_right _ _))
    · rw [(kept_append _ _ _).tree, hdocument]
      exact (flushes hf).kept.tree
    · rw [shapes_append, hdocument]
      exact (adds_flush (h.inside_within.container rfl) hf).shapes
  | @orderedList _ list hframe ha =>
    obtain ⟨before, tag, within, inside, b₀, b₁, h, hstyled⟩ :=
      innermost .list (by rw [hframe]; rfl) (by decide)
    have hleft := hindexed.popNode.leave hframe
    refine .inl (Nat.le_trans (h.two_le_of_keeps hstyled (.inr hframe) ""
      (hleft.append _ list) ?_ ?_ (fun _ => rfl) ha) (Nat.le_add_right _ _))
    · rw [(kept_append _ _ _).tree, document_leave]
      rfl
    · rw [shapes_append, document_leave]
      exact (List.append_nil _).symm
  | @table _ draft hframe ha =>
    obtain ⟨before, tag, within, inside, b₀, b₁, h, hstyled⟩ :=
      innermost .table (by rw [hframe]; rfl) (by decide)
    have hnode : draft.style < b.popNode.leave.document.styles.size := by
      rw [document_leave]
      exact hindexed.tables b.frame List.mem_cons_self _ (hframe ▸ rfl)
    have hmade := (hindexed.popNode.leave hframe).make (.table draft.table) hnode
    have hsize : b.popNode.leave.document.size = b.document.size := by
      rw [document_leave]
      rfl
    rw [hsize] at hmade ha
    refine .inl (Nat.le_trans (h.two_le_of_table hstyled hframe (.table draft.table)
      (hmade.append _ _) ?_ ?_ ha)
      (Nat.le_add_right _ _))
    · rw [(kept_append _ _ _).tree, (kept_make _ _ _).tree, document_leave]
      rfl
    · rw [shapes_append]
      refine (Document.shapes_push _ _).trans ?_
      rw [document_leave]
      rfl

end Builder

namespace EventStream

/-- Events do not end for an id. -/
theorem failure_ne_duplicateId (failure : Option ParseError) (x : String) :
    ∀ (inside : List String) (tokens : List (Position × Token)),
      (ofTokens failure inside tokens).failure ≠ some (.duplicateId x) := by
  intro inside tokens
  fun_induction ofTokens failure inside tokens with
  | case1 inside =>
    unfold endingOf
    cases failure with
    | some e => simp
    | none => cases inside <;> simp
  | case2 _ _ _ _ ih => exact ih
  | case3 _ _ _ _ ih => exact ih
  | case4 inside p name attributes selfClosing tokens ih ih' =>
    cases selfClosing
    · exact ih'
    · exact ih
  | case5 => simp [fail]
  | case6 _ _ _ _ ih => exact ih
  | case7 => simp [fail]

end EventStream

namespace Document

variable {number : Nat} {registry : Registry} {source x : String}

theorem run_of_duplicateId (h : ofString number registry source = .error (.duplicateId x)) :
    (Builder.start number registry).run (EventStream.ofString source).items =
      .error (.duplicateId x) := by
  unfold ofString ofEvents at h
  simp only [bind, Except.bind] at h
  split at h
  · next hrun => exact hrun.trans (by rw [Except.error.inj h])
  · split at h
    · next hfailure =>
      exact absurd (hfailure.trans (by rw [Except.error.inj h]))
        (EventStream.failure_ne_duplicateId _ x [] _)
    · unfold Builder.finish at h
      split at h <;> simp at h

/-- If a text is refused for an id, at least two of its start tags have the id, or one
that has it makes several elements. A text in which each id is on one tag at most, none
of which makes several elements, is not refused for an id. -/
theorem duplicateId_of_ofString (number : Nat) (registry : Registry) (source : String) :
    (∀ x, ofString number registry source = .error (.duplicateId x) →
      2 ≤ (Tokenizer.ofString source).stream.items.countP (·.2.hasId x) ∨
        Repeats x (EventStream.ofString source).items) ∧
    ((∀ x, (Tokenizer.ofString source).stream.items.countP (·.2.hasId x) ≤ 1 ∧
      ¬ Repeats x (EventStream.ofString source).items) →
      ∀ x, ofString number registry source ≠ .error (.duplicateId x)) := by
  have hclash (x : String) (h : ofString number registry source = .error (.duplicateId x)) :
      2 ≤ (Tokenizer.ofString source).stream.items.countP (·.2.hasId x) ∨
        Repeats x (EventStream.ofString source).items := by
    obtain ⟨front, event, rest, b, hitems, hrun, herror⟩ :=
      Builder.run_error (run_of_duplicateId h)
    have hfront : front <+: (EventStream.ofString source).items :=
      hitems ▸ List.prefix_append front _
    obtain ⟨names, hopen⟩ := EventStream.exists_unclosed_of_prefix hfront
    rcases Builder.two_le_or_repeats hopen hrun herror with htwo | hrepeats
    · left
      have hcarriers := Builder.carriers_run x hrun
      have hnone : (Builder.start number registry).document.styles.carriers x = 0 := rfl
      have htokens := EventStream.countP_items_le x source
      rw [hitems, List.countP_append, List.countP_cons] at htokens
      omega
    · exact .inr (hitems ▸ hrepeats (event :: rest))
  refine ⟨hclash, fun hids x h => ?_⟩
  rcases hclash x h with htwo | hrepeats
  · exact absurd htwo (Nat.not_le.2 (Nat.lt_succ_of_le (hids x).1))
  · exact (hids x).2 hrepeats

theorem stream_split : (Tokenizer.ofString "<html><body><b id=s>a<br/>c</b></body></html>").stream =
    ⟨[(⟨1, 1⟩, .startTag "html" [] false), (⟨1, 7⟩, .startTag "body" [] false),
      (⟨1, 13⟩, .startTag "b" [("id", "s")] false), (⟨1, 21⟩, .text "a"),
      (⟨1, 22⟩, .startTag "br" [] true), (⟨1, 27⟩, .text "c"), (⟨1, 28⟩, .endTag "b"),
      (⟨1, 32⟩, .endTag "body"), (⟨1, 39⟩, .endTag "html")], none⟩ := by
  decide +kernel

theorem ofString_split :
    ofString 0 .standard "<html><body><b id=s>a<br/>c</b></body></html>" =
      .error (.duplicateId "s") := by
  unfold ofString EventStream.ofString
  rw [stream_split]
  rfl

theorem countP_split (x : String) :
    (Tokenizer.ofString "<html><body><b id=s>a<br/>c</b></body></html>").stream.items.countP
      (·.2.hasId x) ≤ 1 := by
  rw [stream_split]
  by_cases hid : "s" = x <;>
    simp [Token.hasId, Attributes.get?, List.lookup, hid]

/-- The line break splits the text in the only tag with the id. -/
theorem duplicateId_of_ofString_split :
    ofString 0 .standard "<html><body><b id=s>a<br/>c</b></body></html>" =
      .error (.duplicateId "s") ∧
    Repeats "s" (EventStream.ofString "<html><body><b id=s>a<br/>c</b></body></html>").items :=
  ⟨ofString_split, ((duplicateId_of_ofString 0 .standard _).1 "s" ofString_split).resolve_left
    (Nat.not_le.2 (Nat.lt_succ_of_le (countP_split "s")))⟩

/-- No id is on two tags, and still one is refused. -/
theorem duplicateId_of_one_tag :
    ofString 0 .standard "<html><body><b id=s>a<br/>c</b></body></html>" =
      .error (.duplicateId "s") ∧
    ∀ x, ¬ 2 ≤ (Tokenizer.ofString
      "<html><body><b id=s>a<br/>c</b></body></html>").stream.items.countP (·.2.hasId x) :=
  ⟨ofString_split, fun x => Nat.not_le.2 (Nat.lt_succ_of_le (countP_split x))⟩

end Document

end RichText
