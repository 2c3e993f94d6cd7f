/-
# The tree of styles mirrors the markup

Reading a forest adds the nodes and the elements of its tags and the texts of its
runs, and nothing else (`Builder.mirrors_run`, by induction on the forest).

The nodes are then where the tags say (`StyleTree.lays`), and what stands above
each of them is known.

Key definitions: `Builder.Mirrors`, `StyleTree.Lays`, `Document.Mirrors`.
Key theorems: `Builder.mirrors_run`, `StyleTree.lays`,
`Document.styles_mirror_markup`.
-/
import RichText.Proofs.Additions
import RichText.Proofs.Inheritance
import RichText.Proofs.WholeText
import RichText.Proofs.WrittenTags

namespace RichText

open Markup Text

namespace Builder

/-- Reading adds the nodes and the elements of the tags, and the texts of `runs`;
a text is still gathered at the end. -/
def Mirrors (b : Builder) (tags : List Tag) (runs : List (String × Nat) × String)
    (b' : Builder) : Prop :=
  ∃ shapes, Adds b (tags.flatMap (Tag.nodes b.registry)) shapes b' ∧ textShapes shapes = runs.1 ∧
    (partShapes shapes).Perm (tags.flatMap Tag.made) ∧ b'.text = runs.2

section

variable {b b₁ b₂ b' : Builder} {name : String} {tag : Tag} {tags tags' : List Tag}
  {runs runs' : List (String × Nat) × String}

theorem Mirrors.trans (h : Mirrors b tags runs b₁) (h' : Mirrors b₁ tags' runs' b') :
    Mirrors b (tags ++ tags') (runs.1 ++ runs'.1, runs'.2) b' := by
  obtain ⟨shapes, hadds, htexts, hparts, -⟩ := h
  obtain ⟨shapes', hadds', htexts', hparts', hpending⟩ := h'
  rw [hadds.registry] at hadds'
  refine ⟨shapes ++ shapes', ?_, by rw [textShapes_append, htexts, htexts'], ?_, hpending⟩
  · rw [List.flatMap_append]
    exact hadds.trans hadds'
  · rw [partShapes_append, List.flatMap_append]
    exact hparts.append hparts'

theorem Mirrors.size (h : Mirrors b tags runs b') : b'.document.styles.size =
    b.document.styles.size + (tags.flatMap (Tag.nodes b.registry)).length := by
  obtain ⟨_, hadds, -⟩ := h
  exact hadds.size

theorem Mirrors.inside {region : Region} (h : Mirrors b tags runs b') (hin : Inside region b)
    (hlevel : Level b b') (htext : region ≠ .content → runs.2 = "") : Inside region b' := by
  obtain ⟨_, hadds, -, -, hpending⟩ := h
  exact hin.level hlevel hadds fun hregion => hpending.trans (htext hregion)

theorem mirrors_still (h : Still b b') : Mirrors b [] ([], b.text) b' :=
  ⟨[], h.adds, rfl, .refl _, h.text⟩

/-- An element adds its tag and what is in it. The text before the start tag goes to
the node around the element, the text before the end to that of the tag. -/
theorem mirrors_element {within : Region} {q : Position} (hopened : Opened b tag within b₁)
    (hinside : Mirrors b₁ tags runs b₂) (hlevel : Level b₁ b₂) (hin : Inside within b₂)
    (hclose : b₂.closed q name = .ok b') :
    Mirrors b (tag :: tags)
      (keptText b.text b.styles.top ++ runs.1 ++ keptText runs.2 b₁.styles.top, "") b' := by
  obtain ⟨opened, ⟨hadds₁, -, -, -⟩, ht₁, hp₁⟩ := hopened
  obtain ⟨found, hadds₂, ht₂, hp₂, hpending⟩ := hinside
  obtain ⟨closed, hadds₃, ht₃, hp₃, htext⟩ := closed_adds hin hclose
  rw [hadds₁.registry] at hadds₂
  rw [hlevel.styles, hpending] at hadds₃
  have hadds := (hadds₁.trans hadds₂).trans hadds₃
  refine ⟨_, ⟨hadds.registry, ?_, hadds.shapes⟩, ?_, ?_, htext⟩
  · rw [hadds.nodes, List.flatMap_cons, List.append_nil]
  · simp only [textShapes_append, textShapes_keptShape, ht₁, ht₂, ht₃, List.append_nil]
  · simp only [partShapes_append, partShapes_keptShape, List.nil_append, List.flatMap_cons,
      ← hp₁, hp₃, owed_follows hlevel.frame]
    -- The table comes behind its cells, but its tag before theirs.
    have htable := (hp₂.append_right (owed b₁.frame)).trans List.perm_append_comm
    simpa only [List.append_assoc] using htable.append_left (partShapes opened)

end

theorem mirrors_run : ∀ (f : Forest) {region : Region} (outer : Option Nat) {b b' : Builder},
    Inside region b → b.run f.events = .ok b' →
    Mirrors b (f.tags region outer b.styles.top b.document.styles.size)
      (f.runs region b.styles.top b.document.styles.size b.text) b'
  | .nil, region, outer, b, b', hin, h => by
    obtain rfl := Except.ok.inj h
    exact mirrors_still (.refl b)
  | .text p s rest, region, outer, b, b', hin, h => by
    obtain ⟨b₁, htext, hrest⟩ := run_text h
    have hin₁ := hin.textRead htext
    obtain rfl := textRead_of_region hin.frame htext
    obtain ⟨shapes, hadds, ht, hp, hpending⟩ := mirrors_run rest outer hin₁ hrest
    exact ⟨shapes, ⟨hadds.registry, hadds.nodes, hadds.shapes⟩, ht, hp, hpending⟩
  | .element p name attributes inside q rest, region, outer, b, b', hin, h => by
    obtain ⟨b₁, b₂, b₃, hopen, hinside, hclose, hrest⟩ := run_element h
    have hlevel₂ := level_run inside hinside
    have hlevel := level_element hopen hlevel₂ hclose
    unfold Forest.tags Forest.runs
    cases hwithin : region.inside name with
    | none =>
      have hstill : Still b b₃ := still_element hin.frame hwithin hopen hinside hclose
      have hfirst := mirrors_still hstill
      have hmore := mirrors_run rest outer (hfirst.inside hin hlevel hin.text) hrest
      rw [hlevel.styles, hstill.tree, hstill.text] at hmore
      exact hfirst.trans hmore
    | some within =>
      have hopened := opened_adds (p := p) hin hwithin hopen outer
      obtain ⟨_, hentered, -⟩ := id hopened
      obtain ⟨-, hin₁, hseat, htext₁⟩ := id hentered
      have hmirrors := mirrors_run inside (some b.document.styles.size) hin₁ hinside
      have hsilent : within ≠ .content → (inside.runs within b₁.styles.top
          b₁.document.styles.size b₁.text).2 = "" := fun hregion => by
        rw [htext₁]
        exact inside.runs_silent hregion _ _
      have hfirst := mirrors_element hopened hmirrors hlevel₂
        (hmirrors.inside hin₁ hlevel₂ hsilent) hclose
      have hmore := mirrors_run rest outer (hfirst.inside hin hlevel fun _ => rfl) hrest
      have htext₃ : b₃.text = "" := hfirst.choose_spec.2.2.2
      -- The numbers go on where those of the tag, and then those inside it, end.
      have hsize₁ : b₁.document.styles.size =
          b.document.styles.size + region.nodeCount name attributes := hentered.size
      have hsize₃ : b₃.document.styles.size =
          b.document.styles.size + region.nodeCount name attributes + inside.nodeCount within := by
        rw [hfirst.size, List.flatMap_cons, List.length_append, Tag.length_nodes,
          inside.length_nodes_tags, Nat.add_assoc]
        rfl
      rw [hlevel.styles, hsize₃, htext₃] at hmore
      rw [hseat, hsize₁, htext₁] at hfirst
      exact hfirst.trans hmore

/-- Behind a forest the same region is read. -/
theorem inside_run {f : Forest} {region : Region} {b b' : Builder} (hin : Inside region b)
    (hrun : b.run f.events = .ok b') : Inside region b' := by
  refine (mirrors_run f none hin hrun).inside hin (level_run f hrun) fun hregion => ?_
  rw [hin.text hregion]
  exact f.runs_silent hregion _ _

theorem inside_inRoot (number : Nat) (registry : Registry) :
    Inside .root (inRoot number registry) :=
  ⟨rfl, Nat.one_pos, nofun, fun _ => rfl⟩

end Builder

/-! ### Keys above a node -/

namespace StyleTree

/-- The nodes that have keys, in the order of their numbers. -/
def keyed (t : StyleTree) : List Nat :=
  (t.nodes.toList.zipIdx.filter (·.1.key.isSome)).map (·.2)

/-- The nearest node above `i` that has a key. -/
def keyedAbove? (t : StyleTree) (i : Nat) : Option Nat :=
  (t.ancestors i).tail.find? fun n => (t.key? n).isSome

variable {t : StyleTree} {i : Nat}

/-- The nearest node with a key, from `i` upward. -/
theorem keyedAbove?_eq {p : Nat} (h : t.parent? i = some p) :
    t.keyedAbove? i = if (t.key? p).isSome then some p else t.keyedAbove? p := by
  have hself (j : Nat) : t.ancestors j = j :: (t.ancestors j).tail := by
    rw [ancestors]
    split <;> rfl
  unfold keyedAbove?
  rw [ancestors_of_some h, List.tail_cons, hself p, List.find?_cons, List.tail_cons]
  cases (t.key? p).isSome <;> rfl

theorem keyedAbove?_of_none (h : t.parent? i = none) : t.keyedAbove? i = none := by
  simp [keyedAbove?, ancestors_of_none h]

theorem node?_eq (t : StyleTree) (i : Nat) : t.node? i = t.nodes.toList[i]? := by
  simp [node?]

/-- The nodes of the tags are in the tree where the tags say, below its root. -/
structure Lays (registry : Registry) (t : StyleTree) (tags : List Tag) : Prop where
  root : t.node? 0 = some ⟨none, none, .empty⟩
  own : ∀ tag ∈ tags, t.node? tag.node = some (tag.own registry)
  anonymous : ∀ tag ∈ tags, tag.isContainer = true →
    t.node? tag.seat = some ⟨some tag.node, none, .empty⟩

variable {registry : Registry} {tags : List Tag} {tag : Tag}

theorem lays (hnumbered : Numbered 1 tags)
    (hnodes : t.nodes.toList = ⟨none, none, .empty⟩ :: tags.flatMap (Tag.nodes registry)) :
    t.Lays registry tags := by
  have hdrop : t.nodes.toList.drop 1 = tags.flatMap (Tag.nodes registry) := by
    rw [hnodes]
    rfl
  have hlookup := hnumbered.getElem? hdrop
  refine ⟨by rw [node?_eq, hnodes]; rfl, fun tag htag => ?_, fun tag htag hc => ?_⟩
  · exact (node?_eq _ _).trans (hlookup tag htag).1
  · rw [node?_eq, Tag.seat, if_pos hc]
    exact (hlookup tag htag).2 hc

namespace Lays

theorem key (h : t.Lays registry tags) (htag : tag ∈ tags) : t.key? tag.node =
    some (.of tag.name (tag.attributes.get? "class") (tag.attributes.get? "id")) := by
  rw [key?, h.own tag htag]
  rfl

theorem raw (h : t.Lays registry tags) (htag : tag ∈ tags) : t.raw tag.node =
    (tag.attributes.get? "style").elim .empty fun text =>
      (Declaration.applyInline registry .empty text).2 := by
  rw [StyleTree.raw, h.own tag htag]
  cases hstyle : tag.attributes.get? "style" <;> simp [Tag.own, Builder.tagStyle, hstyle]

theorem parent (h : t.Lays registry tags) (htag : tag ∈ tags) :
    t.parent? tag.node = some tag.parent := by
  rw [parent?, h.own tag htag]
  rfl

theorem seat (h : t.Lays registry tags) (htag : tag ∈ tags) (hc : tag.isContainer = true) :
    t.key? tag.seat = none ∧ t.parent? tag.seat = some tag.node := by
  rw [key?, parent?, h.anonymous tag htag hc]
  exact ⟨rfl, rfl⟩

/-- A tag without another around it is below the root, which has no key. -/
theorem above_root (h : t.Lays registry tags) (htag : tag ∈ tags) (hparent : tag.parent = 0) :
    t.keyedAbove? tag.node = none := by
  rw [keyedAbove?_eq (h.parent htag), hparent, key?, h.root]
  exact keyedAbove?_of_none (by rw [parent?, h.root]; rfl)

/-- The node of a tag is below that of the tag around it, or below the node without a
key that a container has under its own. -/
theorem above_tag (h : t.Lays registry tags) (htag : tag ∈ tags) {o : Tag} (ho : o ∈ tags)
    (hparent : tag.parent = o.seat) : t.keyedAbove? tag.node = some o.node := by
  rw [keyedAbove?_eq (h.parent htag), hparent]
  cases hc : o.isContainer with
  | false =>
    have hself : o.seat = o.node := by simp [Tag.seat, hc]
    rw [hself, h.key ho]
    rfl
  | true =>
    obtain ⟨hnone, hup⟩ := h.seat ho hc
    rw [hnone, keyedAbove?_eq hup, h.key ho]
    rfl

end Lays

end StyleTree

/-! ### The whole document -/

namespace Document

/-- The tags that have nodes in a document of a forest. -/
def tagsOf (f : Forest) : List Tag := f.root.tags .root none 0 1

/-- The texts in a document of a forest, with their nodes. -/
def runsOf (f : Forest) : List (String × Nat) := (f.root.runs .root 0 1 "").1

/-- The nodes of a document are that of the root and those of the tags, and its
elements are the texts and what the tags make. -/
theorem laid_out {number : Nat} {registry : Registry} {source : String} {d : Document}
    (h : ofString number registry source = .ok d) {f : Forest}
    (hf : (EventStream.ofString source).items = f.events) :
    d.styles.nodes.toList = ⟨none, none, .empty⟩ :: (tagsOf f).flatMap (Tag.nodes registry) ∧
      textShapes d.shapes = runsOf f ∧ (partShapes d.shapes).Perm ((tagsOf f).flatMap Tag.made) := by
  obtain ⟨b, hrun, -, hframe, rfl⟩ := exists_of_ofString h
  rw [hf] at hrun
  obtain ⟨b₁, hroot, hdocument⟩ := Builder.run_root f hrun hframe
  obtain ⟨shapes, hadds, htexts, hparts, -⟩ :=
    Builder.mirrors_run f.root none (Builder.inside_inRoot number registry) hroot
  have hshapes : b₁.document.shapes = shapes := hadds.shapes
  rw [hdocument, hshapes]
  exact ⟨hadds.nodes, htexts, hparts⟩

/-- What a document `d` of the text `source` has to do with the tags in it, and with
the texts, each of them under a node. -/
structure Mirrors (registry : Registry) (source : String) (d : Document) (tags : List Tag)
    (runs : List (String × Nat)) : Prop where
  /-- A tag is called what is written, in small letters. -/
  written : ∀ tag ∈ tags, StartsAt source.toList .start tag.position tag.name
  /-- The nodes with keys are those of the tags, one for one and in their order. -/
  keyed : d.styles.keyed = tags.map Tag.node
  key : ∀ tag ∈ tags, d.styles.key? tag.node =
    some (.of tag.name (tag.attributes.get? "class") (tag.attributes.get? "id"))
  raw : ∀ tag ∈ tags, d.styles.raw tag.node = (tag.attributes.get? "style").elim .empty fun text =>
    (Declaration.applyInline registry .empty text).2
  /-- The nearest node with a key above that of a tag is that of the tag around it. -/
  above : ∀ tag ∈ tags, d.styles.keyedAbove? tag.node = tag.outer
  parent : ∀ i p, d.styles.parent? i = some p → p < i
  /-- Under the node of a container is one without a key. -/
  seat : ∀ tag ∈ tags, tag.isContainer = true →
    d.styles.key? tag.seat = none ∧ d.styles.parent? tag.seat = some tag.node
  /-- The elements of texts are the texts, each with the node that it stands under. -/
  texts : textShapes d.shapes = runs
  /-- The other elements are those that the tags make, each with the node of its tag. -/
  parts : (partShapes d.shapes).Perm (tags.flatMap Tag.made)

/-- The tree of styles of every document mirrors its markup. -/
theorem styles_mirror_markup {number : Nat} {registry : Registry} {source : String} {d : Document}
    (h : ofString number registry source = .ok d) :
    (∃ f : Forest, (EventStream.ofString source).items = f.events) ∧
      ∀ f : Forest, (EventStream.ofString source).items = f.events →
        Mirrors registry source d (tagsOf f) (runsOf f) := by
  refine ⟨?_, fun f hf => ?_⟩
  · obtain ⟨_, -, hend, -⟩ := exists_of_ofString h
    exact EventStream.exists_forest hend
  obtain ⟨hnodes, htexts, hparts⟩ := laid_out h hf
  have hlays : d.styles.Lays registry (tagsOf f) :=
    StyleTree.lays (f.root.numbered_tags .root none 0 1) hnodes
  refine ⟨?_, ?_, fun _ => hlays.key, fun _ => hlays.raw, ?_, fun _ _ => StyleTree.lt_of_parent?,
    fun _ => hlays.seat, htexts, hparts⟩
  · intro tag htag
    have hevent : tag.event ∈ f.root.events :=
      (f.root.sublist_tags .root none 0 1).subset (List.mem_map_of_mem htag)
    have hitem : (tag.position, .opened tag.name tag.attributes) ∈
        (EventStream.ofString source).items := hf ▸ f.root_subset hevent
    exact EventStream.exists_written hitem
  · rw [StyleTree.keyed, hnodes]
    exact (f.root.numbered_tags .root none 0 1).keyed
  · intro tag htag
    rcases f.root.around .root none 0 1 tag htag with ⟨houter, hseat⟩ | ⟨o, ho, houter, hseat⟩
    · rw [houter]
      exact hlays.above_root htag hseat
    · rw [houter]
      exact hlays.above_tag htag ho hseat

theorem ofString_list : EventStream.ofString "<html><body><ol><LI>a</LI></ol></body></html>" =
    ⟨[(⟨1, 1⟩, .opened "html" []), (⟨1, 7⟩, .opened "body" []), (⟨1, 13⟩, .opened "ol" []),
      (⟨1, 17⟩, .opened "li" []), (⟨1, 21⟩, .text "a"), (⟨1, 22⟩, .closed "li"),
      (⟨1, 27⟩, .closed "ol"), (⟨1, 32⟩, .closed "body"), (⟨1, 39⟩, .closed "html")], none⟩ := by
  decide +kernel

theorem styles_mirror_list : ∃ d,
    ofString 0 .standard "<html><body><ol><LI>a</LI></ol></body></html>" = .ok d ∧
      d.styles.keyed = [1, 3, 4] ∧ d.styles.keyedAbove? 4 = some 3 ∧
      textShapes d.shapes = [("a", 5)] ∧
      (partShapes d.shapes).Perm [("block", 1), ("ordered-list", 3), ("container", 4)] := by
  obtain ⟨d, hd⟩ : ∃ d,
      ofString 0 .standard "<html><body><ol><LI>a</LI></ol></body></html>" = .ok d :=
    ⟨_, (congrArg (ofEvents 0 .standard) ofString_list).trans rfl⟩
  let item : Forest := .element ⟨1, 17⟩ "li" [] (.text ⟨1, 21⟩ "a" .nil) ⟨1, 22⟩ .nil
  let body : Forest :=
    .element ⟨1, 7⟩ "body" [] (.element ⟨1, 13⟩ "ol" [] item ⟨1, 27⟩ .nil) ⟨1, 32⟩ .nil
  have hmirrors := (styles_mirror_markup hd).2 (.element ⟨1, 1⟩ "html" [] body ⟨1, 39⟩ .nil) (by
    rw [ofString_list]
    rfl)
  have hitem := hmirrors.above ⟨⟨1, 17⟩, "li", [], .list, some 3, 3, 4⟩
    (List.mem_iff_getElem?.2 ⟨2, rfl⟩)
  exact ⟨d, hd, hmirrors.keyed, hitem, hmirrors.texts, hmirrors.parts⟩

end Document

end RichText
