/-
# Documents that are not refused

A builder refuses an element only for its id. In a mild forest (`Forest.Mild`) the ids
are those of containers and lists with numbers, so every element with an id has a tag
of its own, and it is registered where this tag ends. If all these ids are different,
and different from those that are in the index already, then nothing is refused and
the index gains just them (`Builder.exists_run`, by induction on the forest).

A text never has an id: where a builder stands in the content of a mild forest, the
node opened last has none (`Builder.Stands`).

So a page is built whenever the content of its body is mild and all ids there are
different (`Builder.exists_page`), and how many elements it has is read off its markup
(`Forest.count`): where the nodes are in the tree does not matter for that.

Key definitions: `Forest.Mild`, `Forest.ids`, `Document.names`, `Builder.Stands`,
`Builder.Enlists`, `Forest.count`, `Forest.page`.
Key theorems: `Builder.exists_flush`, `Builder.exists_closed`, `Builder.exists_element`,
`Builder.exists_run`, `Builder.size_eq_count`, `Builder.exists_page`.
-/
import RichText.Proofs.IdIndex
import RichText.Proofs.StyleMirror

namespace RichText

open Markup Text
open Builder (containerKind? leafKind? tagKey)

/-! ### Forests with ids at containers only -/

namespace Forest

/-- The ids of the tags, in the order of the text. -/
def ids : Forest → List String
  | nil => []
  | text _ _ rest => rest.ids
  | element _ name attributes inside _ rest =>
    (tagKey name attributes).id.toList ++ (inside.ids ++ rest.ids)

/-- Content in which only containers and lists with numbers have ids, without tables
and without starts of lists; in a list there are items alone. -/
inductive Mild : Region → Forest → Prop
  | nil {region : Region} : Mild region .nil
  | text {p : Position} {s : String} {rest : Forest} (hr : Mild .content rest) :
    Mild .content (.text p s rest)
  | container {p q : Position} {name : String} {attributes : Attributes} {inside rest : Forest}
    {kind : ElementKind} (hk : containerKind? name attributes = some kind)
    (hi : Mild .content inside) (hr : Mild .content rest) :
    Mild .content (.element p name attributes inside q rest)
  | mark {p q : Position} {name : String} {attributes : Attributes} {inside rest : Forest}
    (hn : name ≠ "head" ∧ name ≠ "ol" ∧ name ≠ "table")
    (hk : containerKind? name attributes = none) (hl : leafKind? name attributes = none)
    (hid : (tagKey name attributes).id = none) (hi : Mild .content inside)
    (hr : Mild .content rest) : Mild .content (.element p name attributes inside q rest)
  | list {p q : Position} {attributes : Attributes} {inside rest : Forest}
    (hs : attributes.get? "start" = none) (hi : Mild .list inside) (hr : Mild .content rest) :
    Mild .content (.element p "ol" attributes inside q rest)
  | item {p q : Position} {attributes : Attributes} {inside rest : Forest}
    (hi : Mild .content inside) (hr : Mild .list rest) :
    Mild .list (.element p "li" attributes inside q rest)

end Forest

/-- Inside a container its content goes on. -/
theorem inside_of_containerKind? {name : String} {attributes : Attributes} {kind : ElementKind}
    (hk : containerKind? name attributes = some kind) :
    name ≠ "head" ∧ name ≠ "table" ∧ Region.content.inside name = some .content := by
  have hhead : name ≠ "head" := by
    rintro rfl
    simp [containerKind?, Builder.isHeading] at hk
  obtain ⟨⟨hol, htable⟩, -⟩ := Builder.containerKind?_eq_some hk
  exact ⟨hhead, htable, Region.inside_content hhead hol htable⟩

theorem Frame.eq_root {f : Frame} (h : f.region? = some .root) : f = .root := by
  cases f <;> simp [region?] at h ⊢

theorem Frame.exists_orderedList {f : Frame} (h : f.region? = some .list) :
    ∃ list depth, f = .orderedList list depth := by
  cases f <;> simp [region?] at h ⊢

/-! ### The index -/

/-- The ids in the index. -/
def Document.names (d : Document) : List String := d.ids.map (·.1)

theorem Document.elementById?_eq_none_iff {d : Document} {x : String} :
    d.elementById? x = none ↔ d.names.count x = 0 := by
  rw [elementById?, List.lookup_eq_none_iff, List.count_eq_zero, names, List.mem_map]
  constructor
  · rintro h ⟨entry, hmem, rfl⟩
    simpa using h entry hmem
  · intro h entry hmem
    exact bne_iff_ne.2 fun heq => h ⟨entry, hmem, heq.symm⟩

theorem Document.idOf?_push_self (d : Document) (e : Element) :
    (d.push e).idOf? d.size = (d.styles.key? e.style).bind (·.id) := by
  rw [idOf?, keyOf?, element?_push, if_pos rfl]
  rfl

namespace Builder

variable {b b₁ b₂ b' : Builder} {p q : Position} {name : String} {attributes : Attributes}
  {region : Region} {nodes : List StyleNode} {shapes : List (ElementKind × Nat)}

/-- The index gains the ids `xs`; what the head of the text says stays. -/
structure Enlists (b : Builder) (xs : List String) (b' : Builder) : Prop where
  names : ∀ x, b'.document.names.count x = xs.count x + b.document.names.count x
  links : b'.document.links = b.document.links
  title : b'.document.title = b.document.title

theorem enlists_of_eq (hids : b'.document.ids = b.document.ids)
    (hlinks : b'.document.links = b.document.links)
    (htitle : b'.document.title = b.document.title) : Enlists b [] b' :=
  ⟨fun x => by rw [Document.names, hids, List.count_nil, Nat.zero_add]; rfl, hlinks, htitle⟩

theorem Enlists.trans {xs ys : List String} (h : Enlists b xs b₁) (h' : Enlists b₁ ys b') :
    Enlists b (xs ++ ys) b' := by
  refine ⟨fun x => ?_, h'.links.trans h.links, h'.title.trans h.title⟩
  rw [h'.names, h.names, List.count_append]
  omega

/-- What is added later does not change the ids of elements. -/
theorem Adds.idOf? (h : Adds b nodes shapes b') {waiting : List Nat} (hb : Indexed b waiting)
    {i : Nat} (hi : i < b.document.size) : b'.document.idOf? i = b.document.idOf? i := by
  have hid (d : Document) : d.idOf? i = ((d.shapes[i]?).bind fun shape =>
      (d.styles.nodes.toList[shape.2]?).bind (·.key)).bind (·.id) := by
    rw [Document.idOf?, Document.keyOf?, Document.shapes, List.getElem?_map, Option.bind_map,
      Array.getElem?_toList]
    simp only [StyleTree.key?, StyleTree.node?, Array.getElem?_toList]
    rfl
  obtain ⟨e, he⟩ : ∃ e, b.document.element? i = some e :=
    ⟨_, Array.getElem?_eq_getElem hi⟩
  have hstyle : e.style < b.document.styles.nodes.toList.length := hb.index.styled i e he
  have hshape : b.document.shapes[i]? = some (e.kind, e.style) :=
    Document.getElem?_shapes_eq_some.2 ⟨e, he, rfl, rfl⟩
  have hi' : i < b.document.shapes.length := (List.getElem?_eq_some_iff.1 hshape).1
  rw [hid, hid, h.shapes, h.nodes, List.getElem?_append_left hi', hshape, Option.bind_some,
    Option.bind_some, List.getElem?_append_left hstyle]

/-- An element with a new id is registered. -/
theorem exists_register {i : Nat} {id : Option String} (hid : b.document.idOf? i = id)
    (hfresh : ∀ x ∈ id, b.document.names.count x = 0) :
    ∃ b', b.register i = .ok b' ∧ Enlists b id.toList b' := by
  subst hid
  rcases b.document.register_cases i with ⟨hnone, heq⟩ | ⟨x, hx, ⟨-, heq⟩ | ⟨j, hfound, -⟩⟩
  · rw [hnone]
    exact ⟨b, by rw [register, heq]; rfl, enlists_of_eq rfl rfl rfl⟩
  · refine ⟨{ b with document := { b.document with ids := (x, i) :: b.document.ids } },
      by rw [register, heq]; rfl, fun y => ?_, rfl, rfl⟩
    rw [hx, Option.toList_some, ← List.count_append]
    rfl
  · have hnone := Document.elementById?_eq_none_iff.2 (hfresh x hx)
    simp [hfound] at hnone

theorem enlists_append (b : Builder) (parent : Option Nat) (i : Nat) :
    Enlists b [] (b.append parent i) := by
  cases parent <;> exact enlists_of_eq rfl rfl rfl

theorem exists_add (hstyled : ∀ i e, b.document.element? i = some e → e.style < b.document.styles.size)
    {i : Nat} {id : Option String} (hid : b.document.idOf? i = id)
    (hfresh : ∀ x ∈ id, b.document.names.count x = 0) :
    ∃ b', b.add i = .ok b' ∧ Enlists b id.toList b' := by
  have hsame : (b.append b.container i).document.idOf? i = id := by
    rw [← hid]
    cases b.container with
    | none => rfl
    | some c => exact (b.document.alike_append c i).idOf? hstyled i
  have henlists := enlists_append b b.container i
  obtain ⟨b', hregister, henlists'⟩ := exists_register hsame fun x hx => by
    rw [henlists.names, hfresh x hx]
    rfl
  exact ⟨b', hregister, henlists.trans henlists'⟩

/-! ### Texts -/

/-- The builder stands in a region, with a complete index. What is opened last in the
content of a container has no id. -/
structure Stands (region : Region) (b : Builder) : Prop where
  inside : Inside region b
  indexed : Indexed b []
  silent : region = .content → (b.document.styles.key? b.styles.top).bind (·.id) = none

/-- Behind a forest a builder stands where it stood. -/
theorem Stands.run (h : Stands region b) {f : Forest} (hrun : b.run f.events = .ok b') :
    Stands region b' := by
  obtain ⟨_, hadds, -⟩ := mirrors_run f none h.inside hrun
  refine ⟨inside_run h.inside hrun, indexed_run h.indexed hrun, fun hregion => ?_⟩
  have htop : b.styles.top < b.document.styles.nodes.toList.length := h.inside.top
  rw [← h.silent hregion, (level_run f hrun).styles]
  simp only [StyleTree.key?, StyleTree.node?, ← Array.getElem?_toList, hadds.nodes,
    List.getElem?_append_left htop]

/-- The text gathered becomes an element without an id. -/
theorem exists_flush (h : Stands .content b) : ∃ b', b.flush = .ok b' ∧ Enlists b [] b' := by
  have hnone : (({ b with text := "" } : Builder).make b.styles.top (.text b.text)).document.idOf?
      b.document.size = none := (b.document.idOf?_push_self _).trans (h.silent rfl)
  unfold flush
  simp only [last_make]
  split
  · exact ⟨_, rfl, enlists_of_eq rfl rfl rfl⟩
  · obtain ⟨b₁, hregister, henlists⟩ := exists_register hnone nofun
    have hmake : Enlists b [] (({ b with text := "" } : Builder).make b.styles.top (.text b.text)) :=
      enlists_of_eq rfl rfl rfl
    refine ⟨_, by rw [hregister]; rfl, (hmake.trans henlists).trans (enlists_append _ _ _)⟩

/-! ### Start tags -/

/-- An element has been opened: its content comes next, and what is registered at its
end, if anything is, has the id `id`. -/
structure Awaits (b : Builder) (within : Region) (id : Option String) (b₁ : Builder) : Prop where
  enlists : Enlists b [] b₁
  stands : Stands within b₁
  flat : ∀ list depth, b₁.frame = .orderedList list depth → depth = 0
  pending : b₁.frame.pending = [] ∧ id = none ∨
    ∃ e, b₁.frame.pending = [e] ∧ e < b₁.document.size ∧ b₁.document.idOf? e = id

theorem opened_of_content (h : b.frame.region? = some .content) :
    b.opened p name attributes = b.openContent p name attributes := by
  unfold opened
  cases hf : b.frame <;> simp [hf, Frame.region?] at h ⊢

/-- What a tag has opened stands in its region. -/
theorem Stands.opened {within : Region} (h : Stands region b)
    (hwithin : region.inside name = some within) (hopen : b.opened p name attributes = .ok b₁)
    (hsilent : within = .content → (b₁.document.styles.key? b₁.styles.top).bind (·.id) = none) :
    Stands within b₁ := by
  obtain ⟨_, hentered, -⟩ := opened_adds h.inside hwithin hopen none
  exact ⟨hentered.inside, indexed_opened h.indexed hopen, hsilent⟩

/-- The node opened last has the key that it was opened with. -/
theorem key?_pushNode (b : Builder) (key : Option Key) (raw : Style) :
    (b.pushNode key raw).document.styles.key? (b.pushNode key raw).styles.top = key := by
  rw [StyleTree.key?]
  exact congrArg (Option.bind · _) ((StyleTree.node?_push ..).trans (if_pos rfl))

theorem idOf?_makeTag (b : Builder) (name : String) (attributes : Attributes) (kind : ElementKind) :
    ((b.pushTag name attributes).make b.document.styles.size kind).document.idOf? b.document.size =
      (tagKey name attributes).id := by
  refine ((b.pushTag name attributes).document.idOf?_push_self _).trans ?_
  exact congrArg (Option.bind · _) (b.key?_pushNode (some (tagKey name attributes)) _)

/-- A container that is opened waits with the id of its tag, and there is no id at the
node of its content. -/
theorem awaits_enterContainer (flushed : Builder) (kind : ElementKind) {role : Role}
    (hrole : role ≠ .body) (hflushed : Indexed flushed []) (henlists : Enlists b [] flushed)
    (h : Stands region b) (hwithin : region.inside name = some .content)
    (hopen : b.opened p name attributes = .ok
      (((flushed.pushTag name attributes).make flushed.document.styles.size kind).enterContainer
        flushed.document.size role)) :
    ∃ b₁, b.opened p name attributes = .ok b₁ ∧ Awaits b .content (tagKey name attributes).id b₁ := by
  have hmade := hflushed.makeTag name attributes kind
  have hsilent := congrArg (Option.bind · fun key : Key => key.id) <| key?_pushNode
    ((flushed.pushTag name attributes).make flushed.document.styles.size kind) none .empty
  refine ⟨_, hopen, henlists.trans (enlists_of_eq rfl rfl rfl), h.opened hwithin hopen fun _ => hsilent,
    nofun, .inr ⟨flushed.document.size, ?_, hmade.index.made _ List.mem_cons_self, ?_⟩⟩
  · cases role with
    | body => exact absurd rfl hrole
    | _ => rfl
  · rw [← flushed.idOf?_makeTag name attributes kind]
    exact (Document.alike_pushStyle _ _ none .empty).idOf? hmade.index.styled _

theorem exists_opened_container (h : Stands .content b) {kind : ElementKind}
    (hk : containerKind? name attributes = some kind) :
    ∃ b₁, b.opened p name attributes = .ok b₁ ∧ Awaits b .content (tagKey name attributes).id b₁ := by
  obtain ⟨flushed, hflush, henlists⟩ := exists_flush h
  obtain ⟨hhead, -, hwithin⟩ := inside_of_containerKind? hk
  have hchild : Role.child ≠ .body := by simp
  refine awaits_enterContainer flushed kind hchild (h.indexed.flush hflush) henlists h hwithin ?_
  rw [opened_of_content h.inside.frame, openContent, if_neg hhead]
  simp only [hflush, hk, bind, Except.bind, last_make]
  rfl

theorem exists_opened_item (h : Stands .list b) :
    ∃ b₁, b.opened p "li" attributes = .ok b₁ ∧ Awaits b .content (tagKey "li" attributes).id b₁ := by
  obtain ⟨list, depth, hframe⟩ := Frame.exists_orderedList h.inside.frame
  have hitem : Role.item list ≠ .body := by simp
  refine awaits_enterContainer b .container hitem h.indexed (enlists_of_eq rfl rfl rfl) h rfl ?_
  simp only [opened, hframe, openInList, last_make]
  rfl

theorem exists_opened_list (h : Stands .content b) (hs : attributes.get? "start" = none) :
    ∃ b₁, b.opened p "ol" attributes = .ok b₁ ∧ Awaits b .list (tagKey "ol" attributes).id b₁ := by
  obtain ⟨flushed, hflush, henlists⟩ := exists_flush h
  have hmade := (h.indexed.flush hflush).makeTag "ol" attributes (.orderedList 1)
  have hopen : b.opened p "ol" attributes = .ok
      (((flushed.pushTag "ol" attributes).make flushed.document.styles.size (.orderedList 1)).enter
        (.orderedList flushed.document.size 0)) := by
    have hnone : containerKind? "ol" attributes = none := rfl
    rw [opened_of_content h.inside.frame, openContent, if_neg (by decide)]
    simp only [hflush, hnone, integer, hs, bind, Except.bind, last_make]
    rfl
  refine ⟨_, hopen, henlists.trans (enlists_of_eq rfl rfl rfl), h.opened rfl hopen nofun, ?_,
    .inr ⟨flushed.document.size, rfl, hmade.index.made _ List.mem_cons_self,
      flushed.idOf?_makeTag _ _ _⟩⟩
  rintro list depth ⟨⟩
  rfl

theorem exists_opened_mark (h : Stands .content b)
    (hn : name ≠ "head" ∧ name ≠ "ol" ∧ name ≠ "table") (hk : containerKind? name attributes = none)
    (hl : leafKind? name attributes = none) (hid : (tagKey name attributes).id = none) :
    ∃ b₁, b.opened p name attributes = .ok b₁ ∧ Awaits b .content none b₁ := by
  obtain ⟨flushed, hflush, henlists⟩ := exists_flush h
  have hopen : b.opened p name attributes = .ok ((flushed.pushTag name attributes).enter .inline) := by
    rw [opened_of_content h.inside.frame, openContent, if_neg hn.1]
    simp only [hflush, hk, hl, bind, Except.bind]
    split
    · exact absurd rfl hn.2.1
    · exact absurd rfl hn.2.2
    · rfl
  refine ⟨_, hopen, henlists.trans (enlists_of_eq rfl rfl rfl),
    h.opened (Region.inside_content hn.1 hn.2.1 hn.2.2) hopen fun _ => ?_, nofun, .inl ⟨rfl, rfl⟩⟩
  rw [← hid]
  exact congrArg (Option.bind · _) (flushed.key?_pushNode (some (tagKey name attributes)) _)

/-! ### Ends -/

theorem enlists_of_document (h : b'.document = b.document) : Enlists b [] b' :=
  enlists_of_eq (by rw [h]) (by rw [h]) (by rw [h])

/-- A container that has been left is registered under its id, unless it is a root. -/
theorem exists_settle {element : Nat} {outer : Option Nat} {role : Role} {id : Option String}
    (hstyled : ∀ i e, b.document.element? i = some e → e.style < b.document.styles.size)
    (hpending : (Frame.container element outer role).pending = [] ∧ id = none ∨
      ∃ e, (Frame.container element outer role).pending = [e] ∧ b.document.idOf? e = id)
    (hfresh : ∀ x ∈ id, b.document.names.count x = 0) :
    ∃ b', b.settle element role = .ok b' ∧ Enlists b id.toList b' := by
  by_cases hrole : role = .body
  · obtain rfl : id = none := by simpa [hrole, Frame.pending] using hpending
    exact ⟨b, by rw [hrole]; rfl, enlists_of_document rfl⟩
  have hid : b.document.idOf? element = id := by
    cases role <;> simp_all [Frame.pending]
  obtain ⟨registered, hregister, henlists⟩ := exists_register hid hfresh
  have htrans {b' : Builder} (h : Enlists registered [] b') : Enlists b id.toList b' := by
    simpa using henlists.trans h
  cases role with
  | body => exact absurd rfl hrole
  | child => exact exists_add hstyled hid hfresh
  | item list => exact ⟨_, by rw [settle, hregister]; rfl, htrans (enlists_append _ _ _)⟩
  | cell columns =>
    refine ⟨_, by rw [settle, hregister]; rfl, htrans ?_⟩
    dsimp only
    split <;> exact enlists_of_document rfl

/-- The end of a mark or a container. -/
theorem exists_closed_content {id : Option String} (h : Stands .content b)
    (hpending : b.frame.pending = [] ∧ id = none ∨
      ∃ e, b.frame.pending = [e] ∧ e < b.document.size ∧ b.document.idOf? e = id)
    (hfresh : ∀ x ∈ id, b.document.names.count x = 0) :
    ∃ b', b.closed q name = .ok b' ∧ Enlists b id.toList b' := by
  have hframe := h.inside.frame
  obtain ⟨flushed, hflush, henlists⟩ := exists_flush h
  have hadds := adds_flush (h.inside.container rfl) hflush
  have hfresh' : ∀ x ∈ id, flushed.document.names.count x = 0 := fun x hx => by
    rw [henlists.names, hfresh x hx]
    rfl
  cases hf : b.frame with
  | inline =>
    obtain rfl : id = none := by simpa [hf, Frame.pending] using hpending
    refine ⟨flushed.popNode.leave, by simp only [closed, hf, hflush]; rfl, henlists.trans ?_⟩
    exact enlists_of_document (document_leave _)
  | container element outer role =>
    let left : Builder := { flushed.popNode.popNode.leave with container := outer }
    have hdocument : left.document = flushed.document := document_leave _
    have hpending' : (Frame.container element outer role).pending = [] ∧ id = none ∨
        ∃ e, (Frame.container element outer role).pending = [e] ∧ left.document.idOf? e = id := by
      rw [hf] at hpending
      refine hpending.imp_right ?_
      rintro ⟨e, hpending, hlt, hid⟩
      exact ⟨e, hpending, by rw [hdocument, hadds.idOf? h.indexed hlt, hid]⟩
    obtain ⟨b', hsettle, henlists'⟩ := exists_settle
      (hdocument ▸ (h.indexed.flush hflush).index.styled) hpending' (hdocument ▸ hfresh')
    refine ⟨b', ?_, (henlists.trans (enlists_of_document hdocument)).trans henlists'⟩
    rw [← hsettle]
    simp only [closed, hf, hflush]
    rfl
  | _ => simp [hf, Frame.region?] at hframe

/-- The end of a list. -/
theorem exists_closed_list {id : Option String} (h : Stands .list b)
    (hflat : ∀ list depth, b.frame = .orderedList list depth → depth = 0)
    (hpending : b.frame.pending = [] ∧ id = none ∨
      ∃ e, b.frame.pending = [e] ∧ e < b.document.size ∧ b.document.idOf? e = id)
    (hfresh : ∀ x ∈ id, b.document.names.count x = 0) :
    ∃ b', b.closed q name = .ok b' ∧ Enlists b id.toList b' := by
  obtain ⟨list, depth, hf⟩ := Frame.exists_orderedList h.inside.frame
  obtain rfl := hflat list depth hf
  have hdocument : b.popNode.leave.document = b.document := document_leave _
  have hid : b.popNode.leave.document.idOf? list = id := by
    obtain ⟨-, hid⟩ : list < b.document.size ∧ b.document.idOf? list = id := by
      simpa [hf, Frame.pending] using hpending
    rw [hdocument, hid]
  obtain ⟨b', hadd, henlists⟩ := exists_add (hdocument ▸ h.indexed.index.styled) hid
    (hdocument ▸ hfresh)
  exact ⟨b', by simp only [closed, hf, hadd], (enlists_of_document hdocument).trans henlists⟩

/-- The end of an element registers what waits for it, if its id is new. -/
theorem exists_closed {id : Option String} (h : Stands region b)
    (hregion : region = .content ∨ region = .list)
    (hflat : ∀ list depth, b.frame = .orderedList list depth → depth = 0)
    (hpending : b.frame.pending = [] ∧ id = none ∨
      ∃ e, b.frame.pending = [e] ∧ e < b.document.size ∧ b.document.idOf? e = id)
    (hfresh : ∀ x ∈ id, b.document.names.count x = 0) :
    ∃ b', b.closed q name = .ok b' ∧ Enlists b id.toList b' := by
  rcases hregion with rfl | rfl
  · exact exists_closed_content h hpending hfresh
  · exact exists_closed_list h hflat hpending hfresh

/-! ### Forests -/

theorem run_element_ok {inside rest : Forest} {b₃ : Builder}
    (hopen : b.opened p name attributes = .ok b₁) (hinside : b₁.run inside.events = .ok b₂)
    (hclose : b₂.closed q name = .ok b₃) (hrest : b₃.run rest.events = .ok b') :
    b.run (Forest.element p name attributes inside q rest).events = .ok b' :=
  run_cons_ok.2 ⟨b₁, hopen, run_append_ok.2 ⟨b₂, hinside, run_cons_ok.2 ⟨b₃, hclose, hrest⟩⟩⟩

/-- An element is built if its start tag is and what is inside is, and if the id that
waits for its end is a new one; and what comes behind it goes on from there. -/
theorem exists_element {within : Region} {id : Option String} {inside rest : Forest}
    {xs ys : List String} (h : Stands region b) (hwithin : within = .content ∨ within = .list)
    (hopen : ∃ b₁, b.opened p name attributes = .ok b₁ ∧ Awaits b within id b₁)
    (hinside : ∀ {b}, Stands within b → (∀ x, xs.count x + b.document.names.count x ≤ 1) →
      ∃ b', b.run inside.events = .ok b' ∧ Enlists b xs b')
    (hrest : ∀ {b}, Stands region b → (∀ x, ys.count x + b.document.names.count x ≤ 1) →
      ∃ b', b.run rest.events = .ok b' ∧ Enlists b ys b')
    (hfresh : ∀ x, (id.toList ++ (xs ++ ys)).count x + b.document.names.count x ≤ 1) :
    ∃ b', b.run (Forest.element p name attributes inside q rest).events = .ok b' ∧
      Enlists b (id.toList ++ (xs ++ ys)) b' := by
  simp only [List.count_append] at hfresh
  obtain ⟨b₁, hopen, hawaits⟩ := hopen
  obtain ⟨b₂, hrun₂, henlists₂⟩ := hinside hawaits.stands fun x => by
    have hx := hfresh x
    rw [hawaits.enlists.names, List.count_nil]
    omega
  have hstands₂ := hawaits.stands.run hrun₂
  have hframe : b₂.frame = b₁.frame := by
    have hregion := hawaits.stands.inside.frame
    cases hf : b₁.frame with
    | inline | container | orderedList => exact (hf ▸ (level_run inside hrun₂).frame).cases
    | root | table => rcases hwithin with rfl | rfl <;> simp [hf, Frame.region?] at hregion
    | _ => simp [hf, Frame.region?] at hregion
  obtain ⟨b₃, hclose, henlists₃⟩ : ∃ b₃, b₂.closed q name = .ok b₃ ∧ Enlists b₂ id.toList b₃ := by
    obtain ⟨_, hadds, -⟩ := mirrors_run inside none hawaits.stands.inside hrun₂
    have hsize : b₁.document.size ≤ b₂.document.size := by
      have hlength := congrArg List.length hadds.shapes
      simp only [Document.shapes, List.length_append, List.length_map, Array.length_toList] at hlength
      exact Nat.le.intro hlength.symm
    refine exists_closed hstands₂ hwithin (hframe ▸ hawaits.flat) ?_ fun x hx => ?_
    · rw [hframe]
      refine hawaits.pending.imp_right ?_
      rintro ⟨e, hpending, hlt, hid⟩
      exact ⟨e, hpending, hlt.trans_le hsize, by rw [hadds.idOf? hawaits.stands.indexed hlt, hid]⟩
    · have hx' := hfresh x
      rw [henlists₂.names, hawaits.enlists.names, List.count_nil]
      rw [show id.toList.count x = 1 by simp [Option.mem_def.1 hx]] at hx'
      omega
  have hstands₃ : Stands region b₃ :=
    h.run (f := .element p name attributes inside q .nil) (run_element_ok hopen hrun₂ hclose rfl)
  have henlists : Enlists b (xs ++ id.toList) b₃ := (hawaits.enlists.trans henlists₂).trans henlists₃
  obtain ⟨b', hrun', henlists'⟩ := hrest hstands₃ fun x => by
    have hx := hfresh x
    rw [henlists.names, List.count_append]
    omega
  have hwhole := henlists.trans henlists'
  refine ⟨b', run_element_ok hopen hrun₂ hclose hrun', fun x => ?_, hwhole.links, hwhole.title⟩
  rw [hwhole.names]
  simp only [List.count_append]
  omega

/-- Nothing in a mild forest is refused, if all its ids are new and different. -/
theorem exists_run {f : Forest} (hf : f.Mild region) : ∀ {b : Builder}, Stands region b →
    (∀ x, f.ids.count x + b.document.names.count x ≤ 1) →
      ∃ b', b.run f.events = .ok b' ∧ Enlists b f.ids b' := by
  induction hf with
  | nil => exact fun _ _ => ⟨_, rfl, enlists_of_document rfl⟩
  | @text p s rest _ ih =>
    intro b h hfresh
    have htext : b.textRead p s = .ok { b with text := b.text ++ s } := by
      have hregion := h.inside.frame
      cases hf : b.frame <;> simp [hf, Frame.region?, textRead] at hregion ⊢
    have hstands : Stands .content { b with text := b.text ++ s } :=
      h.run (f := .text p s .nil) (run_cons_ok.2 ⟨_, htext, rfl⟩)
    obtain ⟨b', hrun, henlists⟩ := ih hstands hfresh
    exact ⟨b', run_cons_ok.2 ⟨_, htext, hrun⟩, ⟨henlists.names, henlists.links, henlists.title⟩⟩
  | container hk _ _ ihi ihr =>
    exact fun h => exists_element h (.inl rfl) (exists_opened_container h hk) ihi ihr
  | mark hn hk hl hid _ _ ihi ihr =>
    intro b h hfresh
    rw [Forest.ids, hid] at hfresh ⊢
    exact exists_element h (.inl rfl) (exists_opened_mark h hn hk hl hid) ihi ihr hfresh
  | list hs _ _ ihi ihr =>
    exact fun h => exists_element h (.inr rfl) (exists_opened_list h hs) ihi ihr
  | item _ _ ihi ihr =>
    exact fun h => exists_element h (.inl rfl) (exists_opened_item h) ihi ihr

end Builder

/-! ### The number of elements -/

/-- Whether a text becomes an element, as a number. -/
def keptCount (s : String) : Nat := if allBlank s.toList then 0 else 1

theorem keptCount_empty : keptCount "" = 0 := rfl

theorem length_keptText (s : String) (seat : Nat) : (keptText s seat).length = keptCount s := by
  unfold keptText keptCount
  split <;> rfl

/-- The number of elements that a tag makes. -/
def madeCount (region : Region) (name : String) (attributes : Attributes) : Nat :=
  (Tag.made ⟨.start, name, attributes, region, none, 0, 0⟩).length

/-- The number of elements that a forest makes in a region, and the text that is
gathered at its end; `seen` is gathered before it. -/
def Forest.count : Forest → Region → (seen : String) → Nat × String
  | nil, _, seen => (0, seen)
  | text _ s rest, region, seen => rest.count region (if region = .content then seen ++ s else seen)
  | element _ name attributes inside _ rest, region, seen =>
    match region.inside name with
    | none => rest.count region seen
    | some within =>
      let found := inside.count within ""
      let more := rest.count region ""
      (keptCount seen + madeCount region name attributes + found.1 + keptCount found.2 + more.1,
        more.2)

theorem length_made (t : Tag) : t.made.length = madeCount t.region t.name t.attributes := by
  unfold madeCount Tag.made
  rw [Option.length_toList, Option.length_toList]
  simp [Tag.kindName?]

/-- How many elements a forest makes does not depend on the numbers of its nodes. -/
theorem Forest.count_eq : ∀ (f : Forest) (region : Region) (outer : Option Nat) (seat next : Nat)
    (seen : String), f.count region seen = ((f.runs region seat next seen).1.length +
      ((f.tags region outer seat next).flatMap Tag.made).length, (f.runs region seat next seen).2)
  | nil, _, _, _, _, _ => rfl
  | text _ _ rest, region, outer, seat, next, seen => rest.count_eq region outer seat next _
  | element p name attributes inside _ rest, region, outer, seat, next, seen => by
    unfold count runs tags
    cases region.inside name with
    | none => exact rest.count_eq region outer seat next seen
    | some within =>
      obtain ⟨tag, htag⟩ : ∃ tag : Tag, tag = ⟨p, name, attributes, region, outer, seat, next⟩ :=
        ⟨_, rfl⟩
      have hseat : (⟨p, name, attributes, region, none, seat, next⟩ : Tag).seat = tag.seat := by
        rw [htag]
        rfl
      have hmade : tag.made.length = madeCount region name attributes := by rw [length_made, htag]
      have hinside := inside.count_eq within (some next) tag.seat
        (next + region.nodeCount name attributes) ""
      have hrest := rest.count_eq region outer seat
        (next + region.nodeCount name attributes + inside.nodeCount within) ""
      dsimp only
      rw [hinside, hrest, hseat, ← htag]
      simp only [List.length_append, List.flatMap_cons, List.flatMap_append, length_keptText,
        Prod.mk.injEq, and_true]
      omega

theorem length_shapes : ∀ shapes : List (ElementKind × Nat),
    shapes.length = (textShapes shapes).length + (partShapes shapes).length
  | [] => rfl
  | (kind, node) :: shapes => by
    have hmore := length_shapes shapes
    cases kind <;> simp [textShapes, partShapes] at hmore ⊢ <;> omega

/-- A document with a title and a body. -/
def Forest.page (title : String) (content : Forest) : Forest :=
  .element .start "html" []
    (.element .start "head" [] (.element .start "title" [] (.text .start title .nil) .start .nil)
      .start (.element .start "body" [] content .start .nil)) .start .nil

theorem Forest.count_page (title : String) (content : Forest) :
    (page title content).root.count .root "" =
      (1 + (content.count .content "").1 + keptCount (content.count .content "").2, "") := by
  have hmade : madeCount .root "body" [] = 1 := rfl
  simp [page, root, count, Region.inside, keptCount_empty, hmade]

namespace Builder

variable {b b' : Builder} {p : Position} {region : Region}

theorem size_eq_count (hin : Inside region b) {f : Forest} (hrun : b.run f.events = .ok b') :
    b'.document.size = b.document.size + (f.count region b.text).1 := by
  obtain ⟨shapes, hadds, htexts, hparts, -⟩ := mirrors_run f none hin hrun
  have hlength := congrArg List.length hadds.shapes
  simp only [Document.shapes, List.length_append, List.length_map, Array.length_toList] at hlength
  rw [f.count_eq region none b.styles.top b.document.styles.size, ← htexts, ← hparts.length_eq,
    ← length_shapes]
  exact hlength

/-! ### Whole documents -/

/-- A body without attributes. -/
theorem exists_opened_body (h : Stands .root b) :
    ∃ b₁, b.opened p "body" [] = .ok b₁ ∧ Awaits b .content none b₁ := by
  let made : Builder := (b.pushTag "body" []).make b.document.styles.size .block
  let rooted : Builder := { made with document := made.document.addRoot b.document.size }
  have hid : rooted.document.idOf? b.document.size = none := b.idOf?_makeTag "body" [] .block
  obtain ⟨registered, hregister, henlists⟩ := exists_register hid (by simp)
  have hopen : b.opened p "body" [] = .ok (registered.enterContainer b.document.size .body) := by
    have hframe : b.frame = .root := Frame.eq_root h.inside.frame
    have hlast : registered.last = b.document.size := by
      obtain ⟨ids, rfl⟩ := register_eq hregister
      exact last_make (b.pushTag "body" []) _ _
    have hregister' : register { made with document := made.document.addRoot made.last } made.last =
        .ok registered := by
      rw [last_make]
      exact hregister
    simp only [opened, hframe, openInRoot]
    rw [← hlast]
    exact congrArg (Except.bind · _) hregister'
  have henlists' : Enlists b [] rooted := enlists_of_eq rfl rfl rfl
  refine ⟨_, hopen, (henlists'.trans henlists).trans (enlists_of_eq rfl rfl rfl),
    h.opened rfl hopen fun _ => ?_, ?_, .inl ⟨rfl, rfl⟩⟩
  · exact congrArg (Option.bind · _) (registered.key?_pushNode none .empty)
  · rintro list depth ⟨⟩

/-- A body is built where the root goes on, if its content is mild and its ids are new. -/
theorem exists_run_body (h : Stands .root b) {content : Forest} (hmild : content.Mild .content)
    (hfresh : ∀ x, content.ids.count x + b.document.names.count x ≤ 1) :
    ∃ b', b.run (Forest.element .start "body" [] content .start .nil).events = .ok b' ∧
      Enlists b content.ids b' := by
  have hbuilt : ∃ b', b.run (Forest.element .start "body" [] content .start .nil).events = .ok b' ∧
      Enlists b (content.ids ++ []) b' :=
    exists_element h (.inl rfl) (exists_opened_body h) (exists_run hmild)
      (fun _ _ => ⟨_, rfl, enlists_of_document rfl⟩) fun x => by
        rw [List.append_nil]
        exact hfresh x
  rwa [List.append_nil] at hbuilt

/-- Behind a head with a title the root goes on. -/
theorem exists_run_head (hframe : b.frame = .root) (title : String) : ∃ b',
    b.run (Forest.element .start "head" []
      (.element .start "title" [] (.text .start title .nil) .start .nil) .start .nil).events = .ok b' ∧
    b'.document = b.document.setTitle (String.ofList (trim title.toList)) := by
  obtain ⟨document, styles, text, container, frame, outer⟩ := b
  obtain rfl : frame = .root := hframe
  refine ⟨_, rfl, ?_⟩
  conv_rhs => rw [← String.empty_append (s := title)]
  rfl

/-- A page is built, if the content of its body is mild and all ids there are
different. -/
theorem exists_page (number : Nat) (registry : Registry) (title : String) {content : Forest}
    (hmild : content.Mild .content) (hids : content.ids.Nodup) :
    ∃ b, (start number registry).run (Forest.page title content).events = .ok b ∧
      b.frame = .epilog ∧ b.document.title = some (String.ofList (trim title.toList)) ∧
        b.document.links = [] ∧ (∀ x, b.document.names.count x = content.ids.count x) ∧
          b.document.size = 1 + (content.count .content "").1 +
            keptCount (content.count .content "").2 := by
  have hopen : (start number registry).opened .start "html" [] = .ok (inRoot number registry) := rfl
  have hstands : Stands .root (inRoot number registry) :=
    ⟨inside_inRoot number registry, indexed_opened (indexed_start number registry) hopen, nofun⟩
  obtain ⟨b₁, hhead, htitled⟩ := exists_run_head (b := inRoot number registry) rfl title
  have hnames : b₁.document.names = [] := by
    rw [htitled]
    rfl
  obtain ⟨b₂, hbody, henlists⟩ := exists_run_body (hstands.run hhead) hmild fun x => by
    rw [hnames]
    exact List.nodup_iff_count_le_one.1 hids x
  have hroot : (inRoot number registry).run (Forest.page title content).root.events = .ok b₂ := by
    simpa [Forest.page, Forest.root, Forest.events] using run_append_ok.2 ⟨_, hhead, hbody⟩
  have hlevel := level_run _ hroot
  have hclose : b₂.closed .start "html" = .ok { b₂ with frame := .epilog, outer := [] } := by
    have hframe : b₂.frame = .root := hlevel.frame.cases
    simp only [closed, hframe]
    exact congrArg Except.ok (leave_eq hlevel.outer)
  have hsize : b₂.document.size =
      0 + ((Forest.page title content).root.count .root "").1 :=
    size_eq_count (inside_inRoot number registry) hroot
  refine ⟨_, run_element_ok hopen hroot hclose rfl, rfl, henlists.title.trans ?_,
    henlists.links.trans ?_, fun x => ?_, hsize.trans ?_⟩
  · rw [htitled]
    rfl
  · rw [htitled]
    rfl
  · rw [henlists.names, hnames]
    rfl
  · rw [Forest.count_page, Nat.zero_add]

end Builder

end RichText
