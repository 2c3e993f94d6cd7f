/-
# What tags and ends add to a document

An event adds nodes to the tree of styles and elements to the store; elements are
seen here only by their kinds and their nodes (`Document.shapes`), so it does not
matter which of them are attached to which. `Builder.opened_adds` says what a
start tag adds in any region and `Builder.closed_adds` what an end adds. A table is
the only element that is made at its end; until then the frame owes it
(`Builder.owed`).

Key definitions: `Document.shapes`, `Builder.Adds`, `Builder.Inside`,
`Builder.Opened`, `Builder.owed`.
Key theorems: `Builder.opened_adds`, `Builder.closed_adds`.
-/
import RichText.Proofs.Tags

namespace RichText

open Markup Text

/-! ### What is added to a document -/

/-- The elements of a document, each by its kind and its node. -/
def Document.shapes (d : Document) : List (ElementKind × Nat) :=
  d.elements.toList.map fun e => (e.kind, e.style)

theorem Document.shapes_push (d : Document) (e : Element) :
    (d.push e).shapes = d.shapes ++ [(e.kind, e.style)] := by
  simp [shapes, push]

/-- An element that gets a child keeps its kind and its node. -/
theorem Document.shapes_append (d : Document) (parent child : Nat) :
    (d.append parent child).shapes = d.shapes := by
  apply List.ext_getElem?
  intro i
  have h := d.element?_append parent child i
  simp only [element?] at h
  simp only [shapes, List.getElem?_map, Array.getElem?_toList, h]
  split
  · cases d.elements[i]? with
    | none => rfl
    | some e =>
      simp only [Option.map_some]
      split <;> rfl
  · rfl

/-- The texts among elements, with their nodes. -/
def textShapes (shapes : List (ElementKind × Nat)) : List (String × Nat) :=
  shapes.filterMap fun
    | (.text s, node) => some (s, node)
    | _ => none

/-- The other elements, by the names of their kinds. -/
def partShapes (shapes : List (ElementKind × Nat)) : List (String × Nat) :=
  shapes.filterMap fun
    | (.text _, _) => none
    | (kind, node) => some (kind.name, node)

theorem Document.getElem?_shapes_eq_some {d : Document} {i node : Nat} {kind : ElementKind} :
    d.shapes[i]? = some (kind, node) ↔
      ∃ e, d.element? i = some e ∧ e.kind = kind ∧ e.style = node := by
  simp [shapes, element?]

theorem textShapes_append (s t : List (ElementKind × Nat)) :
    textShapes (s ++ t) = textShapes s ++ textShapes t :=
  List.filterMap_append

theorem partShapes_append (s t : List (ElementKind × Nat)) :
    partShapes (s ++ t) = partShapes s ++ partShapes t :=
  List.filterMap_append

/-- The element of a text under a node, unless the text is blank. -/
def keptShape (s : String) (seat : Nat) : List (ElementKind × Nat) :=
  (keptText s seat).map fun run => (.text run.1, run.2)

theorem textShapes_keptShape (s : String) (seat : Nat) :
    textShapes (keptShape s seat) = keptText s seat := by
  unfold keptShape keptText
  split <;> rfl

theorem partShapes_keptShape (s : String) (seat : Nat) : partShapes (keptShape s seat) = [] := by
  unfold keptShape keptText
  split <;> rfl

namespace Builder

variable {b b₁ b₂ b' : Builder} {p : Position} {name : String} {attributes : Attributes}

/-- The values that styles of a builder's document are about. -/
abbrev registry (b : Builder) : Registry := b.document.styles.registry

/-- All that `b'` has more than `b`: nodes, and elements by their kinds and nodes. -/
structure Adds (b : Builder) (nodes : List StyleNode) (shapes : List (ElementKind × Nat))
    (b' : Builder) : Prop where
  registry : b'.registry = b.registry
  nodes : b'.document.styles.nodes.toList = b.document.styles.nodes.toList ++ nodes
  shapes : b'.document.shapes = b.document.shapes ++ shapes

variable {nodes nodes' : List StyleNode} {shapes shapes' : List (ElementKind × Nat)}

theorem Adds.refl (b : Builder) : Adds b [] [] b := ⟨rfl, by simp, by simp⟩

theorem Adds.trans (h : Adds b nodes shapes b₁) (h' : Adds b₁ nodes' shapes' b') :
    Adds b (nodes ++ nodes') (shapes ++ shapes') b' :=
  ⟨h'.registry.trans h.registry, by rw [h'.nodes, h.nodes, List.append_assoc],
    by rw [h'.shapes, h.shapes, List.append_assoc]⟩

theorem Adds.size (h : Adds b nodes shapes b') :
    b'.document.styles.size = b.document.styles.size + nodes.length := by
  have hlength := congrArg List.length h.nodes
  simpa [StyleTree.size] using hlength

/-- Only the tree of styles and the elements count. -/
theorem adds_of_eq (htree : b'.document.styles = b.document.styles)
    (hshapes : b'.document.shapes = b.document.shapes) : Adds b [] [] b' :=
  ⟨by rw [registry, htree], by simp [htree], by simp [hshapes]⟩

theorem adds_of_document (h : b'.document = b.document) : Adds b [] [] b' :=
  adds_of_eq (by rw [h]) (by rw [h])

theorem Still.adds (h : Still b b') : Adds b [] [] b' :=
  adds_of_eq h.tree (by rw [Document.shapes, h.elements]; rfl)

theorem adds_pushNode (b : Builder) (key : Option Key) (raw : Style)
    (htop : b.styles.top < b.document.styles.size) :
    Adds b [⟨some b.styles.top, key, raw⟩] [] (b.pushNode key raw) := by
  refine ⟨rfl, ?_, by simp [pushNode, Document.pushStyle, Document.shapes]⟩
  simp [pushNode, Document.pushStyle, StyleTree.push, Option.filter, htop]

theorem adds_make (b : Builder) (style : Nat) (kind : ElementKind) :
    Adds b [] [(kind, style)] (b.make style kind) :=
  ⟨rfl, by simp [make, Document.push], b.document.shapes_push _⟩

theorem adds_register {i : Nat} (h : b.register i = .ok b') : Adds b [] [] b' := by
  obtain ⟨ids, rfl⟩ := register_eq h
  exact adds_of_eq rfl rfl

theorem adds_append (b : Builder) (parent : Option Nat) (i : Nat) :
    Adds b [] [] (b.append parent i) := by
  cases parent with
  | none => exact .refl b
  | some parent => exact adds_of_eq rfl (b.document.shapes_append parent i)

theorem adds_add {i : Nat} (h : b.add i = .ok b') : Adds b [] [] b' :=
  (b.adds_append b.container i).trans (adds_register h)

theorem adds_flush (hcontainer : b.container.isSome) (h : b.flush = .ok b') :
    Adds b [] (keptShape b.text b.styles.top) b' := by
  cases flushes h with
  | dropped hdrop =>
    have hblank : allBlank b.text.toList = true := by
      rcases hdrop with hnone | hblank
      · simp [hnone] at hcontainer
      · exact hblank
    have hkept : keptShape b.text b.styles.top = [] := by simp [keptShape, keptText, hblank]
    rw [hkept]
    exact adds_of_eq rfl rfl
  | element hc hblank ids =>
    refine ⟨rfl, by simp [Document.append, Document.push], ?_⟩
    have hshapes := (b.document.push
      { style := b.styles.top, kind := .text b.text }).shapes_append ‹Nat› b.document.size
    simp only [keptShape, keptText, hblank]
    exact hshapes.trans (b.document.shapes_push _)

theorem Settles.adds {element : Nat} {role : Role} (h : Settles b element role b') :
    Adds b [] [] b' := by
  cases h with
  | body => exact .refl b
  | child h => exact adds_add h
  | item list h => exact (adds_register h).trans (adds_append _ _ _)
  | cell columns h hframe =>
    refine (adds_register h).trans ?_
    exact adds_of_eq rfl rfl
  | loose columns h => exact adds_register h

/-! ### What a start tag adds -/

/-- The builder reads a region. -/
structure Inside (region : Region) (b : Builder) : Prop where
  frame : b.frame.region? = some region
  top : b.styles.top < b.document.styles.size
  container : region = .content → b.container.isSome = true
  text : region ≠ .content → b.text = ""

theorem Inside.level {region : Region} (h : Inside region b) (hlevel : Level b b')
    (hadds : Adds b nodes shapes b') (htext : region ≠ .content → b'.text = "") :
    Inside region b' where
  frame := hlevel.frame.region?_eq.trans h.frame
  top := by
    rw [hlevel.styles, hadds.size]
    exact Nat.lt_add_right _ h.top
  container hregion := hlevel.container ▸ h.container hregion
  text := htext

/-- A text does not lead out of a region. -/
theorem Inside.textRead {region : Region} {s : String} (h : Inside region b)
    (htext : b.textRead p s = .ok b') : Inside region b' := by
  obtain rfl := textRead_of_region h.frame htext
  exact ⟨h.frame, h.top, h.container, fun hregion => by simp [hregion, h.text hregion]⟩

/-- The tag comes next. -/
structure Comes (b : Builder) (tag : Tag) : Prop where
  parent : tag.parent = b.styles.top
  node : tag.node = b.document.styles.size
  top : b.styles.top < b.document.styles.size
  text : b.text = ""

/-- The tag has been read; `shapes` are the elements made. -/
structure Entered (b : Builder) (tag : Tag) (within : Region)
    (shapes : List (ElementKind × Nat)) (b' : Builder) : Prop where
  adds : Adds b (tag.nodes b.registry) shapes b'
  inside : Inside within b'
  seat : b'.styles.top = tag.seat
  text : b'.text = ""

variable {tag : Tag}

theorem Entered.size {within : Region} (h : Entered b tag within shapes b') :
    b'.document.styles.size = b.document.styles.size + tag.count := by
  rw [h.adds.size, Tag.length_nodes]

theorem Comes.adds_pushTag (h : Comes b tag) :
    Adds b [⟨some tag.parent, some (tagKey tag.name tag.attributes),
      tagStyle b.registry tag.attributes⟩] [] (b.pushTag tag.name tag.attributes) := by
  rw [h.parent]
  exact b.adds_pushNode _ _ h.top

theorem Comes.entered_container (h : Comes b tag) (hc : tag.isContainer = true)
    (hadds : Adds (b.pushTag tag.name tag.attributes) [] shapes b₁)
    (hstyles : b₁.styles = b.styles.push b.document.styles.size) (htext : b₁.text = "")
    (element : Nat) (role : Role) :
    Entered b tag .content shapes (b₁.enterContainer element role) := by
  have hwhole := h.adds_pushTag.trans hadds
  have hsize : b₁.document.styles.size = b.document.styles.size + 1 := hwhole.size
  have htop : b₁.styles.top = tag.node := by rw [hstyles, h.node]; rfl
  have hlt : b₁.styles.top < b₁.document.styles.size := by
    rw [htop, h.node, hsize]
    exact Nat.lt_succ_self _
  have hanonymous := b₁.adds_pushNode none .empty hlt
  refine ⟨?_, ⟨rfl, ?_, fun _ => rfl, nofun⟩, ?_, htext⟩
  · have hnodes : tag.nodes b.registry = [⟨some tag.parent, some (tagKey tag.name tag.attributes),
        tagStyle b.registry tag.attributes⟩] ++ [] ++ [⟨some b₁.styles.top, none, .empty⟩] := by
      simp [Tag.nodes, Tag.own, hc, htop]
    have hadds' := hwhole.trans hanonymous
    rw [hnodes]
    simpa using (show Adds b _ _ (b₁.enterContainer element role) from
      ⟨hadds'.registry, hadds'.nodes, hadds'.shapes⟩)
  · show b₁.document.styles.size < (b₁.pushNode none .empty).document.styles.size
    rw [hanonymous.size]
    exact Nat.lt_succ_self _
  · show b₁.document.styles.size = tag.seat
    rw [hsize, Tag.seat, if_pos hc, h.node]

theorem Comes.entered (h : Comes b tag) (hc : tag.isContainer = false) {within : Region}
    (hadds : Adds (b.pushTag tag.name tag.attributes) [] shapes b₁)
    (hstyles : b₁.styles = b.styles.push b.document.styles.size) (htext : b₁.text = "")
    (hframe : b₁.frame.region? = some within)
    (hcontainer : within = .content → b₁.container.isSome = true) :
    Entered b tag within shapes b₁ := by
  have hwhole := h.adds_pushTag.trans hadds
  have htop : b₁.styles.top = tag.node := by rw [hstyles, h.node]; rfl
  refine ⟨?_, ⟨hframe, ?_, hcontainer, fun _ => htext⟩, ?_, htext⟩
  · simpa [Tag.nodes, Tag.own, hc] using hwhole
  · rw [htop, h.node, hwhole.size]
    exact Nat.lt_succ_self _
  · simpa [Tag.seat, hc] using htop

/-- The table that is made at the end of a frame. -/
def owed : Frame → List (String × Nat)
  | .table draft 0 => [("table", draft.style)]
  | _ => []

theorem owed_follows {f g : Frame} (h : f.Follows g) : owed g = owed f := by
  cases h with
  | table t t' depth h => cases depth <;> simp [owed, h]
  | _ => rfl

/-- An element that is no text. -/
theorem textShapes_part {kind : ElementKind} (h : ∀ s, kind ≠ .text s) (node : Nat) :
    textShapes [(kind, node)] = [] ∧ partShapes [(kind, node)] = [(kind.name, node)] := by
  cases kind with
  | text s => exact absurd rfl (h s)
  | _ => exact ⟨rfl, rfl⟩

theorem ne_text_of_hasChildren {kind : ElementKind} (h : kind.hasChildren = true) (s : String) :
    kind ≠ .text s := by
  rintro rfl
  nomatch h

theorem Entered.behind {flushed : Builder} {within : Region} (hadds : Adds b [] shapes flushed)
    (h : Entered flushed tag within shapes' b') : Entered b tag within (shapes ++ shapes') b' := by
  refine ⟨?_, h.inside, h.seat, h.text⟩
  have hwhole := hadds.trans h.adds
  rwa [hadds.registry, List.nil_append] at hwhole

/-- All that a start tag adds: the text before it, its nodes, and the element that
it makes, unless that is a table. -/
def Opened (b : Builder) (tag : Tag) (within : Region) (b₁ : Builder) : Prop :=
  ∃ shapes, Entered b tag within (keptShape b.text b.styles.top ++ shapes) b₁ ∧
    textShapes shapes = [] ∧ partShapes shapes ++ owed b₁.frame = tag.made

/-- The text before a tag in a container is an element before the tag is one. -/
theorem comes_flush {flushed : Builder} (hin : Inside .content b)
    (hparent : tag.parent = b.styles.top) (hnode : tag.node = b.document.styles.size)
    (hf : b.flush = .ok flushed) : Comes flushed tag ∧
      Adds b [] (keptShape b.text b.styles.top) flushed ∧ flushed.container.isSome = true := by
  have hkept := (flushes hf).kept
  have htop := hin.top
  refine ⟨⟨?_, ?_, ?_, (flushes hf).text⟩, adds_flush (hin.container rfl) hf, ?_⟩
  · rw [hkept.styles, hparent]
  · rw [hkept.tree, hnode]
  · rwa [hkept.styles, hkept.tree]
  · rw [hkept.container]
    exact hin.container rfl

theorem opened_content {within : Region} (hin : Inside .content b)
    (hparent : tag.parent = b.styles.top) (hnode : tag.node = b.document.styles.size)
    (hregion : tag.region = .content) (hwithin : Region.content.inside tag.name = some within)
    (h : OpensContent b tag.name tag.attributes b₁) : Opened b tag within b₁ := by
  have comes {flushed : Builder} (hf : b.flush = .ok flushed) := comes_flush hin hparent hnode hf
  cases h with
  | head hn => simp [Region.inside, hn] at hwithin
  | @container hn flushed hf kind hk =>
    obtain ⟨hcomes, hadds, -⟩ := comes hf
    obtain ⟨⟨hol, htable⟩, hchildren⟩ := containerKind?_eq_some hk
    obtain rfl : Region.content = within := by
      simpa [Region.inside_content hn hol htable] using hwithin
    have hc : tag.isContainer = true := by simp [Tag.isContainer_content hregion, hk]
    have hmake := adds_make (flushed.pushTag tag.name tag.attributes) flushed.document.styles.size kind
    obtain ⟨ht, hp⟩ := textShapes_part (ne_text_of_hasChildren hchildren)
      flushed.document.styles.size
    refine ⟨_, (hcomes.entered_container hc hmake rfl hcomes.text _ _).behind hadds, ht, ?_⟩
    rw [hp, ← hcomes.node]
    simp [owed, enterContainer, enter, Tag.made, Tag.kindName?, hregion, hol, htable, hk]
  | @orderedList hn flushed hf start =>
    obtain ⟨hcomes, hadds, -⟩ := comes hf
    obtain rfl : Region.list = within := by simpa [Region.inside, hn] using hwithin
    have hc : tag.isContainer = false := by
      simp [Tag.isContainer_content hregion, hn, containerKind?, isHeading]
    have hmake := adds_make (flushed.pushTag tag.name tag.attributes) flushed.document.styles.size
      (.orderedList start)
    refine ⟨[(.orderedList start, flushed.document.styles.size)], .behind hadds ?_, rfl, ?_⟩
    · exact hcomes.entered hc ⟨hmake.registry, hmake.nodes, hmake.shapes⟩ rfl hcomes.text rfl
        fun h => absurd h (by decide)
    · simp [owed, enter, Tag.made, Tag.kindName?, hregion, hn, partShapes, ElementKind.name,
        hcomes.node]
  | @table hn flushed hf spacing padding =>
    obtain ⟨hcomes, hadds, -⟩ := comes hf
    obtain rfl : Region.table = within := by simpa [Region.inside, hn] using hwithin
    have hc : tag.isContainer = false := by
      simp [Tag.isContainer_content hregion, hn, containerKind?, isHeading]
    refine ⟨[], .behind hadds ?_, rfl, ?_⟩
    · exact hcomes.entered hc (adds_of_eq rfl rfl) rfl hcomes.text rfl
        fun h => absurd h (by decide)
    · simp [owed, enter, Tag.made, Tag.kindName?, hregion, hn, partShapes, hcomes.node]
  | @leaf flushed added hf kind hk ha =>
    obtain ⟨hcomes, hadds, hcontainer⟩ := comes hf
    obtain ⟨⟨hol, htable, hno⟩, htext⟩ := leafKind?_eq_some hk
    have hhead : tag.name ≠ "head" := by
      intro hhead
      simp [Region.inside, hhead] at hwithin
    obtain rfl : Region.content = within := by
      simpa [Region.inside_content hhead hol htable] using hwithin
    have hc : tag.isContainer = false := by
      simp [Tag.isContainer_content hregion, hno]
    have hmake := (adds_make (flushed.pushTag tag.name tag.attributes)
      flushed.document.styles.size kind).trans (adds_add ha)
    have hkept := kept_add ha
    obtain ⟨ht, hp⟩ := textShapes_part htext flushed.document.styles.size
    refine ⟨[(kind, flushed.document.styles.size)], .behind hadds ?_, ht, ?_⟩
    · exact hcomes.entered hc ⟨hmake.registry, hmake.nodes, hmake.shapes⟩ hkept.styles
        ((text_add ha).trans hcomes.text) rfl fun _ => hkept.container ▸ hcontainer
    · rw [hp, ← hcomes.node]
      simp [owed, enter, Tag.made, Tag.kindName?, hregion, hol, htable, hno, hk]
  | @inline hn flushed hf hk hl =>
    obtain ⟨hcomes, hadds, hcontainer⟩ := comes hf
    obtain ⟨hhead, hol, htable⟩ := hn
    obtain rfl : Region.content = within := by
      simpa [Region.inside_content hhead hol htable] using hwithin
    have hc : tag.isContainer = false := by
      simp [Tag.isContainer_content hregion, hk]
    refine ⟨[], .behind hadds ?_, rfl, ?_⟩
    · exact hcomes.entered hc (adds_of_eq rfl rfl) rfl hcomes.text rfl fun _ => hcontainer
    · simp [owed, enter, Tag.made, Tag.kindName?, hregion, hol, htable, hk, hl, partShapes]

/-- Outside the content of containers no text waits for a tag. -/
theorem opened_silent {within : Region} (htext : b.text = "")
    (h : Entered b tag within shapes b₁) (ht : textShapes shapes = [])
    (hp : partShapes shapes ++ owed b₁.frame = tag.made) : Opened b tag within b₁ := by
  refine ⟨shapes, ?_, ht, hp⟩
  rw [htext]
  exact h

theorem opened_root {within : Region} (hcomes : Comes b tag) (hregion : tag.region = .root)
    (hwithin : Region.root.inside tag.name = some within)
    (h : OpensRoot b tag.name tag.attributes b₁) : Opened b tag within b₁ := by
  cases h with
  | head hn => simp [Region.inside, hn] at hwithin
  | body hn hm hr =>
    obtain rfl : Region.content = within := by simpa [Region.inside, hn] using hwithin
    have hc : tag.isContainer = true := by simp [Tag.isContainer, hregion, Region.isContainer, hn]
    have hmake := adds_make (b.pushTag tag.name tag.attributes) b.document.styles.size .block
    have hregister := adds_register hr
    subst hm
    have hadds := hmake.trans ⟨hregister.registry, hregister.nodes, hregister.shapes⟩
    refine opened_silent hcomes.text
      (hcomes.entered_container hc hadds (kept_register hr).styles
        ((text_register hr).trans hcomes.text) _ _) rfl ?_
    simp [owed, enterContainer, enter, Tag.made, Tag.kindName?, hregion, partShapes,
      ElementKind.name, hcomes.node]
  | skipped hn => simp [Region.inside, hn.2] at hwithin

theorem opened_list {within : Region} {list depth : Nat} (hcomes : Comes b tag)
    (hregion : tag.region = .list) (hwithin : Region.list.inside tag.name = some within)
    (h : OpensList b list depth tag.name tag.attributes b₁) : Opened b tag within b₁ := by
  cases h with
  | item hn =>
    obtain rfl : Region.content = within := by simpa [Region.inside, hn] using hwithin
    have hc : tag.isContainer = true := by simp [Tag.isContainer, hregion, Region.isContainer, hn]
    have hmake := adds_make (b.pushTag tag.name tag.attributes) b.document.styles.size .container
    refine opened_silent hcomes.text (hcomes.entered_container hc hmake rfl hcomes.text _ _) rfl ?_
    simp [owed, enterContainer, enter, Tag.made, Tag.kindName?, hregion, hn, partShapes,
      ElementKind.name, hcomes.node]
  | other hn =>
    obtain rfl : Region.list = within := by simpa [Region.inside, hn] using hwithin
    have hc : tag.isContainer = false := by simp [Tag.isContainer, hregion, Region.isContainer, hn]
    refine opened_silent hcomes.text
      (hcomes.entered hc (adds_of_eq rfl rfl) rfl hcomes.text rfl
        fun h => absurd h (by decide)) rfl ?_
    simp [owed, Tag.made, Tag.kindName?, hregion, hn, partShapes]

theorem opened_table {within : Region} {draft : TableDraft} {depth : Nat} (hcomes : Comes b tag)
    (hregion : tag.region = .table) (hwithin : Region.table.inside tag.name = some within)
    (h : OpensTable b draft depth tag.name tag.attributes b₁) : Opened b tag within b₁ := by
  have deeper (draft' : TableDraft) (hn : ¬(tag.name = "td" ∨ tag.name = "th")) :
      Opened b tag within
        { b.pushTag tag.name tag.attributes with frame := .table draft' (depth + 1) } := by
    obtain rfl : Region.table = within := by simpa [Region.inside, hn] using hwithin
    have hc : tag.isContainer = false := by simp [Tag.isContainer, hregion, Region.isContainer, hn]
    refine opened_silent hcomes.text
      (hcomes.entered hc (adds_of_eq rfl rfl) rfl hcomes.text rfl
        fun h => absurd h (by decide)) rfl ?_
    simp [owed, Tag.made, Tag.kindName?, hregion, hn, partShapes]
  cases h with
  | cell hn columns =>
    obtain rfl : Region.content = within := by simpa [Region.inside, hn] using hwithin
    have hc : tag.isContainer = true := by simp [Tag.isContainer, hregion, Region.isContainer, hn]
    have hmake := adds_make (b.pushTag tag.name tag.attributes) b.document.styles.size
      (.tableCell columns)
    refine opened_silent hcomes.text (hcomes.entered_container hc hmake rfl hcomes.text _ _) rfl ?_
    simp [owed, enterContainer, enter, Tag.made, Tag.kindName?, hregion, hn, partShapes,
      ElementKind.name, hcomes.node]
  | row hn => exact deeper _ (by simp [hn])
  | other hn => exact deeper _ (by simp [hn.1, hn.2.1])

theorem opened_adds {region within : Region} (hin : Inside region b)
    (hwithin : region.inside name = some within) (hopen : b.opened p name attributes = .ok b₁)
    (outer : Option Nat) :
    Opened b ⟨p, name, attributes, region, outer, b.styles.top, b.document.styles.size⟩ within b₁ := by
  cases opens_of_region hin.frame hopen with
  | content h => exact opened_content hin rfl rfl rfl hwithin h
  | root h => exact opened_root ⟨rfl, rfl, hin.top, hin.text nofun⟩ rfl hwithin h
  | list _ h => exact opened_list ⟨rfl, rfl, hin.top, hin.text nofun⟩ rfl hwithin h
  | table _ h => exact opened_table ⟨rfl, rfl, hin.top, hin.text nofun⟩ rfl hwithin h

/-! ### What an end adds -/

/-- All that an end adds: the text before it, and the table that is owed. -/
theorem closed_adds {within : Region} (hin : Inside within b) (h : b.closed p name = .ok b') :
    ∃ shapes, Adds b [] (keptShape b.text b.styles.top ++ shapes) b' ∧ textShapes shapes = [] ∧
      partShapes shapes = owed b.frame ∧ b'.text = "" := by
  have hframe := hin.frame
  -- Nothing is gathered and nothing owed: the end only moves on.
  have quiet (hregion : within ≠ .content) (howed : owed b.frame = []) (hadds : Adds b [] [] b')
      (htext : b'.text = b.text) : ∃ shapes,
      Adds b [] (keptShape b.text b.styles.top ++ shapes) b' ∧ textShapes shapes = [] ∧
        partShapes shapes = owed b.frame ∧ b'.text = "" := by
    have hnil := hin.text hregion
    refine ⟨[], ?_, rfl, howed.symm, htext.trans hnil⟩
    rw [hnil]
    exact hadds
  generalize hf : b.frame = f at hframe quiet
  cases closes hf h with
  | root =>
    obtain rfl : Region.root = within := by simpa [Frame.region?] using hframe
    exact quiet (by decide) rfl (adds_of_document b.document_leave) b.still_leave.text
  | @inline flushed hflush =>
    obtain rfl : Region.content = within := by simpa [Frame.region?] using hframe
    have hadds := adds_flush (hin.container rfl) hflush
    exact ⟨[], hadds.trans (adds_of_document flushed.popNode.document_leave), rfl, rfl,
      flushed.popNode.still_leave.text.trans (flushes hflush).text⟩
  | @container element outer role flushed _ hflush hsettle =>
    obtain rfl : Region.content = within := by simpa [Frame.region?] using hframe
    have hadds := adds_flush (hin.container rfl) hflush
    have hleave : Adds flushed [] [] { flushed.popNode.popNode.leave with container := outer } :=
      adds_of_document flushed.popNode.popNode.document_leave
    exact ⟨[], hadds.trans (hleave.trans hsettle.adds), rfl, rfl, hsettle.text.trans
      (flushed.popNode.popNode.still_leave.text.trans (flushes hflush).text)⟩
  | orderedList list hadd =>
    obtain rfl : Region.list = within := by simpa [Frame.region?] using hframe
    have hleave : Adds b [] [] b.popNode.leave := adds_of_document b.popNode.document_leave
    exact quiet (by decide) rfl (hleave.trans (adds_add hadd))
      ((text_add hadd).trans b.popNode.still_leave.text)
  | inList =>
    obtain rfl : Region.list = within := by simpa [Frame.region?] using hframe
    exact quiet (by decide) rfl (adds_of_eq rfl rfl) rfl
  | table draft hadd =>
    obtain rfl : Region.table = within := by simpa [Frame.region?] using hframe
    have hnil := hin.text (by decide)
    have hleave : Adds b [] [] b.popNode.leave := adds_of_document b.popNode.document_leave
    refine ⟨[(.table draft.table, draft.style)], ?_, rfl, rfl, ?_⟩
    · rw [hnil]
      exact hleave.trans ((adds_make _ _ _).trans (adds_add hadd))
    · exact (text_add hadd).trans (b.popNode.still_leave.text.trans hnil)
  | inTable =>
    obtain rfl : Region.table = within := by simpa [Frame.region?] using hframe
    exact quiet (by decide) rfl (adds_of_eq rfl rfl) rfl
  | _ => simp [Frame.region?] at hframe

end Builder

end RichText
