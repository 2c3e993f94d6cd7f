/-
# No text is lost

The texts between the tags of a body are gathered and become elements when the next
tag comes; where in the store they get does not follow the text, since a container
joins the one around it only at its end. But the text of the container that is
being read, with the text still gathered behind it, is at every moment what the
events have said so far (`Builder.voices_run`, by induction on the forest). So the
text of a body is what its events say, from the first to the last
(`Document.textContent_roots`). What they say is in the source: no character is left
out between the constructs that give the tokens (`Tokenizer.tiles_stream`).

Key definitions: `spoken`, `Plain`, `Forest.bodies`, `Document.Speaks`,
`Builder.Voices`.
Key theorems: `Builder.voices_run`, `Builder.speaks_run`,
`Document.textContent_roots`.
-/
import RichText.Proofs.Calls
import RichText.Proofs.ElementText
import RichText.Proofs.Regions
import RichText.Proofs.WholeText

namespace RichText

open Markup Text

/-! ### What events say -/

/-- A text between two tags, unless it is blank. -/
def kept (s : String) : String := if allBlank s.toList then "" else s

/-- What a tag itself says: the one of a line break, a line break. -/
def breakOf (name : String) : String := if name = "br" then "\n" else ""

/-- What events say: the texts between tags that are not blank, and line breaks.
`seen` has been read since the last tag. -/
def spoken : (seen : String) → List (Position × Event) → String
  | seen, [] => kept seen
  | seen, (_, .text s) :: events => spoken (seen ++ s) events
  | seen, (_, .opened name _) :: events => kept seen ++ (breakOf name ++ spoken "" events)
  | seen, (_, .closed _) :: events => kept seen ++ spoken "" events

/-- No tag is one of a head, a list with numbers or a table. -/
def Plain (events : List (Position × Event)) : Prop :=
  ∀ p name attributes, (p, .opened name attributes) ∈ events →
    name ≠ "head" ∧ name ≠ "ol" ∧ name ≠ "table"

theorem Plain.mono {events events' : List (Position × Event)} (h : Plain events)
    (hsub : events' ⊆ events) : Plain events' :=
  fun p name attributes hmem => h p name attributes (hsub hmem)

/-- What is inside the bodies among the elements of a forest. -/
def Forest.bodies : Forest → List Forest
  | nil => []
  | text _ _ rest => rest.bodies
  | element _ name _ inside _ rest => if name = "body" then inside :: rest.bodies else rest.bodies

namespace Document

variable {d d₁ d' d'' : Document}

/-- The document has gained roots with the texts `said`; what was there before has
not changed, and all that is inside new elements comes behind them. -/
structure Speaks (d d' : Document) (said : List String) : Prop where
  size : d.size ≤ d'.size
  old : ∀ i, i < d.size → d'.element? i = d.element? i
  ascends : Ascends d' d.size
  gains : ∃ gained, d'.roots = d.roots ++ gained ∧ (∀ i ∈ gained, d.size ≤ i ∧ i < d'.size) ∧
    gained.map d'.textContent = said

theorem speaks_of_eq (helements : d'.elements = d.elements) (hroots : d'.roots = d.roots) :
    Speaks d d' [] := by
  have hsize : d'.size = d.size := by rw [Document.size, helements]; rfl
  exact ⟨Nat.le_of_eq hsize.symm, fun i _ => by rw [element?, helements]; rfl,
    hsize ▸ d'.ascends_size, [], by rw [hroots, List.append_nil],
    fun _ hi => absurd hi List.not_mem_nil, rfl⟩

theorem Speaks.trans {said said' : List String} (h : Speaks d d' said) (h' : Speaks d' d'' said') :
    Speaks d d'' (said ++ said') := by
  have hnew (i : Nat) (_ : d.size ≤ i) (hlt : i < d'.size) : d''.element? i = d'.element? i :=
    h'.old i hlt
  refine ⟨Nat.le_trans h.size h'.size, fun i hi => ?_, fun i hi part hpart => ?_, ?_⟩
  · rw [h'.old i (Nat.lt_of_lt_of_le hi h.size), h.old i hi]
  · by_cases hlt : i < d'.size
    · rw [partsOf_congr (hnew i hi hlt)] at hpart
      obtain ⟨hpart, hsize⟩ := h.ascends i hi part hpart
      exact ⟨hpart, Nat.lt_of_lt_of_le hsize h'.size⟩
    · exact h'.ascends i (Nat.le_of_not_lt hlt) part hpart
  · obtain ⟨gained, hroots, hgained, rfl⟩ := h.gains
    obtain ⟨gained', hroots', hgained', rfl⟩ := h'.gains
    have hstable : gained.map d''.textContent = gained.map d'.textContent :=
      List.map_congr_left fun i hi =>
        textContent_stable h.ascends h'.size hnew (hgained i hi).1 (hgained i hi).2
    refine ⟨gained ++ gained', by rw [hroots', hroots, List.append_assoc], fun i hi => ?_, ?_⟩
    · rcases List.mem_append.1 hi with hi | hi
      · exact ⟨(hgained i hi).1, Nat.lt_of_lt_of_le (hgained i hi).2 h'.size⟩
      · exact ⟨Nat.le_trans h.size (hgained' i hi).1, (hgained' i hi).2⟩
    · rw [List.map_append, hstable]

/-- A new root with what has been read into it. -/
theorem speaks_root {e : Element} {said : String} (he : d₁.elements = d.elements.push e)
    (hroots : d₁.roots = d.roots ++ [d.size]) (hchildren : e.children = [])
    (h : Says d.size d₁ d' said) : Speaks d d' [said] := by
  obtain ⟨hascends, htext⟩ := h.whole he hchildren
  have hsize₁ := size_of_push he
  have hsize := h.size
  refine ⟨by omega, fun i hi => ?_, hascends, [d.size], h.roots.trans hroots, ?_, by simp [htext]⟩
  · rw [h.old i (by omega) (by omega), element?_of_push he, if_neg (by omega)]
  · simp only [List.mem_singleton, forall_eq]
    omega

end Document

namespace Builder

open Document (Says Holds Speaks)

variable {b b₁ b₂ b' : Builder} {c : Nat} {p : Position} {name : String} {attributes : Attributes}

/-- The text gathered becomes an element, unless it is blank. -/
theorem says_flush (hcontainer : b.container = some c) (hc : Holds c b.document)
    (h : b.flush = .ok b') : Says c b.document b'.document (kept b.text) := by
  cases flushes h with
  | dropped hdrop =>
    have hblank : allBlank b.text.toList = true := by simpa [hcontainer] using hdrop
    rw [kept, if_pos hblank]
    exact Document.says_of_eq hc rfl rfl
  | @element holder hholder hblank ids =>
    obtain rfl := Option.some.inj (hcontainer.symm.trans hholder)
    let e : Element := { style := b.styles.top, kind := .text b.text }
    have hpush : Says c b.document ((b.document.push e).append c b.document.size) b.text :=
      Document.says_push hc rfl
    have hids : Says c ((b.document.push e).append c b.document.size)
        { (b.document.push e).append c b.document.size with ids } "" :=
      Document.says_of_eq hpush.holds rfl rfl
    have hwhole := hpush.trans hids
    rw [kept, if_neg (by simp [hblank])]
    rwa [String.append_empty] at hwhole

theorem elements_add {i : Nat} (hcontainer : b.container = some c) (h : b.add i = .ok b') :
    b'.document.elements = (b.document.append c i).elements ∧
      b'.document.roots = b.document.roots := by
  obtain ⟨ids, rfl⟩ := add_eq h
  rw [hcontainer]
  exact ⟨rfl, rfl⟩

/-! ### Start tags -/

/-- A tag in a container that opens none. -/
structure OpensInline (c : Nat) (b : Builder) (name : String) (b₁ : Builder) : Prop where
  gains : Says c b.document b₁.document (kept b.text ++ breakOf name)
  container : b₁.container = some c
  text : b₁.text = ""
  frame : b₁.frame = .inline

/-- A tag in a container `c` that makes another one. -/
structure OpensContainer (c : Nat) (b : Builder) (name : String) (b₁ : Builder) : Prop where
  made : ∃ (flushed : Builder) (e : Element),
    Says c b.document flushed.document (kept b.text ++ breakOf name) ∧
      b₁.document.elements = flushed.document.elements.push e ∧
      b₁.document.roots = flushed.document.roots ∧ e.children = [] ∧
      e.kind.hasChildren = true ∧ b₁.container = some flushed.document.size ∧
      b₁.frame = .container flushed.document.size (some c) .child
  text : b₁.text = ""

theorem breakOf_containerKind? {kind : ElementKind}
    (h : containerKind? name attributes = some kind) : breakOf name = "" := by
  have hne : name ≠ "br" := by
    rintro rfl
    simp [containerKind?, isHeading] at h
  simp [breakOf, hne]

theorem ownText_leafKind? {kind : ElementKind} (style : Nat)
    (h : leafKind? name attributes = some kind) :
    (Element.mk style kind []).ownText = breakOf name ∧ (Element.mk style kind []).parts = [] := by
  unfold leafKind? at h
  split at h <;> simp only [Option.some.injEq, reduceCtorEq] at h
  · exact h ▸ ⟨rfl, rfl⟩
  · exact h ▸ ⟨rfl, rfl⟩
  · exact h ▸ ⟨rfl, rfl⟩

theorem opens_plain (hcontainer : b.container = some c) (hc : Holds c b.document)
    (hplain : name ≠ "head" ∧ name ≠ "ol" ∧ name ≠ "table")
    (h : OpensContent b name attributes b₁) :
    OpensInline c b name b₁ ∨ OpensContainer c b name b₁ := by
  cases h with
  | head hn => exact absurd hn hplain.1
  | orderedList hn => exact absurd hn hplain.2.1
  | table hn => exact absurd hn hplain.2.2
  | @container hn flushed hf kind hk =>
    have hsaid := says_flush hcontainer hc hf
    have hchildren := (containerKind?_eq_some hk).2
    have hkept := (flushes hf).kept.container.trans hcontainer
    refine .inr ⟨⟨flushed, ⟨flushed.document.styles.size, kind, []⟩, ?_, rfl, rfl, rfl, hchildren,
      rfl, ?_⟩, (flushes hf).text⟩
    · rwa [breakOf_containerKind? hk, String.append_empty]
    · exact congrArg (Frame.container _ · _) hkept
  | @leaf flushed added hf kind hk ha =>
    have hsaid := says_flush hcontainer hc hf
    have hkept := (flushes hf).kept.container.trans hcontainer
    obtain ⟨hown, hparts⟩ := ownText_leafKind? flushed.document.styles.size hk
    have hmade : ((flushed.pushTag name attributes).make flushed.document.styles.size
        kind).container = some c := hkept
    obtain ⟨helements, hroots⟩ := elements_add hmade ha
    have hpush := Document.says_push hsaid.holds hparts
    have hadd : Says c ((flushed.document.push ⟨flushed.document.styles.size, kind, []⟩).append c
        flushed.document.size) added.document "" :=
      Document.says_of_eq hpush.holds helements hroots
    have hwhole := hsaid.trans (hpush.trans hadd)
    rw [hown, String.append_empty] at hwhole
    refine .inl ⟨hwhole, (kept_add ha).container.trans hkept, ?_, rfl⟩
    exact (text_add ha).trans (flushes hf).text
  | @inline _ flushed hf _ hl =>
    have hsaid := says_flush hcontainer hc hf
    have hne : name ≠ "br" := by
      rintro rfl
      simp [leafKind?] at hl
    have hpush : Says c flushed.document
        ((flushed.pushTag name attributes).enter .inline).document "" :=
      Document.says_of_eq hsaid.holds rfl rfl
    refine .inl ⟨?_, (flushes hf).kept.container.trans hcontainer, (flushes hf).text, rfl⟩
    simpa [breakOf, hne] using hsaid.trans hpush

/-! ### Ends -/

/-- The end of an element in a container that opened none. -/
theorem closed_says_inline {q : Position} (hframe : b.frame = .inline)
    (hcontainer : b.container = some c) (hc : Holds c b.document)
    (h : b.closed q name = .ok b') :
    Says c b.document b'.document (kept b.text) ∧ b'.text = "" := by
  cases closes hframe h with
  | @inline flushed hf =>
    have hsaid : Says c b.document flushed.document (kept b.text) := says_flush hcontainer hc hf
    refine ⟨?_, flushed.popNode.still_leave.text.trans (flushes hf).text⟩
    rw [flushed.popNode.document_leave]
    exact hsaid

/-- The end of a container: the text in it is complete, and what becomes of it is
still to be settled. -/
theorem closed_says_container {q : Position} {element : Nat} {outer : Option Nat} {role : Role}
    (hframe : b.frame = .container element outer role) (hcontainer : b.container = some element)
    (hc : Holds element b.document) (h : b.closed q name = .ok b') :
    ∃ left, Says element b.document left.document (kept b.text) ∧ left.container = outer ∧
      left.text = "" ∧ Settles left element role b' := by
  cases closes hframe h with
  | @container _ _ _ flushed _ hf hsettle =>
    have hsaid : Says element b.document flushed.document (kept b.text) :=
      says_flush hcontainer hc hf
    refine ⟨_, ?_, rfl, ?_, hsettle⟩
    · show Says element b.document flushed.popNode.popNode.leave.document (kept b.text)
      rw [flushed.popNode.popNode.document_leave]
      exact hsaid
    · exact flushed.popNode.popNode.still_leave.text.trans (flushes hf).text

/-! ### Forests -/

/-- What has been said into the container `c`, with the text gathered behind it, is
what the events say, whatever comes after them. -/
def Voices (c : Nat) (b : Builder) (events : List (Position × Event)) (b' : Builder) : Prop :=
  ∃ said, Says c b.document b'.document said ∧
    ∀ tail, spoken b.text (events ++ tail) = said ++ spoken b'.text tail

theorem Voices.holds {events : List (Position × Event)} (h : Voices c b events b') :
    Holds c b'.document := by
  obtain ⟨_, hsaid, -⟩ := h
  exact hsaid.holds

theorem Voices.trans {front back : List (Position × Event)} (h : Voices c b front b₁)
    (h' : Voices c b₁ back b') : Voices c b (front ++ back) b' := by
  obtain ⟨said, hsaid, hspoken⟩ := h
  obtain ⟨said', hsaid', hspoken'⟩ := h'
  refine ⟨said ++ said', hsaid.trans hsaid', fun tail => ?_⟩
  rw [List.append_assoc, hspoken, hspoken', String.append_assoc]

theorem spoken_element {inside : List (Position × Event)} {q : Position} {said seen text : String}
    (hinside : ∀ tail, spoken "" (inside ++ tail) = said ++ spoken text tail)
    (tail : List (Position × Event)) :
    spoken seen ((p, .opened name attributes) :: (inside ++ [(q, .closed name)]) ++ tail) =
      kept seen ++ breakOf name ++ said ++ kept text ++ spoken "" tail := by
  rw [List.cons_append, List.append_assoc, spoken, hinside, List.singleton_append, spoken]
  simp only [String.append_assoc]

theorem voices_inline {inside : List (Position × Event)} {q : Position}
    (ho : OpensInline c b name b₁) (hinside : Voices c b₁ inside b₂) (hlevel : Level b₁ b₂)
    (hclose : b₂.closed q name = .ok b') :
    Voices c b ((p, .opened name attributes) :: (inside ++ [(q, .closed name)])) b' := by
  obtain ⟨said, hsaid, hspoken⟩ := hinside
  have hframe : b₂.frame = .inline :=
    (hlevel.frame.eq_of_content (by rw [ho.frame]; rfl)).trans ho.frame
  obtain ⟨hend, htext⟩ := closed_says_inline hframe (hlevel.container.trans ho.container)
    hsaid.holds hclose
  rw [ho.text] at hspoken
  refine ⟨_, (ho.gains.trans hsaid).trans hend, fun tail => ?_⟩
  rw [htext]
  exact spoken_element hspoken tail

/-- A container inside another one says its text into that at its end. -/
theorem voices_container {inside : List (Position × Event)} {q : Position}
    (ho : OpensContainer c b name b₁)
    (hinside : ∀ {e}, b₁.container = some e → Holds e b₁.document → Voices e b₁ inside b₂)
    (hlevel : Level b₁ b₂) (hclose : b₂.closed q name = .ok b') :
    Voices c b ((p, .opened name attributes) :: (inside ++ [(q, .closed name)])) b' := by
  obtain ⟨flushed, e, hgains, helements, hroots, hchildren, hholds, hcontainer, hframe⟩ := ho.made
  have hnew : Holds flushed.document.size b₁.document :=
    ⟨e, by rw [Document.element?_of_push helements, if_pos rfl], hholds⟩
  obtain ⟨said, hsaid, hspoken⟩ := hinside hcontainer hnew
  have hframe₂ : b₂.frame = .container flushed.document.size (some c) .child :=
    (hlevel.frame.eq_of_content (by rw [hframe]; rfl)).trans hframe
  obtain ⟨left, hend, houter, htext, hsettle⟩ := closed_says_container hframe₂
    (hlevel.container.trans hcontainer) hsaid.holds hclose
  cases hsettle with
  | child hadd =>
    obtain ⟨helements', hroots'⟩ := elements_add houter hadd
    have hwhole := (hsaid.trans hend).enclose hgains.holds helements hroots hchildren
    have hadded : Says c (left.document.append c flushed.document.size) b'.document "" :=
      Document.says_of_eq hwhole.holds helements' hroots'
    rw [ho.text] at hspoken
    refine ⟨_, hgains.trans (hwhole.trans hadded), fun tail => ?_⟩
    rw [text_add hadd, htext, String.append_empty, spoken_element hspoken]
    simp only [String.append_assoc]

/-- The text of the container that is read, with the text gathered behind it, is
what has been said. -/
theorem voices_run : ∀ (f : Forest) {c : Nat} {b b' : Builder}, Plain f.events →
    b.frame.region? = some .content → b.container = some c → Holds c b.document →
    b.run f.events = .ok b' → Voices c b f.events b'
  | .nil, c, b, b', _, _, _, hc, h => by
    obtain rfl := Except.ok.inj h
    exact ⟨"", Document.says_of_eq hc rfl rfl, fun tail => by simp [Forest.events]⟩
  | .text p s rest, c, b, b', hplain, hregion, hcontainer, hc, h => by
    obtain ⟨b₁, htext, hrest⟩ := run_text h
    have hplain' : Plain rest.events := hplain.mono fun _ => List.mem_cons_of_mem _
    obtain rfl : b₁ = { b with text := b.text ++ s } := textRead_of_region hregion htext
    have hvoices : Voices c { b with text := b.text ++ s } rest.events b' :=
      voices_run rest hplain' hregion hcontainer hc hrest
    exact hvoices
  | .element p name attributes inside q rest, c, b, b', hplain, hregion, hcontainer, hc, h => by
    obtain ⟨b₁, b₂, b₃, hopen, hinside, hclose, hrest⟩ := run_element h
    have hlevel₂ := level_run inside hinside
    have hlevel := level_element hopen hlevel₂ hclose
    have hplain₁ : Plain inside.events := hplain.mono fun _ hmem =>
      List.mem_cons_of_mem _ (List.mem_append_left _ hmem)
    have hplain₂ : Plain rest.events := hplain.mono fun _ hmem =>
      List.mem_cons_of_mem _ (List.mem_append_right _ (List.mem_cons_of_mem _ hmem))
    have hcontent : OpensContent b name attributes b₁ := by
      cases opens_of_region hregion hopen with
      | content h => exact h
    have helement : Voices c b
        ((p, .opened name attributes) :: (inside.events ++ [(q, .closed name)])) b₃ := by
      rcases opens_plain hcontainer hc (hplain p name attributes List.mem_cons_self) hcontent with
        ho | ho
      · have hvoices := voices_run inside hplain₁ (by rw [ho.frame]; rfl) ho.container
          ho.gains.holds hinside
        exact voices_inline ho hvoices hlevel₂ hclose
      · obtain ⟨_, _, -, -, -, -, -, -, hframe⟩ := ho.made
        have hvoices {e : Nat} (he : b₁.container = some e) (hholds : Holds e b₁.document) :=
          voices_run inside hplain₁ (by rw [hframe]; rfl) he hholds hinside
        exact voices_container ho hvoices hlevel₂ hclose
    have hmore := voices_run rest hplain₂ (hlevel.frame.region?_eq.trans hregion)
      (hlevel.container.trans hcontainer) helement.holds hrest
    simpa [Forest.events] using helement.trans hmore

/-- A body that is read as a whole is a root with the text that its events say. -/
theorem speaks_body {inside : Forest} {q : Position} {b₃ : Builder} (hplain : Plain inside.events)
    (htext : b.text = "") (hn : name = "body") (hopen : OpensRoot b name attributes b₁)
    (hinside : b₁.run inside.events = .ok b₂) (hclose : b₂.closed q name = .ok b₃) :
    Speaks b.document b₃.document [spoken "" inside.events] ∧ b₃.text = "" := by
  cases hopen with
  | head hn' => simp [hn] at hn'
  | skipped hn' => exact absurd hn hn'.2
  | body _ hm hr =>
    obtain ⟨ids, rfl⟩ := register_eq hr
    subst hm
    let e : Element := { style := b.document.styles.size, kind := .block }
    generalize hb₁ : enterContainer _ b.document.size Role.body = b₁ at hinside
    have helements : b₁.document.elements = b.document.elements.push e := by rw [← hb₁]; rfl
    have hroots : b₁.document.roots = b.document.roots ++ [b.document.size] := by rw [← hb₁]; rfl
    have hcontainer : b₁.container = some b.document.size := by rw [← hb₁]; rfl
    have hframe : b₁.frame = .container b.document.size b.container .body := by rw [← hb₁]; rfl
    have htext₁ : b₁.text = "" := by rw [← hb₁]; exact htext
    have hholds : Holds b.document.size b₁.document :=
      ⟨e, by rw [Document.element?_of_push helements, if_pos rfl], rfl⟩
    have hlevel := level_run inside hinside
    obtain ⟨said, hsaid, hspoken⟩ := voices_run inside hplain (by rw [hframe]; rfl) hcontainer
      hholds hinside
    obtain ⟨left, hend, -, hleft, hsettle⟩ := closed_says_container
      ((hlevel.frame.eq_of_content (by rw [hframe]; rfl)).trans hframe)
      (hlevel.container.trans hcontainer) hsaid.holds hclose
    cases hsettle with
    | body =>
      have hwhole := hspoken []
      rw [List.append_nil, htext₁, spoken] at hwhole
      rw [hwhole]
      exact ⟨Document.speaks_root helements hroots rfl (hsaid.trans hend), hleft⟩

/-- Reading the root adds the bodies in it to the roots. -/
theorem speaks_run : ∀ (f : Forest) {b b' : Builder},
    (∀ body ∈ f.bodies, Plain body.events) → b.frame = .root → b.text = "" →
    b.run f.events = .ok b' →
    Speaks b.document b'.document (f.bodies.map fun body => spoken "" body.events)
  | .nil, b, b', _, _, _, h => by
    obtain rfl := Except.ok.inj h
    exact Document.speaks_of_eq rfl rfl
  | .text p s rest, b, b', hplain, hframe, htext, h => by
    obtain ⟨b₁, hread, hrest⟩ := run_text h
    cases gathers hframe hread
    exact speaks_run rest hplain hframe htext hrest
  | .element p name attributes inside q rest, b, b', hplain, hframe, htext, h => by
    obtain ⟨b₁, b₂, b₃, hopen, hinside, hclose, hrest⟩ := run_element h
    have hlevel := level_element hopen (level_run inside hinside) hclose
    have hregion : b.frame.region? = some .root := by rw [hframe]; rfl
    have hframe₃ : b₃.frame = .root := by
      have hcases := hlevel.frame
      rw [hframe] at hcases
      exact hcases.cases
    by_cases hn : name = "body"
    · have hbodies : (Forest.element p name attributes inside q rest).bodies =
          inside :: rest.bodies := by rw [Forest.bodies, if_pos hn]
      rw [hbodies] at hplain ⊢
      have hroot : OpensRoot b name attributes b₁ := by
        cases opens_of_region hregion hopen with
        | root h => exact h
      obtain ⟨hbody, htext₃⟩ := speaks_body (hplain inside List.mem_cons_self) htext hn hroot hinside
        hclose
      exact hbody.trans (speaks_run rest (fun body hbody => hplain body (List.mem_cons_of_mem _ hbody))
        hframe₃ htext₃ hrest)
    · have hbodies : (Forest.element p name attributes inside q rest).bodies = rest.bodies := by
        rw [Forest.bodies, if_neg hn]
      rw [hbodies] at hplain ⊢
      have hstill : Still b b₃ :=
        still_element hregion (by rw [Region.inside, if_neg hn]) hopen hinside hclose
      exact (Document.speaks_of_eq hstill.elements hstill.roots).trans
        (speaks_run rest hplain hframe₃ (hstill.text.trans htext) hrest)

end Builder

namespace Document

/-- **No text is lost.** The text of every root is what the events of its body say, if no
body has a head, a list with numbers or a table in it. The events are those of the tokens,
and these are all that the source is made of: a run of text is one with its references
decoded, and what is in a CDATA section is one as it stands (`Construct.Gives`). -/
theorem textContent_roots {number : Nat} {registry : Registry} {source : String} {d : Document}
    (h : ofString number registry source = .ok d) :
    ((∃ f : Forest, (EventStream.ofString source).items = f.events) ∧
      (EventStream.ofString source).items =
        (Tokenizer.ofString source).stream.items.flatMap EventStream.expand ∧
      Tokenizer.Tiles source.toList ((Tokenizer.ofString source).stream.items.map (·.2))) ∧
      ∀ f : Forest, (EventStream.ofString source).items = f.events →
        (∀ body ∈ f.root.bodies, Plain body.events) →
        d.roots.map d.textContent = f.root.bodies.map fun body => spoken "" body.events := by
  obtain ⟨b, hrun, hend, hframe, rfl⟩ := exists_of_ofString h
  have htiles := Tokenizer.tiles_stream (Tokenizer.ofString source)
    (EventStream.failure_of_ofTokens _ _ _ hend)
  refine ⟨⟨EventStream.exists_forest hend, (EventStream.items_prefix_expand _ _ _).2 hend, htiles⟩,
    fun f hf hplain => ?_⟩
  rw [hf] at hrun
  obtain ⟨b₁, hroot, hdocument⟩ := Builder.run_root f hrun hframe
  obtain ⟨gained, hroots, -, htexts⟩ := (Builder.speaks_run f.root hplain rfl rfl hroot).gains
  have hgained : b₁.document.roots = gained := hroots
  rw [hdocument, hgained]
  exact htexts

theorem ofString_break : EventStream.ofString "<html><body>a<br/><p> b<i> </i></p></body></html>" =
    ⟨[(⟨1, 1⟩, .opened "html" []), (⟨1, 7⟩, .opened "body" []), (⟨1, 13⟩, .text "a"),
      (⟨1, 14⟩, .opened "br" []), (⟨1, 14⟩, .closed "br"), (⟨1, 19⟩, .opened "p" []),
      (⟨1, 22⟩, .text " b"), (⟨1, 24⟩, .opened "i" []), (⟨1, 27⟩, .text " "),
      (⟨1, 28⟩, .closed "i"), (⟨1, 32⟩, .closed "p"), (⟨1, 36⟩, .closed "body"),
      (⟨1, 43⟩, .closed "html")], none⟩ := by
  decide +kernel

theorem textContent_break : ∃ d,
    ofString 0 .standard "<html><body>a<br/><p> b<i> </i></p></body></html>" = .ok d ∧
      d.roots.map d.textContent = ["a\n b"] := by
  obtain ⟨d, hd⟩ : ∃ d,
      ofString 0 .standard "<html><body>a<br/><p> b<i> </i></p></body></html>" = .ok d :=
    ⟨_, (congrArg (ofEvents 0 .standard) ofString_break).trans rfl⟩
  let paragraph : Forest := .text ⟨1, 22⟩ " b"
    (.element ⟨1, 24⟩ "i" [] (.text ⟨1, 27⟩ " " .nil) ⟨1, 28⟩ .nil)
  let content : Forest := .text ⟨1, 13⟩ "a" (.element ⟨1, 14⟩ "br" [] .nil ⟨1, 14⟩
    (.element ⟨1, 19⟩ "p" [] paragraph ⟨1, 32⟩ .nil))
  let body : Forest := .element ⟨1, 7⟩ "body" [] content ⟨1, 36⟩ .nil
  have hplain : ∀ inside ∈ body.bodies, Plain inside.events := by
    suffices h : Plain content.events by simpa [body, Forest.bodies] using h
    simp only [Plain, content, paragraph, Forest.events, List.mem_cons, List.not_mem_nil,
      Prod.mk.injEq, Event.opened.injEq, reduceCtorEq, and_false, false_or, or_false,
      List.nil_append, List.cons_append]
    rintro _ _ _ (⟨-, rfl, -⟩ | ⟨-, rfl, -⟩ | ⟨-, rfl, -⟩) <;> decide
  have htext := (textContent_roots hd).2 (.element ⟨1, 1⟩ "html" [] body ⟨1, 43⟩ .nil) (by
    rw [ofString_break]
    rfl) hplain
  exact ⟨d, hd, htext.trans (by decide +kernel)⟩

end Document

end RichText
