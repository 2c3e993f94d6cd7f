/-
# The innermost tag

Wherever the content of a body is read, there is a start tag read last of those that
are still open, and what has been read behind it is a forest (`Builder.Innermost`).
Of the elements made so far only few have the node of this tag: the one that the tag
itself makes, if it makes one, and the texts directly inside, if it makes no container
(`Innermost.made_or_text`).

Key definitions: `Region.at?`, `Builder.Innermost`, `Forest.pieces`.
Key theorems: `Builder.exists_innermost`, `Builder.Innermost.made_or_text`,
`Forest.length_pieces`.
-/
import RichText.Proofs.StyleMirror

namespace RichText

open Markup Text

/-- The region inside elements, the innermost first. -/
def Region.at? : List String → Option Region
  | [] => none
  | [_] => some .root
  | name :: outer => (at? outer).bind (·.inside name)

theorem Region.at?_cons {name : String} {outer : List String} {region : Region}
    (h : at? outer = some region) : at? (name :: outer) = region.inside name := by
  cases outer with
  | nil => simp [at?] at h
  | cons name' outer => simp [at?, h]

theorem Region.exists_inside_content {name : String} (h : name ≠ "head") :
    ∃ within, content.inside name = some within := by
  simp only [inside, if_neg h]
  split
  · exact ⟨_, rfl⟩
  · split <;> exact ⟨_, rfl⟩

theorem Tag.node_le_seat (tag : Tag) : tag.node ≤ tag.seat := by
  unfold seat
  split
  · exact Nat.le_succ _
  · exact Nat.le_refl _

namespace Forest

/-- The texts that stand directly in a forest, without the blank ones. A tag that is
not passed over ends a text; `seen` is what the first one begins with. -/
def pieces : Forest → (seen : String) → List String
  | nil, seen => if allBlank seen.toList then [] else [seen]
  | text _ s rest, seen => rest.pieces (seen ++ s)
  | element _ name _ _ _ rest, seen =>
    if name = "head" then rest.pieces seen
    else (if allBlank seen.toList then [] else [seen]) ++ rest.pieces ""

/-! ### Nodes of tags and texts -/

theorem mem_keptText {s t : String} {seat n : Nat} (h : (s, n) ∈ keptText t seat) : n = seat := by
  unfold keptText at h
  split at h
  · cases h
  · exact congrArg Prod.snd (List.mem_singleton.1 h)

/-- A text stands under the node around the forest, if that is the content of a
container, or under a node of the forest. -/
theorem seat_of_mem_runs : ∀ (f : Forest) {region : Region} {seat next : Nat} {seen s : String}
    {n : Nat}, (region ≠ .content → seen = "") → (s, n) ∈ (f.runs region seat next seen).1 →
    next ≤ n ∨ (n = seat ∧ region = .content)
  | nil, _, _, _, _, _, _, _, h => by cases h
  | text _ t rest, region, seat, next, seen, s, n, hseen, h => by
    refine rest.seat_of_mem_runs (fun hregion => ?_) h
    rw [if_neg hregion, hseen hregion]
  | element p name attributes inside q rest, region, seat, next, seen, s, n, hseen, h => by
    unfold runs at h
    cases hwithin : region.inside name with
    | none =>
      rw [hwithin] at h
      exact rest.seat_of_mem_runs hseen h
    | some within =>
      have hnode := Tag.node_le_seat ⟨p, name, attributes, region, none, seat, next⟩
      simp only [hwithin, List.mem_append] at h
      rcases h with ((h | h) | h) | h
      · by_cases hregion : region = .content
        · exact .inr ⟨mem_keptText h, hregion⟩
        · rw [hseen hregion] at h
          cases h
      · rcases inside.seat_of_mem_runs (fun _ => rfl) h with hle | ⟨rfl, -⟩
        · exact .inl (Nat.le_trans (Nat.le_add_right _ _) hle)
        · exact .inl hnode
      · exact .inl (mem_keptText h ▸ hnode)
      · rcases rest.seat_of_mem_runs (fun _ => rfl) h with hle | hseat
        · exact .inl (Nat.le_trans (by omega) hle)
        · exact .inr hseat

/-- The texts under the node around a forest are those that stand directly in it. -/
theorem length_pieces : ∀ (f : Forest) {seat next : Nat}, seat < next → ∀ seen : String,
    (f.pieces seen).length = (f.runs .content seat next seen).1.countP (·.2 = seat) +
      (keptText (f.runs .content seat next seen).2 seat).length
  | nil, seat, next, _, seen => by
    unfold pieces runs keptText
    split <;> simp
  | text _ s rest, seat, next, hlt, seen => by
    unfold pieces runs
    exact rest.length_pieces hlt (seen ++ s)
  | element p name attributes inside q rest, seat, next, hlt, seen => by
    unfold pieces runs
    by_cases hhead : name = "head"
    · simp only [hhead, if_true, Region.inside]
      exact rest.length_pieces hlt seen
    · obtain ⟨within, hwithin⟩ := Region.exists_inside_content hhead
      have hnode : next ≤ Tag.seat ⟨p, name, attributes, .content, none, seat, next⟩ :=
        Tag.node_le_seat ⟨p, name, attributes, .content, none, seat, next⟩
      have hmore := rest.length_pieces (show seat < next +
        Region.content.nodeCount name attributes + inside.nodeCount within by omega) ""
      generalize hseat : Tag.seat ⟨p, name, attributes, .content, none, seat, next⟩ = tagSeat
        at hnode ⊢
      have hkept : (if allBlank seen.toList then [] else [seen]).length =
          (keptText seen seat).countP (·.2 = seat) := by
        unfold keptText
        split <;> simp
      have hfound : ∀ first, next ≤ first →
          (inside.runs within tagSeat first "").1.countP (·.2 = seat) = 0 := by
        intro first hfirst
        refine List.countP_eq_zero.2 fun run hrun => ?_
        have hrun : next ≤ run.2 := by
          rcases inside.seat_of_mem_runs (fun _ => rfl) hrun with hle | ⟨heq, -⟩
          · exact Nat.le_trans hfirst hle
          · exact heq ▸ hnode
        simp only [decide_eq_true_eq]
        omega
      have htail (t : String) : (keptText t tagSeat).countP (·.2 = seat) = 0 := by
        refine List.countP_eq_zero.2 fun run hrun => ?_
        have hrun := mem_keptText hrun
        simp only [decide_eq_true_eq, hrun]
        omega
      simp only [if_neg hhead, hwithin, hseat, List.length_append, List.countP_append, htail,
        hfound _ (Nat.le_add_right _ _), hkept, hmore]
      omega

end Forest

/-! ### The innermost tag -/

namespace Builder

variable {b b₀ b₁ b' : Builder} {region within : Region} {tag : Tag} {inside : Forest}
  {names outer : List String} {before events : List (Position × Event)}

/-- Of the tags read from `first` on that are still open behind `events`, `tag` is the
one read last. The builder `b₀` stands before it and `b₁` behind it; `outer` are the
names that were open at first. -/
structure Innermost (first : Builder) (outer : List String) (events : List (Position × Event))
    (b : Builder) (before : List (Position × Event)) (tag : Tag) (within : Region)
    (inside : Forest) (b₀ b₁ : Builder) : Prop where
  split : events = before ++ tag.event :: inside.events
  front : first.run before = .ok b₀
  around : ∃ names, openAfter outer before = some names ∧ Region.at? names = some tag.region
  stands : Inside tag.region b₀
  parent : tag.parent = b₀.styles.top
  node : tag.node = b₀.document.styles.size
  opened : b₀.opened tag.position tag.name tag.attributes = .ok b₁
  within : tag.region.inside tag.name = some within
  behind : b₁.run inside.events = .ok b

/-- What is read in a passed element is passed, as long as the element is open. -/
theorem passed_of_unclosed (h : Unclosed names events) : ∀ {b b' : Builder}, b.frame.IsPassed →
    b.run events = .ok b' → b'.frame.IsPassed := by
  induction h with
  | forest f => exact fun hpassed hrun => (level_run f hrun).frame.isPassed hpassed
  | opened f p name attributes more ih =>
    intro b b' hpassed hrun
    obtain ⟨b₁, hf, hrun⟩ := run_append_ok.1 hrun
    obtain ⟨b₂, hopen, hmore⟩ := run_cons_ok.1 hrun
    have hpassed₁ := (level_run f hf).frame.isPassed hpassed
    exact ih (still_opened hpassed₁ hopen).2 hmore

theorem Innermost.prepend {first : Builder} {outer' : List String}
    {front : List (Position × Event)}
    (h : Innermost b outer events b' before tag within inside b₀ b₁)
    (hfront : first.run front = .ok b) (houter : openAfter outer' front = some outer) :
    Innermost first outer' (front ++ events) b' (front ++ before) tag within inside b₀ b₁ where
  split := by rw [h.split, List.append_assoc]
  front := run_append_ok.2 ⟨b, hfront, h.front⟩
  around := by
    rw [openAfter_append, houter]
    exact h.around
  stands := h.stands
  parent := h.parent
  node := h.node
  opened := h.opened
  within := h.within
  behind := h.behind

theorem exists_innermost_of_inside (h : Unclosed names events) : ∀ {outer : List String}
    {region : Region} {b b' : Builder}, names ≠ [] → Inside region b →
    Region.at? outer = some region → b.run events = .ok b' → ¬ b'.frame.IsPassed →
    ∃ before tag within inside b₀ b₁,
      Innermost b outer events b' before tag within inside b₀ b₁ := by
  induction h with
  | forest f => exact fun hnames => absurd rfl hnames
  | @opened f p name attributes names events more ih =>
    intro outer region b b' _ hin hat hrun hpassed
    obtain ⟨b₁, hf, hrun⟩ := run_append_ok.1 hrun
    obtain ⟨b₂, hopen, hmore⟩ := run_cons_ok.1 hrun
    have hin₁ := inside_run hin hf
    have houter := f.openAfter_events outer
    cases hwithin : region.inside name with
    | none =>
      have hpassed₂ := (opened_passed hin₁.frame hwithin hopen).2
      exact absurd (passed_of_unclosed more hpassed₂ hmore) hpassed
    | some within =>
      cases more with
      | forest g =>
        let tag : Tag :=
          ⟨p, name, attributes, region, none, b₁.styles.top, b₁.document.styles.size⟩
        exact ⟨f.events, tag, within, g, b₁, b₂, rfl, hf, ⟨outer, houter, hat⟩, hin₁, rfl, rfl,
          hopen, hwithin, hmore⟩
      | opened g p' name' attributes' more' =>
        obtain ⟨_, hentered, -⟩ := opened_adds (p := p) hin₁ hwithin hopen none
        obtain ⟨before, tag, within', inside, c₀, c₁, hinner⟩ :=
          ih (by simp) hentered.inside ((Region.at?_cons hat).trans hwithin) hmore hpassed
        have hfront : b.run (f.events ++ [(p, .opened name attributes)]) = .ok b₂ :=
          run_append_ok.2 ⟨b₁, hf, run_cons_ok.2 ⟨b₂, hopen, rfl⟩⟩
        have hopened : openAfter outer (f.events ++ [(p, .opened name attributes)]) =
            some (name :: outer) := by
          rw [openAfter_append, houter]
          rfl
        have hwhole := hinner.prepend hfront hopened
        exact ⟨_, tag, within', inside, c₀, c₁, by simpa using hwhole⟩

/-- Before the root nothing but blanks is read. -/
theorem run_prolog : ∀ (f : Forest) {b b' : Builder}, b.frame = .prolog →
    b.run f.events = .ok b' → b'.frame = .prolog → b' = b
  | .nil, _, _, _, h, _ => (Except.ok.inj h).symm
  | .text p s rest, b, b', hframe, h, hend => by
    obtain ⟨b₁, htext, hrest⟩ := run_text h
    cases gathers hframe htext
    exact run_prolog rest hframe hrest hend
  | .element p name attributes inside q rest, b, b', hframe, h, hend => by
    obtain ⟨b₁, b₂, b₃, hopen, hinside, hclose, hrest⟩ := run_element h
    -- The element is the root, and behind it there is no way back.
    cases begins hframe hopen
    have hlevel := level_run inside hinside
    have hroot : b₂.frame = .root := hlevel.frame.cases
    cases closes hroot hclose
    rw [leave_eq hlevel.outer] at hrest
    have hafter := run_epilog rest rfl hrest
    rw [hafter] at hend
    cases hend

/-- Where the content of a body is read, there is an innermost tag. -/
theorem exists_innermost {number : Nat} {registry : Registry} (h : Unclosed names events)
    (hrun : (start number registry).run events = .ok b) (hregion : b.frame.region? = some region)
    (hne : region ≠ .root) : ∃ before tag within inside b₀ b₁,
      Innermost (start number registry) [] events b before tag within inside b₀ b₁ := by
  cases h with
  | forest f =>
    have hframe : b.frame = .prolog ∨ b.frame = .epilog := (level_run f hrun).frame.cases
    rcases hframe with hframe | hframe <;> simp [hframe, Frame.region?] at hregion
  | @opened f p name attributes names events more =>
    obtain ⟨b₁, hf, hrun⟩ := run_append_ok.1 hrun
    obtain ⟨b₂, hopen, hmore⟩ := run_cons_ok.1 hrun
    have hframe : b₁.frame = .prolog ∨ b₁.frame = .epilog := (level_run f hf).frame.cases
    rcases hframe with hframe | hframe
    · obtain rfl := run_prolog f rfl hf hframe
      have hroot : b₂ = inRoot number registry := by
        change (start number registry).opened p name attributes = .ok b₂ at hopen
        cases begins (f := .prolog) rfl hopen
        rfl
      subst hroot
      have hpassed : ¬ b.frame.IsPassed := by
        intro hpassed
        cases hf : b.frame <;> simp [hf, Frame.region?, Frame.IsPassed] at hregion hpassed
      have hnames : names ≠ [] := by
        intro hnames
        cases more with
        | forest g =>
          have hroot : b.frame = .root := (level_run g hmore).frame.cases
          rw [hroot] at hregion
          exact hne (Option.some.inj hregion).symm
        | opened => simp at hnames
      have hat : Region.at? [name] = some .root := rfl
      obtain ⟨before, tag, within, inside, c₀, c₁, hinner⟩ :=
        exists_innermost_of_inside more hnames (inside_inRoot number registry) hat hmore hpassed
      have hfront : (start number registry).run (f.events ++ [(p, .opened name attributes)]) =
          .ok (inRoot number registry) :=
        run_append_ok.2 ⟨_, hf, run_cons_ok.2 ⟨_, hopen, rfl⟩⟩
      have hopened : openAfter [] (f.events ++ [(p, .opened name attributes)]) = some [name] := by
        rw [openAfter_append, f.openAfter_events]
        rfl
      have hwhole := hinner.prepend hfront hopened
      exact ⟨_, tag, within, inside, c₀, c₁, by simpa using hwhole⟩
    · change b₁.opened p name attributes = .ok b₂ at hopen
      cases begins hframe hopen

/-! ### Its elements -/

theorem mem_shapes_cases {kind : ElementKind} {node : Nat} {shapes : List (ElementKind × Nat)}
    (h : (kind, node) ∈ shapes) :
    (∃ s, (s, node) ∈ textShapes shapes) ∨ (kind.name, node) ∈ partShapes shapes := by
  cases kind with
  | text s => exact .inl ⟨s, List.mem_filterMap.2 ⟨_, h, rfl⟩⟩
  | _ => exact .inr (List.mem_filterMap.2 ⟨_, h, rfl⟩)

theorem length_shapes (shapes : List (ElementKind × Nat)) :
    shapes.length = (textShapes shapes).length + (partShapes shapes).length := by
  induction shapes with
  | nil => rfl
  | cons shape shapes ih =>
    obtain ⟨kind, node⟩ := shape
    rw [List.length_cons, ih]
    cases kind with
    | text s =>
      show _ = (textShapes shapes).length + 1 + _
      exact Nat.add_right_comm _ _ _
    | _ => rfl

theorem length_shapes_document (d : Document) : d.shapes.length = d.size := by
  simp [Document.shapes, Document.size]

theorem Innermost.isOpened {first : Builder}
    (h : Innermost first outer events b before tag within inside b₀ b₁) :
    Opened b₀ tag within b₁ := by
  have hopened := opened_adds (p := tag.position) h.stands h.within h.opened tag.outer
  rwa [← h.parent, ← h.node] at hopened

section

variable {first : Builder} {j : Nat} {kind : ElementKind}
  (h : Innermost first outer events b before tag within inside b₀ b₁)

include h

/-- Of the elements made at the start tag, only the last one has the tag's node. -/
theorem Innermost.made (hstyled : ∀ shape ∈ b₀.document.shapes, shape.2 < b₀.document.styles.size)
    (hj : b₁.document.shapes[j]? = some (kind, tag.node)) :
    b₁.document.size = j + 1 ∧ owed b₁.frame = [] ∧ tag.kindName?.isSome = true := by
  obtain ⟨shapes, ⟨hadds, -, -, -⟩, htexts, hparts⟩ := h.isOpened
  have hbound := (List.getElem?_eq_some_iff.1 hj).1
  have hwhole := congrArg List.length hadds.shapes
  -- It is neither an old one nor the text that the tag has ended.
  have hold : b₀.document.shapes.length ≤ j := by
    refine Nat.le_of_not_lt fun hlt => ?_
    rw [hadds.shapes, List.getElem?_append_left hlt] at hj
    have hless := hstyled _ (List.mem_of_getElem? hj)
    rw [← h.node] at hless
    exact Nat.lt_irrefl _ hless
  rw [hadds.shapes, List.getElem?_append_right hold] at hj
  have htext : (keptShape b₀.text b₀.styles.top).length ≤ j - b₀.document.shapes.length := by
    refine Nat.le_of_not_lt fun hlt => ?_
    rw [List.getElem?_append_left hlt] at hj
    obtain ⟨run, hrun, heq⟩ := List.mem_map.1 (List.mem_of_getElem? hj)
    have hsame : run.2 = tag.node := congrArg Prod.snd heq
    rw [Forest.mem_keptText hrun, h.node] at hsame
    exact Nat.ne_of_lt h.stands.top hsame
  -- The tag makes one at most.
  have hmade : (partShapes shapes).length + (owed b₁.frame).length =
      (tag.kindName?.map (·, tag.node)).toList.length := by
    rw [← List.length_append, hparts]
    rfl
  have hlength := length_shapes shapes
  rw [htexts, List.length_nil] at hlength
  simp only [List.length_append, length_shapes_document] at hwhole hold htext hbound
  cases hkind : tag.kindName? with
  | none =>
    simp only [hkind, Option.map_none, Option.toList_none, List.length_nil] at hmade
    omega
  | some name =>
    simp only [hkind, Option.map_some, Option.toList_some, List.length_singleton] at hmade
    exact ⟨by omega, List.eq_nil_of_length_eq_zero (by omega), rfl⟩

/-- Of the elements made behind the start tag, only texts have the tag's node. -/
theorem Innermost.text_of_le (hle : b₁.document.size ≤ j)
    (hj : b.document.shapes[j]? = some (kind, tag.node)) :
    tag.isContainer = false ∧ within = .content ∧ ∃ s, (s, tag.node) ∈
      (inside.runs .content tag.node b₁.document.styles.size "").1 := by
  obtain ⟨_, ⟨hadds₁, hin₁, hseat, htext₁⟩, -⟩ := h.isOpened
  obtain ⟨found, hadds, htexts, hparts, -⟩ := mirrors_run inside (some tag.node) hin₁ h.behind
  have hlt : tag.node < b₁.document.styles.size := by
    rw [h.node]
    have hsize := hadds₁.size
    rw [Tag.length_nodes] at hsize
    have hcount : 0 < tag.count := tag.count_pos
    omega
  rw [← length_shapes_document] at hle
  rw [hadds.shapes, List.getElem?_append_right hle] at hj
  rcases mem_shapes_cases (List.mem_of_getElem? hj) with ⟨s, hs⟩ | hpart
  · rw [htexts, htext₁, hseat] at hs
    rcases inside.seat_of_mem_runs (fun _ => rfl) hs with hle | ⟨hnode, rfl⟩
    · exact absurd hlt (Nat.not_lt.2 hle)
    · have hcontainer : tag.isContainer = false := by
        rw [Bool.eq_false_iff]
        intro hc
        simp [Tag.seat, hc] at hnode
      exact ⟨hcontainer, rfl, s, hnode ▸ hs⟩
  · -- What is no text has the node of its own tag.
    obtain ⟨other, hother, hmade⟩ := List.mem_flatMap.1 (hparts.mem_iff.1 hpart)
    obtain ⟨name, -, heq⟩ := Option.map_eq_some_iff.1 (Option.mem_toList.1 hmade)
    have hsame : other.node = tag.node := congrArg Prod.snd heq
    exact absurd hlt (Nat.not_lt.2 (hsame ▸ (inside.numbered_tags _ _ _ _).le_node hother))

/-- An element with the node of the innermost tag is the one that the tag makes, which
is the last one behind the start tag, or a text directly inside. -/
theorem Innermost.made_or_text
    (hstyled : ∀ shape ∈ b₀.document.shapes, shape.2 < b₀.document.styles.size)
    (hj : b.document.shapes[j]? = some (kind, tag.node)) :
    (b₁.document.size = j + 1 ∧ owed b₁.frame = [] ∧ tag.kindName?.isSome = true) ∨
      (tag.isContainer = false ∧ within = .content ∧ ∃ s, (s, tag.node) ∈
        (inside.runs .content tag.node b₁.document.styles.size "").1) := by
  by_cases hlt : j < b₁.document.shapes.length
  · obtain ⟨_, ⟨-, hin, -, -⟩, -⟩ := h.isOpened
    obtain ⟨found, hadds, -⟩ := mirrors_run inside none hin h.behind
    rw [hadds.shapes, List.getElem?_append_left hlt] at hj
    exact .inl (h.made hstyled hj)
  · rw [Nat.not_lt, length_shapes_document] at hlt
    exact .inr (h.text_of_le hlt hj)

end

end Builder

end RichText
