/-
# Where tags stand

What a start tag means depends on the region that it stands in, and says which
region it opens. Some elements are passed over with all inside them: a head, and
whatever stands beside head and body. Of these, nothing but links and the title
gets into the document (`Builder.still_run`).

Key definitions: `Region`, `Region.inside`, `Frame.region?`, `Frame.IsPassed`,
`Builder.Still`.
Key theorems: `Builder.still_run`, `Builder.opens_of_region`.
-/
import RichText.Proofs.Balance

namespace RichText

open Markup Text

/-- What a start tag stands in. -/
inductive Region where
  /-- The root, beside head and body. -/
  | root
  /-- The content of a container. -/
  | content
  /-- A list with numbers, outside its items. -/
  | list
  /-- A table, outside its cells. -/
  | table
deriving DecidableEq, Repr

/-- What an element opens, or `none` if it is passed over. -/
def Region.inside : Region → (name : String) → Option Region
  | root, name => if name = "body" then some content else none
  | content, name =>
    if name = "head" then none
    else if name = "ol" then some list
    else if name = "table" then some table
    else some content
  | list, name => some (if name = "li" then content else list)
  | table, name => some (if name = "td" ∨ name = "th" then content else table)

/-- Inside all other elements in a container its content goes on. -/
theorem Region.inside_content {name : String} (hhead : name ≠ "head") (hol : name ≠ "ol")
    (htable : name ≠ "table") : Region.content.inside name = some .content := by
  simp [inside, hhead, hol, htable]

namespace Frame

/-- The region whose events the frame reads. -/
def region? : Frame → Option Region
  | .root => some .root
  | .inline => some .content
  | .container _ _ _ => some .content
  | .orderedList _ _ => some .list
  | .table _ _ => some .table
  | _ => none

/-- Whether the frame passes over what it reads. -/
def IsPassed : Frame → Prop
  | .head _ => True
  | .title _ _ => True
  | .skipped _ => True
  | _ => False

theorem Follows.region?_eq {f g : Frame} (h : f.Follows g) : g.region? = f.region? := by
  cases h <;> rfl

theorem Follows.eq_of_content {f g : Frame} (h : f.Follows g) (hf : f.region? = some .content) :
    g = f := by
  cases h with
  | refl => rfl
  | _ => simp [Frame.region?] at hf

theorem Follows.isPassed {f g : Frame} (h : f.Follows g) (hf : f.IsPassed) : g.IsPassed := by
  cases h with
  | refl => exact hf
  | root => exact hf.elim
  | title => trivial
  | table => exact hf.elim

end Frame

namespace Builder

variable {b b₁ b' : Builder} {p : Position} {name : String} {attributes : Attributes}

/-! ### What is passed over -/

/-- Nothing has been added to the content of the document. -/
structure Still (b b' : Builder) : Prop where
  tree : b'.document.styles = b.document.styles
  elements : b'.document.elements = b.document.elements
  roots : b'.document.roots = b.document.roots
  text : b'.text = b.text

theorem Still.refl (b : Builder) : Still b b := ⟨rfl, rfl, rfl, rfl⟩

theorem Still.trans (h : Still b b₁) (h' : Still b₁ b') : Still b b' :=
  ⟨h'.tree.trans h.tree, h'.elements.trans h.elements, h'.roots.trans h.roots,
    h'.text.trans h.text⟩

theorem still_leave (b : Builder) : Still b b.leave := by
  unfold leave
  split <;> exact ⟨rfl, rfl, rfl, rfl⟩

theorem still_opened (hframe : b.frame.IsPassed) (h : b.opened p name attributes = .ok b₁) :
    Still b b₁ ∧ b₁.frame.IsPassed := by
  generalize hf : b.frame = f at hframe
  cases begins hf h with
  | head depth h => cases h <;> exact ⟨⟨rfl, rfl, rfl, rfl⟩, trivial⟩
  | title | skipped => exact ⟨⟨rfl, rfl, rfl, rfl⟩, trivial⟩
  | _ => exact hframe.elim

theorem still_closed (hframe : b.frame.IsPassed) (h : b.closed p name = .ok b') : Still b b' := by
  generalize hf : b.frame = f at hframe
  cases closes hf h with
  | head | skipped => exact b.still_leave
  | title s =>
    have hleave := still_leave
      { b with document := b.document.setTitle (String.ofList (Text.trim s.toList)) }
    exact ⟨hleave.tree, hleave.elements, hleave.roots, hleave.text⟩
  | inHead | inTitle | inSkipped => exact ⟨rfl, rfl, rfl, rfl⟩
  | _ => exact hframe.elim

theorem still_textRead {s : String} (hframe : b.frame.IsPassed) (h : b.textRead p s = .ok b') :
    Still b b' := by
  generalize hf : b.frame = f at hframe
  cases gathers hf h with
  | title => exact ⟨rfl, rfl, rfl, rfl⟩
  | head | skipped => exact .refl b
  | _ => exact hframe.elim

/-- What is passed over adds nothing. -/
theorem still_run : ∀ (f : Forest) {b b' : Builder}, b.frame.IsPassed →
    b.run f.events = .ok b' → Still b b'
  | .nil, b, b', _, h => by
    obtain rfl := Except.ok.inj h
    exact .refl _
  | .text p s rest, b, b', hframe, h => by
    obtain ⟨b₁, htext, hrest⟩ := run_text h
    have hframe₁ := (level_textRead htext).frame.isPassed hframe
    exact (still_textRead hframe htext).trans (still_run rest hframe₁ hrest)
  | .element p name attributes inside q rest, b, b', hframe, h => by
    obtain ⟨b₁, b₂, b₃, hopen, hinside, hclose, hrest⟩ := run_element h
    obtain ⟨hstill, hframe₁⟩ := still_opened hframe hopen
    have hlevel := level_run inside hinside
    have hframe₂ := hlevel.frame.isPassed hframe₁
    have hframe₃ := (level_element hopen hlevel hclose).frame.isPassed hframe
    exact hstill.trans <| (still_run inside hframe₁ hinside).trans <|
      (still_closed hframe₂ hclose).trans (still_run rest hframe₃ hrest)

/-! ### What is read -/

/-- What a start tag does in a region. -/
inductive OpensIn (b : Builder) (name : String) (attributes : Attributes) (b' : Builder) :
    Region → Prop
  | root (h : OpensRoot b name attributes b') : OpensIn b name attributes b' .root
  | content (h : OpensContent b name attributes b') : OpensIn b name attributes b' .content
  | list {list depth : Nat} (hframe : b.frame = .orderedList list depth)
    (h : OpensList b list depth name attributes b') : OpensIn b name attributes b' .list
  | table {draft : TableDraft} {depth : Nat} (hframe : b.frame = .table draft depth)
    (h : OpensTable b draft depth name attributes b') : OpensIn b name attributes b' .table

theorem opens_of_region {region : Region} (hregion : b.frame.region? = some region)
    (h : b.opened p name attributes = .ok b') : OpensIn b name attributes b' region := by
  generalize hframe : b.frame = f at hregion
  cases begins hframe h with
  | root h =>
    obtain rfl : Region.root = region := Option.some.inj hregion
    exact .root h
  | inline h =>
    obtain rfl : Region.content = region := Option.some.inj hregion
    exact .content h
  | container _ _ _ h =>
    obtain rfl : Region.content = region := Option.some.inj hregion
    exact .content h
  | orderedList _ _ h =>
    obtain rfl : Region.list = region := Option.some.inj hregion
    exact .list hframe h
  | table _ _ h =>
    obtain rfl : Region.table = region := Option.some.inj hregion
    exact .table hframe h
  | _ => cases hregion

/-- A tag that is passed over adds nothing. -/
theorem opened_passed {region : Region} (hregion : b.frame.region? = some region)
    (hnone : region.inside name = none) (hopen : b.opened p name attributes = .ok b₁) :
    Still b b₁ ∧ b₁.frame.IsPassed := by
  cases opens_of_region hregion hopen with
  | root h =>
    cases h with
    | head => exact ⟨⟨rfl, rfl, rfl, rfl⟩, trivial⟩
    | body hn => simp [Region.inside, hn] at hnone
    | skipped => exact ⟨⟨rfl, rfl, rfl, rfl⟩, trivial⟩
  | content h =>
    have hn : name = "head" := by
      unfold Region.inside at hnone
      by_contra hn
      simp only [if_neg hn] at hnone
      split at hnone
      · nomatch hnone
      · split at hnone <;> nomatch hnone
    subst hn
    cases h with
    | head => exact ⟨⟨rfl, rfl, rfl, rfl⟩, trivial⟩
    | container hn => exact absurd rfl hn
    | orderedList hn => simp at hn
    | table hn => simp at hn
    | leaf _ hk => simp [leafKind?] at hk
    | inline hn => exact absurd rfl hn.1
  | list => simp [Region.inside] at hnone
  | table => simp [Region.inside] at hnone

/-- An element whose tag is passed over adds nothing. -/
theorem still_element {region : Region} {inside : Forest} {b₂ : Builder} {q : Position}
    (hregion : b.frame.region? = some region) (hnone : region.inside name = none)
    (hopen : b.opened p name attributes = .ok b₁) (hinside : b₁.run inside.events = .ok b₂)
    (hclose : b₂.closed q name = .ok b') : Still b b' := by
  obtain ⟨hstill, hpassed⟩ := opened_passed hregion hnone hopen
  have hpassed₂ := (level_run inside hinside).frame.isPassed hpassed
  exact hstill.trans <| (still_run inside hpassed hinside).trans (still_closed hpassed₂ hclose)

/-- A text counts only in the content of a container. -/
theorem textRead_of_region {region : Region} {s : String} (hregion : b.frame.region? = some region)
    (h : b.textRead p s = .ok b') :
    b' = { b with text := if region = .content then b.text ++ s else b.text } := by
  obtain ⟨f, hf⟩ : ∃ f, b.frame = f := ⟨_, rfl⟩
  rw [hf] at hregion
  cases gathers hf h with
  | inline | container =>
    obtain rfl : Region.content = region := Option.some.inj hregion
    rfl
  | root =>
    obtain rfl : Region.root = region := Option.some.inj hregion
    rfl
  | orderedList =>
    obtain rfl : Region.list = region := Option.some.inj hregion
    rfl
  | table =>
    obtain rfl : Region.table = region := Option.some.inj hregion
    rfl
  | _ => cases hregion

end Builder

end RichText
