/-
# Inline styles recover declaration by declaration

Behind a text in which every quote is closed, a semicolon begins the next segment as
if nothing stood before it (`segments_append_semicolon`). So an inline style can be
cut at such a semicolon, and its parts applied one after another
(`applyInline_append`): nothing of the first part reaches into the second but the
style that it makes. A declaration that is refused makes none, so the inline style
without it sets the same and reports the same otherwise (`inline_recovers`).

Whether a semicolon stands in a quoted string depends on all that stands before it, so
the induction is over a text read from any quote on, and not from its beginning.

Key definitions: `openQuote`, `QuotesClosed`, `joined`.
Key theorems: `segments_append_semicolon`, `inlinePairs_joined_append`,
`applyInline_append`, `applyInline_joined_append`, `inline_recovers`.
-/
import RichText.Declaration.Inline

namespace RichText.Declaration

/-! ### Quotes -/

/-- The quote that is open behind a character. -/
def quoteBehind (quote : Option Char) (c : Char) : Option Char :=
  match quote with
  | some q => if c = q then none else some q
  | none => if c = '"' ∨ c = '\'' then some c else none

/-- The quote that is open behind a text, in front of which `quote` is. -/
def openQuote (quote : Option Char) (s : List Char) : Option Char := s.foldl quoteBehind quote

/-- Every quote that the text opens, it closes. -/
def QuotesClosed (text : String) : Prop := openQuote none text.toList = none

instance (text : String) : Decidable (QuotesClosed text) :=
  inferInstanceAs (Decidable (openQuote none text.toList = none))

/-- Texts with semicolons between them. -/
def joined (parts : List String) : String := ";".intercalate parts

theorem joined_cons (p : String) {parts : List String} (h : parts ≠ []) :
    joined (p :: parts) = p ++ ";" ++ joined parts := by
  obtain ⟨next, more, rfl⟩ := List.exists_cons_of_ne_nil h
  rw [joined, String.intercalate_cons_cons]
  rfl

/-! ### Segments -/

/-- A semicolon outside of quotes ends what has been read. -/
theorem segments_append_semicolon (b : List Char) : ∀ {a : List Char} {quote : Option Char},
    openQuote quote a = none → ∀ part : List Char,
    segments quote part (a ++ ';' :: b) = segments quote part a ++ segments none [] b
  | [], quote, h, part => by
    obtain rfl : quote = none := h
    simp [segments]
  | c :: a, some q, h, part => by
    have hrest : openQuote (if c = q then none else some q) a = none := h
    rw [List.cons_append, segments, segments]
    exact segments_append_semicolon b hrest _
  | c :: a, none, h, part => by
    have hrest : openQuote (if c = '"' ∨ c = '\'' then some c else none) a = none := h
    rw [List.cons_append, segments, segments]
    by_cases hquote : c = '"' ∨ c = '\''
    · rw [if_pos hquote] at hrest
      simp only [if_pos hquote]
      exact segments_append_semicolon b hrest _
    · rw [if_neg hquote] at hrest
      simp only [if_neg hquote]
      by_cases hend : c = ';'
      · rw [if_pos hend, if_pos hend, segments_append_semicolon b hrest, List.cons_append]
      · rw [if_neg hend, if_neg hend]
        exact segments_append_semicolon b hrest _

/-- The declarations of two texts with a semicolon between them. -/
theorem inlinePairs_append {a : String} (h : QuotesClosed a) (b : String) :
    inlinePairs (a ++ ";" ++ b) = inlinePairs a ++ inlinePairs b := by
  have htext : (a ++ ";" ++ b).toList = a.toList ++ ';' :: b.toList := by simp
  rw [inlinePairs, htext, segments_append_semicolon b.toList h, List.filterMap_append]
  rfl

/-- The last part may leave a quote open. -/
theorem inlinePairs_joined_cons {p : String} {parts : List String}
    (h : parts ≠ [] → QuotesClosed p) :
    inlinePairs (joined (p :: parts)) = inlinePairs p ++ inlinePairs (joined parts) := by
  by_cases hparts : parts = []
  · subst hparts
    have hone : joined [p] = p := String.intercalate_singleton
    have hnone : inlinePairs (joined []) = [] := rfl
    rw [hone, hnone, List.append_nil]
  · rw [joined_cons p hparts, inlinePairs_append (h hparts)]

/-- Behind closed parts the declarations are those of the parts that follow. -/
theorem inlinePairs_joined_append (back : List String) : ∀ {front : List String},
    (∀ p ∈ front, QuotesClosed p) →
    inlinePairs (joined (front ++ back)) =
      inlinePairs (joined front) ++ inlinePairs (joined back)
  | [], _ => rfl
  | p :: front, h => by
    obtain ⟨hp, hfront⟩ := List.forall_mem_cons.1 h
    rw [List.cons_append, inlinePairs_joined_cons fun _ => hp, inlinePairs_joined_cons fun _ => hp,
      inlinePairs_joined_append back hfront, List.append_assoc]

/-! ### What is applied -/

/-- What is applied in two parts is reported in two parts. -/
theorem applyAll_append (f : String × String → Style → Except StyleError Style) :
    ∀ (pairs more : List (String × String)) (s : Style),
      applyAll f s (pairs ++ more) =
        ((applyAll f s pairs).1 ++ (applyAll f (applyAll f s pairs).2 more).1,
          (applyAll f (applyAll f s pairs).2 more).2)
  | [], more, s => rfl
  | pair :: pairs, more, s => by
    rw [List.cons_append, applyAll, applyAll]
    cases f pair s with
    | ok s' => exact applyAll_append f pairs more s'
    | error e => simp only [applyAll_append f pairs more s, List.cons_append]

/-- What is refused is reported, and otherwise passed over. -/
theorem applyAll_cons_error {f : String × String → Style → Except StyleError Style} {s : Style}
    {pair : String × String} {e : StyleError} (h : f pair s = .error e)
    (pairs : List (String × String)) :
    applyAll f s (pair :: pairs) =
      (⟨pair.1, pair.2, e⟩ :: (applyAll f s pairs).1, (applyAll f s pairs).2) := by
  rw [applyAll, h]

theorem applyInline_append (r : Registry) (s : Style) {a : String} (h : QuotesClosed a)
    (b : String) :
    applyInline r s (a ++ ";" ++ b) =
      ((applyInline r s a).1 ++ (applyInline r (applyInline r s a).2 b).1,
        (applyInline r (applyInline r s a).2 b).2) := by
  rw [applyInline, inlinePairs_append h, applyAll_append]
  rfl

/-- Behind closed parts the others are applied to the style that those make. -/
theorem applyInline_joined_append (r : Registry) (s : Style) {front : List String}
    (h : ∀ p ∈ front, QuotesClosed p) (back : List String) :
    applyInline r s (joined (front ++ back)) =
      ((applyInline r s (joined front)).1 ++
          (applyInline r (applyInline r s (joined front)).2 (joined back)).1,
        (applyInline r (applyInline r s (joined front)).2 (joined back)).2) := by
  rw [applyInline, inlinePairs_joined_append _ h, applyAll_append]
  rfl

/-- A part that is refused leaves the style to the parts behind it. -/
theorem applyInline_joined_refused {r : Registry} {s : Style} {text : String}
    {pair : String × String} {e : StyleError} {back : List String}
    (htext : back ≠ [] → QuotesClosed text) (hpair : inlinePairs text = [pair])
    (h : applyPair r pair s = .error e) :
    applyInline r s (joined (text :: back)) =
      (⟨pair.1, pair.2, e⟩ :: (applyInline r s (joined back)).1,
        (applyInline r s (joined back)).2) := by
  rw [applyInline, inlinePairs_joined_cons htext, hpair, List.singleton_append]
  exact applyAll_cons_error h (inlinePairs (joined back))

/-- **Inline styles recover declaration by declaration.** Where all quotes are closed
before a semicolon, what follows it is applied to the style that what precedes it
makes, and reported behind it. So a declaration that is refused where it stands can be
taken out, whatever stands around it: the style stays the same, and all that is
reported but the refusal. -/
theorem inline_recovers (r : Registry) (s : Style) :
    (∀ a b : String, QuotesClosed a →
      applyInline r s (a ++ ";" ++ b) =
        ((applyInline r s a).1 ++ (applyInline r (applyInline r s a).2 b).1,
          (applyInline r (applyInline r s a).2 b).2)) ∧
    ∀ (front back : List String) (text : String) (pair : String × String) (e : StyleError),
      (∀ p ∈ front, QuotesClosed p) → (back ≠ [] → QuotesClosed text) →
      inlinePairs text = [pair] →
      applyPair r pair (applyInline r s (joined front)).2 = .error e →
      ∃ reported, applyInline r s (joined (front ++ back)) =
          ((applyInline r s (joined front)).1 ++ reported,
            (applyInline r s (joined (front ++ text :: back))).2) ∧
        (applyInline r s (joined (front ++ text :: back))).1 =
          (applyInline r s (joined front)).1 ++ ⟨pair.1, pair.2, e⟩ :: reported := by
  refine ⟨fun a b h => applyInline_append r s h b, ?_⟩
  intro front back text pair e hfront htext hpair hrefused
  -- The front is applied alike in both texts, and the refusal leaves the style it makes.
  have hbehind := applyInline_joined_refused htext hpair hrefused
  have hwithout := applyInline_joined_append r s hfront back
  have hwith := applyInline_joined_append r s hfront (text :: back)
  rw [hbehind] at hwith
  exact ⟨_, by rw [hwithout, hwith], by rw [hwith]⟩

/-- A declaration that is refused between two others, in front of a string that is not closed. -/
theorem inline_recovers_bogus :
    ∃ reported, applyInline .standard .empty "list-style-image: ';';color: 'red" =
        ([] ++ reported,
          (applyInline .standard .empty "list-style-image: ';';bogus: 1;color: 'red").2) ∧
      (applyInline .standard .empty "list-style-image: ';';bogus: 1;color: 'red").1 =
        [] ++ ⟨"bogus", "1", .unknownProperty "bogus"⟩ :: reported :=
  (inline_recovers .standard .empty).2 ["list-style-image: ';'"] ["color: 'red"] "bogus: 1"
    ("bogus", "1") (.unknownProperty "bogus") (List.forall_mem_singleton.2 (by decide +kernel))
    (fun _ => by decide +kernel) (by decide +kernel) rfl

end RichText.Declaration
