/-
# Cutting texts

Taking a known beginning or end off a text, and cutting it at a mark.

Key definitions: `afterLead?`, `beforeTail?`, `cutAt?`, `pieces`,
`sameLetters`.
Key theorems: `afterLead?_eq_some_iff`, `beforeTail?_append`, `cutAt?_eq_append`.
-/

namespace RichText.Text

/-- What follows `lead` in a text that begins with it. -/
def afterLead? : (lead s : List Char) → Option (List Char)
  | [], s => some s
  | _ :: _, [] => none
  | c :: lead, d :: s => if c = d then afterLead? lead s else none

theorem afterLead?_eq_some_iff {lead s rest : List Char} :
    afterLead? lead s = some rest ↔ s = lead ++ rest := by
  induction lead generalizing s with
  | nil => simp [afterLead?, eq_comm]
  | cons c lead ih =>
    cases s with
    | nil => simp [afterLead?]
    | cons d s => by_cases h : c = d <;> simp [afterLead?, h, ih, eq_comm]

/-- What stands before `tail` in a text that ends with it. -/
def beforeTail? (tail s : List Char) : Option (List Char) :=
  (afterLead? tail.reverse s.reverse).map List.reverse

theorem beforeTail?_append (s tail : List Char) : beforeTail? tail (s ++ tail) = some s := by
  have hlead : afterLead? tail.reverse (tail.reverse ++ s.reverse) = some s.reverse :=
    afterLead?_eq_some_iff.2 rfl
  rw [beforeTail?, List.reverse_append, hlead, Option.map_some, List.reverse_reverse]

theorem eq_append_of_beforeTail? {s tail before : List Char}
    (h : beforeTail? tail s = some before) : s = before ++ tail := by
  obtain ⟨rest, hrest, rfl⟩ := Option.map_eq_some_iff.1 h
  rw [← List.reverse_reverse s, afterLead?_eq_some_iff.1 hrest]
  simp

/-- Whether a text begins with `lead`. -/
def hasLead (lead s : List Char) : Bool := (afterLead? lead s).isSome

/-- What stands before and after the first `mark` of a text. -/
def cutAt? (mark : List Char) : List Char → Option (List Char × List Char)
  | [] => if mark = [] then some ([], []) else none
  | c :: s =>
    match afterLead? mark (c :: s) with
    | some rest => some ([], rest)
    | none => (cutAt? mark s).map fun cut => (c :: cut.1, cut.2)

/-- Nothing but the mark is lost in a cut. -/
theorem cutAt?_eq_append {mark s before after : List Char}
    (h : cutAt? mark s = some (before, after)) : s = before ++ mark ++ after := by
  induction s generalizing before with
  | nil =>
    by_cases hm : mark = [] <;> simp_all [cutAt?]
  | cons c s ih =>
    rw [cutAt?] at h
    split at h
    · next rest hr =>
      obtain ⟨rfl, rfl⟩ := by simpa using h
      simpa using afterLead?_eq_some_iff.1 hr
    · obtain ⟨⟨b, a⟩, hc, he⟩ := Option.map_eq_some_iff.1 h
      obtain ⟨rfl, rfl⟩ := by simpa using he
      simp [ih hc]

/-- No text gets longer by a cut. -/
theorem length_le_of_cutAt? {mark s before after : List Char}
    (h : cutAt? mark s = some (before, after)) : after.length ≤ s.length := by
  simp only [cutAt?_eq_append h, List.length_append]
  omega

/-- The parts of a text between separators, with the part begun before it. -/
def piecesFrom (separator : Char) (part : List Char) : List Char → List (List Char)
  | [] => [part]
  | c :: s =>
    if c = separator then part :: piecesFrom separator [] s
    else piecesFrom separator (part ++ [c]) s

/-- The parts of a text between separators: one more than there are. -/
def pieces (separator : Char) (s : List Char) : List (List Char) := piecesFrom separator [] s

/-- Small letters for the capitals of ASCII. -/
def lowerCase (s : String) : String := s.map Char.toLower

/-- Whether two texts differ at most in the case of ASCII letters. -/
def sameLetters (s t : String) : Bool := lowerCase s == lowerCase t

end RichText.Text
