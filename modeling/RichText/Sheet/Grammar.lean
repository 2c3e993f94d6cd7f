/-
# The grammar of a stylesheet

    stylesheet   := (rule | atRule)* end
    atRule       := '@' name '{' declarations
    rule         := selector (',' selector)* '{' declarations
    selector     := compound ('>'? compound)*
    compound     := (name | '*')? ('.' name | '#' name | ':' name)*
    declarations := (name ':' value (';' | '}'))* '}'

A compound may begin with a suffix, but not be empty. Between the parts of a
compound there is no blank; two compounds are apart by blanks or by `>`. Of
several suffixes of one kind the last one counts.

Each reader takes the lexemes it needs and returns the rest.

Key definitions: `declarations`, `compound`, `chain`, `selectors`,
`stylesheet`, `parse`.
Key theorems: `compound_size_lt`, `chain_size_lt`, `selectors_size_lt`,
`declarations_size_lt`.
-/
import RichText.Sheet.Basic
import RichText.Sheet.Lexeme
import RichText.Text.Blank

namespace RichText.Sheet

/-- The declarations of a block, up to the brace that closes it. -/
def declarations : Lexemes → Except ParseError (List Declaration × Lexemes)
  | .next name rest =>
    if name.token = .blockClose then .ok ([], rest)
    else if name.token ≠ .identifier then .error name.unexpected
    else
      match rest with
      | .next colon (.next stop rest) =>
        let declaration : Declaration :=
          ⟨name.text, String.ofList (Text.trim stop.value.toList), name.start.line⟩
        if colon.token ≠ .colon then .error colon.unexpected
        else if stop.token = .blockClose then .ok ([declaration], rest)
        else if stop.token ≠ .semicolon then .error stop.unexpected
        else (declarations rest).map fun more => (declaration :: more.1, more.2)
      | .next colon rest =>
        if colon.token ≠ .colon then .error colon.unexpected else .error rest.unexpected
      | rest => .error rest.unexpected
  | lexemes => .error lexemes.unexpected

/-- Whether a token begins a suffix of a compound. -/
def Token.beginsSuffix : Token → Bool
  | .dot | .hash | .colon => true
  | _ => false

/-- The compound with the suffix `name` that `token` begins. -/
def Compound.withSuffix (c : Compound) (token : Token) (name : String) : Compound :=
  match token with
  | .dot => { c with className := some name }
  | .hash => { c with id := some name }
  | _ => { c with pseudoClass := some name }

/-- The suffixes of the compound `c`. The first one may follow a blank if the
compound begins with it. -/
def suffixes (begins : Bool) (c : Compound) : Lexemes → Except ParseError (Compound × Lexemes)
  | .next mark rest =>
    if mark.token.beginsSuffix && (begins || !mark.sawBlank) then
      match rest with
      | .next name rest =>
        if name.token = .identifier then suffixes false (c.withSuffix mark.token name.text) rest
        else .error name.unexpected
      | rest => .error rest.unexpected
    else .ok (c, .next mark rest)
  | .ended position => .ok (c, .ended position)
  | .failed error => .error error

theorem suffixes_size_le {begins : Bool} {c c' : Compound} {lexemes rest : Lexemes}
    (h : suffixes begins c lexemes = .ok (c', rest)) : rest.size ≤ lexemes.size := by
  fun_induction suffixes begins c lexemes with
  | case1 begins c mark _ name rest' _ ih =>
    have := ih h
    simp only [Lexemes.size]
    omega
  | case2 => simp at h
  | case3 => simp at h
  | case4 =>
    obtain ⟨-, rfl⟩ : _ ∧ _ = rest := by simpa using h
    simp
  | case5 =>
    obtain ⟨-, rfl⟩ : _ ∧ _ = rest := by simpa using h
    simp
  | case6 => simp at h

/-- One compound. -/
def compound : Lexemes → Except ParseError (Compound × Lexemes)
  | .next first rest =>
    match first.token with
    | .identifier => suffixes false { element := some first.text } rest
    | .star => suffixes false {} rest
    | .dot | .hash | .colon => suffixes true {} (.next first rest)
    | _ => .error first.unexpected
  | lexemes => .error lexemes.unexpected

/-- A compound takes at least one lexeme. -/
theorem compound_size_lt {c : Compound} {lexemes rest : Lexemes}
    (h : compound lexemes = .ok (c, rest)) : rest.size < lexemes.size := by
  have suffix (first : Lexeme) (more : Lexemes) (hm : first.token.beginsSuffix = true)
      (h : suffixes true {} (.next first more) = .ok (c, rest)) :
      rest.size < (Lexemes.next first more).size := by
    unfold suffixes at h
    simp only [hm, Bool.true_or, Bool.and_self, if_true] at h
    split at h
    · split at h
      · have := suffixes_size_le h
        simp only [Lexemes.size]
        omega
      · simp at h
    · simp at h
  unfold compound at h
  split at h
  · next first more =>
    split at h
    · have := suffixes_size_le h
      simp only [Lexemes.size]
      omega
    · have := suffixes_size_le h
      simp only [Lexemes.size]
      omega
    · next ht => exact suffix first more (by simp [ht, Token.beginsSuffix]) h
    · next ht => exact suffix first more (by simp [ht, Token.beginsSuffix]) h
    · next ht => exact suffix first more (by simp [ht, Token.beginsSuffix]) h
    · simp at h
  · simp at h

/-- A selector whose outer compounds are `outer`, the innermost of them first,
up to the comma or brace behind it, which is not taken. -/
def chain (outer : Chain) (lexemes : Lexemes) : Except ParseError (Chain × Lexemes) :=
  match h : compound lexemes with
  | .error e => .error e
  | .ok (c, .next mark more) =>
    have := compound_size_lt h
    match mark.token with
    | .greater => chain ({ c with directChild := true } :: outer) more
    | .comma | .blockOpen => .ok (c :: outer, .next mark more)
    | _ => chain (c :: outer) (.next mark more)
  | .ok (_, rest) => .error rest.unexpected
termination_by lexemes.size
decreasing_by all_goals simp only [Lexemes.size] at *; omega

/-- A selector takes at least one lexeme. -/
theorem chain_size_lt {outer found : Chain} {lexemes rest : Lexemes}
    (h : chain outer lexemes = .ok (found, rest)) : rest.size < lexemes.size := by
  fun_induction chain outer lexemes with
  | case1 => simp at h
  | case2 outer lexemes c mark more _ hlt _ ih =>
    have := ih h
    simp only [Lexemes.size] at *
    omega
  | case3 outer lexemes c mark more _ hlt =>
    obtain ⟨-, rfl⟩ : _ ∧ _ = rest := by simpa using h
    exact hlt
  | case4 outer lexemes c mark more _ hlt =>
    obtain ⟨-, rfl⟩ : _ ∧ _ = rest := by simpa using h
    exact hlt
  | case5 outer lexemes c mark more _ hlt _ _ _ ih =>
    have := ih h
    simp only [Lexemes.size] at *
    omega
  | case6 => simp at h

/-- The selectors of a rule, with the brace behind them. -/
def selectors (lexemes : Lexemes) : Except ParseError (List Chain × Lexemes) :=
  match h : chain [] lexemes with
  | .error e => .error e
  | .ok (first, .next mark more) =>
    have := chain_size_lt h
    if mark.token = .comma then
      match selectors more with
      | .error e => .error e
      | .ok (others, rest) => .ok (first :: others, rest)
    else if mark.token = .blockOpen then .ok ([first], more)
    else .error mark.unexpected
  | .ok (_, rest) => .error rest.unexpected
termination_by lexemes.size
decreasing_by simp only [Lexemes.size] at *; omega

/-- The selectors of a rule take at least one lexeme. -/
theorem selectors_size_lt {found : List Chain} {lexemes rest : Lexemes}
    (h : selectors lexemes = .ok (found, rest)) : rest.size < lexemes.size := by
  fun_induction selectors lexemes generalizing found rest with
  | case1 => simp at h
  | case2 => simp at h
  | case3 lexemes first mark more _ hlt _ others rest' hmore ih =>
    obtain ⟨-, rfl⟩ : _ ∧ _ = rest := by simpa using h
    have := ih hmore
    simp only [Lexemes.size] at *
    omega
  | case4 lexemes first mark more _ hlt =>
    obtain ⟨-, rfl⟩ : _ ∧ _ = rest := by simpa using h
    simp only [Lexemes.size] at *
    omega
  | case5 => simp at h
  | case6 => simp at h

/-- A block takes at least its closing brace. -/
theorem declarations_size_lt {found : List Declaration} {lexemes rest : Lexemes}
    (h : declarations lexemes = .ok (found, rest)) : rest.size < lexemes.size := by
  fun_induction declarations lexemes generalizing found rest with
  | case1 =>
    obtain ⟨-, rfl⟩ : _ ∧ _ = rest := by simpa using h
    simp [Lexemes.size]
  | case2 => simp at h
  | case3 => simp at h
  | case4 =>
    obtain ⟨-, rfl⟩ : _ ∧ _ = rest := by simpa using h
    simp only [Lexemes.size]
    omega
  | case5 => simp at h
  | case6 =>
    rename_i more _ _ _ _ ih
    cases hd : declarations more with
    | error e => simp [hd, Except.map] at h
    | ok found' =>
      obtain ⟨-, rfl⟩ : _ ∧ _ = rest := by simpa [hd, Except.map] using h
      have := ih hd
      simp only [Lexemes.size]
      omega
  | case7 => simp at h
  | case8 => simp at h
  | case9 => simp at h
  | case10 => simp at h

/-- The content of a stylesheet. -/
def stylesheet (lexemes : Lexemes) : Except ParseError Content :=
  match lexemes with
  | .ended _ => .ok {}
  | .failed e => .error e
  | .next first rest =>
    if first.token = .atSign then
      match rest with
      | .next name (.next brace rest) =>
        if name.token ≠ .identifier then .error name.unexpected
        else if brace.token ≠ .blockOpen then .error brace.unexpected
        else
          match h : declarations rest with
          | .error e => .error e
          | .ok (found, rest) =>
            have := declarations_size_lt h
            (stylesheet rest).map fun more =>
              { more with atRules := ⟨name.text, found⟩ :: more.atRules }
      | .next name rest =>
        if name.token ≠ .identifier then .error name.unexpected else .error rest.unexpected
      | rest => .error rest.unexpected
    else
      match hs : selectors (.next first rest) with
      | .error e => .error e
      | .ok (chains, rest) =>
        have := selectors_size_lt hs
        match hd : declarations rest with
        | .error e => .error e
        | .ok (found, rest) =>
          have := declarations_size_lt hd
          (stylesheet rest).map fun more => { more with rules := ⟨chains, found⟩ :: more.rules }
termination_by lexemes.size
decreasing_by all_goals simp only [Lexemes.size] at *; omega

/-- Reads a stylesheet. -/
def parse (source : ByteSource) : Except ParseError Content :=
  stylesheet (Scanner.ofSource source).lexemes

/-- Reads the text of a stylesheet. -/
def parseString (s : String) : Except ParseError Content := parse (.ofString s)

end RichText.Sheet
