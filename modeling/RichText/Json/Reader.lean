/-
# Reading JSON

The grammar of JSON and nothing beside it: four kinds of blanks, no leading
zeros, no comma before a closing bracket, no control characters in texts, and
nothing behind the value but blanks.

Key definitions: `Json.parse?`.
Key theorems: `Json.length_textBody_lt`, `Json.length_numeral_lt`.
-/
import RichText.Json.Basic
import RichText.Text.Cut

namespace RichText.Json

open RichText.Text

/-- The text behind blanks. -/
def skipBlanks (s : List Char) : List Char :=
  s.dropWhile fun c => c == ' ' || c == '\n' || c == '\t' || c == '\x0d'

theorem length_skipBlanks_le (s : List Char) : (skipBlanks s).length ≤ s.length :=
  (List.dropWhile_suffix _).length_le

/-- A part of a text: a character, or one of its units of 16 bits in an escape. -/
inductive TextPart where
  | char (c : Char)
  | unit (n : Nat)

/-- The character of an escape of one letter. -/
def escaped? : Char → Option Char
  | '"' => some '"'
  | '\\' => some '\\'
  | '/' => some '/'
  | 'b' => some '\x08'
  | 'f' => some '\x0c'
  | 'n' => some '\n'
  | 'r' => some '\x0d'
  | 't' => some '\t'
  | _ => none

/-- The parts of a text behind its first quote, and what follows its last. -/
def textBody : List Char → Option (List TextPart × List Char)
  | [] => none
  | '"' :: rest => some ([], rest)
  | '\\' :: 'u' :: a :: b :: c :: d :: rest =>
    (Number.readHexadecimal? [a, b, c, d]).bind fun n =>
      (textBody rest).map fun found => (.unit n :: found.1, found.2)
  | '\\' :: e :: rest =>
    (escaped? e).bind fun c => (textBody rest).map fun found => (.char c :: found.1, found.2)
  | c :: rest =>
    if c < ' ' ∨ c = '\\' then none
    else (textBody rest).map fun found => (.char c :: found.1, found.2)

/-- The characters of the parts of a text; none if half a surrogate pair stands
alone. -/
def joined : List TextPart → Option (List Char)
  | [] => some []
  | .char c :: parts => (joined parts).map (c :: ·)
  | .unit n :: parts =>
    if 0xd800 ≤ n ∧ n < 0xdc00 then
      match parts with
      | .unit m :: parts =>
        if 0xdc00 ≤ m ∧ m < 0xe000 then
          let c := Char.ofNat (0x10000 + (n - 0xd800) * 0x400 + (m - 0xdc00))
          (joined parts).map (c :: ·)
        else none
      | _ => none
    else if 0xdc00 ≤ n ∧ n < 0xe000 then none
    else (joined parts).map (Char.ofNat n :: ·)

theorem length_textBody_lt {s rest : List Char} {parts : List TextPart}
    (h : textBody s = some (parts, rest)) : rest.length < s.length := by
  fun_induction textBody s generalizing parts rest with
  | case1 => simp at h
  | case2 => simp_all
  | case3 a b c d s ih =>
    obtain ⟨n, -, hn⟩ := Option.bind_eq_some_iff.1 h
    obtain ⟨found, hf, he⟩ := Option.map_eq_some_iff.1 hn
    obtain ⟨-, rfl⟩ := Prod.mk.inj he
    have := ih hf
    simp only [List.length_cons]
    omega
  | case4 e s _ ih =>
    obtain ⟨n, -, hn⟩ := Option.bind_eq_some_iff.1 h
    obtain ⟨found, hf, he⟩ := Option.map_eq_some_iff.1 hn
    obtain ⟨-, rfl⟩ := Prod.mk.inj he
    have := ih hf
    simp only [List.length_cons]
    omega
  | case5 => simp at h
  | case6 c s _ _ _ _ ih =>
    obtain ⟨found, hf, he⟩ := Option.map_eq_some_iff.1 h
    obtain ⟨-, rfl⟩ := Prod.mk.inj he
    have := ih hf
    simp only [List.length_cons]
    omega

/-- One digit or more, and what follows. -/
def digits (s : List Char) : Option (List Char × List Char) :=
  if s.takeWhile Char.isDigit = [] then none
  else some (s.takeWhile Char.isDigit, s.dropWhile Char.isDigit)

/-- The part of a number before its point. -/
def wholePart : List Char → Option (List Char × List Char)
  | '0' :: rest => some (['0'], rest)
  | s => digits s

/-- The point of a number and the digits behind it, if there is a point. -/
def fractionPart : List Char → Option (List Char × List Char)
  | '.' :: rest => (digits rest).map fun found => ('.' :: found.1, found.2)
  | s => some ([], s)

/-- The exponent of a number, if there is one. -/
def exponentPart : List Char → Option (List Char × List Char)
  | [] => some ([], [])
  | c :: rest =>
    if c = 'e' ∨ c = 'E' then
      match rest with
      | '-' :: rest => (digits rest).map fun found => (c :: '-' :: found.1, found.2)
      | '+' :: rest => (digits rest).map fun found => (c :: '+' :: found.1, found.2)
      | rest => (digits rest).map fun found => (c :: found.1, found.2)
    else some ([], c :: rest)

/-- A number without its sign. -/
def magnitude (s : List Char) : Option (List Char × List Char) :=
  (wholePart s).bind fun whole =>
    (fractionPart whole.2).bind fun fraction =>
      (exponentPart fraction.2).map fun exponent =>
        (whole.1 ++ fraction.1 ++ exponent.1, exponent.2)

/-- A number as it is written. -/
def numeral : List Char → Option (List Char × List Char)
  | '-' :: rest => (magnitude rest).map fun found => ('-' :: found.1, found.2)
  | s => magnitude s

theorem length_digits_lt {s : List Char} {found : List Char × List Char}
    (h : digits s = some found) : found.2.length < s.length := by
  unfold digits at h
  split at h
  · simp at h
  · next hne =>
    obtain rfl := Option.some.inj h
    have hsum := congrArg List.length (List.takeWhile_append_dropWhile (p := Char.isDigit) (l := s))
    have := List.length_pos_iff.2 hne
    simp only [List.length_append] at hsum
    simp only
    omega

theorem length_wholePart_lt {s : List Char} {found : List Char × List Char}
    (h : wholePart s = some found) : found.2.length < s.length := by
  unfold wholePart at h
  split at h
  · obtain rfl := Option.some.inj h
    simp
  · exact length_digits_lt h

theorem length_fractionPart_le {s : List Char} {found : List Char × List Char}
    (h : fractionPart s = some found) : found.2.length ≤ s.length := by
  unfold fractionPart at h
  split at h
  · obtain ⟨d, hd, rfl⟩ := Option.map_eq_some_iff.1 h
    have := length_digits_lt hd
    simp only [List.length_cons]
    omega
  · obtain rfl := Option.some.inj h
    exact Nat.le_refl _

theorem length_exponentPart_le {s : List Char} {found : List Char × List Char}
    (h : exponentPart s = some found) : found.2.length ≤ s.length := by
  unfold exponentPart at h
  split at h
  · obtain rfl := Option.some.inj h
    exact Nat.le_refl _
  · split at h
    · split at h <;>
      · obtain ⟨d, hd, rfl⟩ := Option.map_eq_some_iff.1 h
        have := length_digits_lt hd
        simp only [List.length_cons]
        omega
    · obtain rfl := Option.some.inj h
      exact Nat.le_refl _

theorem length_magnitude_lt {s : List Char} {found : List Char × List Char}
    (h : magnitude s = some found) : found.2.length < s.length := by
  obtain ⟨whole, hw, h⟩ := Option.bind_eq_some_iff.1 h
  obtain ⟨fraction, hf, h⟩ := Option.bind_eq_some_iff.1 h
  obtain ⟨exponent, he, rfl⟩ := Option.map_eq_some_iff.1 h
  have h₁ := length_wholePart_lt hw
  have h₂ := length_fractionPart_le hf
  have h₃ := length_exponentPart_le he
  simp only
  omega

/-- A number takes at least one character. -/
theorem length_numeral_lt {s : List Char} {found : List Char × List Char}
    (h : numeral s = some found) : found.2.length < s.length := by
  unfold numeral at h
  split at h
  · obtain ⟨m, hm, rfl⟩ := Option.map_eq_some_iff.1 h
    have := length_magnitude_lt hm
    simp only [List.length_cons]
    omega
  · exact length_magnitude_lt h

/-- The words that are values. -/
def words : List (List Char × Json) :=
  [("null".toList, .null), ("true".toList, .bool true), ("false".toList, .bool false)]

/-- What is read at the beginning of `s`, and what follows it. -/
structure Found (α : Type) (s : List Char) where
  value : α
  rest : List Char
  shorter : rest.length < s.length

/-- A word or a number. -/
def simple (s : List Char) : Option (Found Json s) :=
  match h : numeral s with
  | some found => some ⟨.number (String.ofList found.1), found.2, length_numeral_lt h⟩
  | none =>
    words.findSome? fun word =>
      match afterLead? word.1 s with
      | some rest => if h : rest.length < s.length then some ⟨word.2, rest, h⟩ else none
      | none => none

/-- A text behind its first quote. -/
def textFrom (s : List Char) : Option (Found (Option String) s) :=
  match h : textBody s with
  | some (parts, rest) =>
    some ⟨(joined parts).map String.ofList, rest, length_textBody_lt h⟩
  | none => none

/-- An object with the given fields, of which some may have no proper name. -/
def ofFields (fields : List (Option String × Json)) : Json :=
  match fields.mapM fun field => field.1.map fun name => (name, field.2) with
  | some fields => .object fields
  | none => .unpaired

mutual

/-- A value, perhaps behind blanks. -/
def value (s : List Char) : Option (Found Json s) :=
  have hs := length_skipBlanks_le s
  match h : skipBlanks s with
  | [] => none
  | '"' :: body =>
    (textFrom body).map fun found =>
      ⟨(found.value.map Json.text).getD .unpaired, found.rest, by
        have := found.shorter
        simp only [h, List.length_cons] at hs
        omega⟩
  | '[' :: body =>
    have hb : body.length < s.length := by
      simp only [h, List.length_cons] at hs
      omega
    match hc : skipBlanks body with
    | ']' :: rest =>
      some ⟨.array [], rest, by
        have := length_skipBlanks_le body
        simp only [hc, List.length_cons] at this
        omega⟩
    | _ =>
      (items body).map fun found =>
        ⟨.array found.value, found.rest, Nat.lt_trans found.shorter hb⟩
  | '{' :: body =>
    have hb : body.length < s.length := by
      simp only [h, List.length_cons] at hs
      omega
    match hc : skipBlanks body with
    | '}' :: rest =>
      some ⟨.object [], rest, by
        have := length_skipBlanks_le body
        simp only [hc, List.length_cons] at this
        omega⟩
    | _ =>
      (fields body).map fun found =>
        ⟨ofFields found.value, found.rest, Nat.lt_trans found.shorter hb⟩
  | c :: rest =>
    (simple (c :: rest)).map fun found =>
      ⟨found.value, found.rest, by
        have := found.shorter
        rw [h] at hs
        omega⟩
termination_by (s.length, 0)

/-- The items of an array that has some, up to the bracket behind them. -/
def items (s : List Char) : Option (Found (List Json) s) :=
  match value s with
  | none => none
  | some item =>
    have h₁ := item.shorter
    have h₂ := length_skipBlanks_le item.rest
    match h : skipBlanks item.rest with
    | ',' :: rest =>
      have h₃ : rest.length < s.length := by
        simp only [h, List.length_cons] at h₂
        omega
      (items rest).map fun more =>
        ⟨item.value :: more.value, more.rest, Nat.lt_trans more.shorter h₃⟩
    | ']' :: rest =>
      some ⟨[item.value], rest, by
        simp only [h, List.length_cons] at h₂
        omega⟩
    | _ => none
termination_by (s.length, 1)

/-- The fields of an object that has some, up to the bracket behind them. -/
def fields (s : List Char) : Option (Found (List (Option String × Json)) s) :=
  have h₁ := length_skipBlanks_le s
  match hq : skipBlanks s with
  | '"' :: body =>
    match textFrom body with
    | none => none
    | some name =>
      have h₂ := name.shorter
      have h₃ := length_skipBlanks_le name.rest
      match hc : skipBlanks name.rest with
      | ':' :: behind =>
        have h₄ : behind.length < s.length := by
          simp only [hq, hc, List.length_cons] at h₁ h₃
          omega
        match value behind with
        | none => none
        | some found =>
          have h₅ := found.shorter
          have h₆ := length_skipBlanks_le found.rest
          match h : skipBlanks found.rest with
          | ',' :: rest =>
            have h₇ : rest.length < s.length := by
              simp only [h, List.length_cons] at h₆
              omega
            (fields rest).map fun more =>
              ⟨(name.value, found.value) :: more.value, more.rest,
                Nat.lt_trans more.shorter h₇⟩
          | '}' :: rest =>
            some ⟨[(name.value, found.value)], rest, by
              simp only [h, List.length_cons] at h₆
              omega⟩
          | _ => none
      | _ => none
  | _ => none
termination_by (s.length, 1)

end

/-- The value that a text is. -/
def parse? (s : String) : Option Json :=
  (value s.toList).bind fun found => if skipBlanks found.rest = [] then some found.value else none

end RichText.Json
