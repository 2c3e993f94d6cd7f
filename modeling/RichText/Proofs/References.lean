/-
# References are decoded once

A character of a text may be written as itself, if it is no ampersand, or as a
reference: by its number, in decimal or in hexadecimal digits, or by its name
(`Refers`). A reference ends at its semicolon, whatever stands behind that: nothing
between the ampersand and the semicolon ends it sooner, and there are not too many
characters in between (`reference?_body`). So what a character is written as is decoded
by itself, and decoding goes on behind it (`decode_writes`). No decoded character is
looked at again, whatever it would mean in markup.

Key definitions: `Refers`, `Writes`.
Key theorems: `reference?_body`, `Refers.ofBody?_eq`, `decode_writes`,
`decoding_undoes_writing`.
-/
import RichText.Proofs.Numerals

namespace RichText.Markup.Entity

/-! ### What is written -/

/-- What stands between the ampersand and the semicolon of a reference to a character:
its number in decimal or hexadecimal digits, with zeros in front as long as there is
room for them, or its name. -/
inductive Refers (c : Char) : List Char → Prop
  | decimal {zeros : Nat} (hl : 1 + zeros + (Number.decimal c.toNat).length ≤ bodyLimit) :
    Refers c ('#' :: (List.replicate zeros '0' ++ Number.decimal c.toNat))
  | hexadecimal {x : Char} {zeros : Nat} {digits : List Char} (hx : x = 'x' ∨ x = 'X')
    (hd : digits.map Char.toLower = Number.hexadecimal c.toNat)
    (hl : 2 + zeros + digits.length ≤ bodyLimit) :
    Refers c ('#' :: x :: (List.replicate zeros '0' ++ digits))
  | named {name : String} (hn : ofName? name = some c) : Refers c name.toList

/-- A character as it may be written: an ampersand only as a reference. -/
inductive Writes (c : Char) : List Char → Prop
  | plain (hc : c ≠ '&') : Writes c [c]
  | reference {body : List Char} (h : Refers c body) : Writes c ('&' :: (body ++ [';']))

/-! ### References -/

/-- The body of a reference goes up to the semicolon. -/
theorem reference?_body {body : List Char} (hbody : ∀ c ∈ body, isBodyChar c = true)
    (hlength : body.length ≤ bodyLimit) (rest : List Char) :
    reference? (body ++ ';' :: rest) = (ofBody? body).map fun c => (c, rest) := by
  have hof : bodyOf (body ++ ';' :: rest) = body := by
    rw [bodyOf, List.take_append, List.take_of_length_le hlength,
      List.takeWhile_append_of_pos hbody]
    cases bodyLimit - body.length with
    | zero => simp
    | succ k => simp [isBodyChar]
  rw [reference?, hof, List.drop_left]
  rfl

theorem ofCodePoint?_toNat (c : Char) : ofCodePoint? c.toNat = some c := by
  have hvalid : c.toNat.isValidChar := c.valid
  have hsame := Char.ofNat_toNat c
  rw [Char.ofNat, dif_pos hvalid] at hsame
  rw [ofCodePoint?, dif_pos hvalid, hsame]

/-- Digits are no hexadecimal number, which has a letter in front. -/
theorem ofNumber?_digits {s : List Char} (h : ∀ c ∈ s, c.isDigit = true) :
    ofNumber? s = (Number.readDecimal? s).bind ofCodePoint? := by
  unfold ofNumber?
  split
  · exact absurd (h 'x' List.mem_cons_self) (by decide)
  · exact absurd (h 'X' List.mem_cons_self) (by decide)
  · rfl

theorem isAlphanum_entities : ∀ e ∈ entities,
    e.1.toList ≠ [] ∧ e.1.toList.length ≤ bodyLimit ∧ ∀ c ∈ e.1.toList, c.isAlphanum = true := by
  simp [entities, bodyLimit]

/-- A name is short, and has letters and digits only. -/
theorem isAlphanum_of_ofName? {name : String} {c : Char} (h : ofName? name = some c) :
    name.toList ≠ [] ∧ name.toList.length ≤ bodyLimit ∧ ∀ d ∈ name.toList, d.isAlphanum = true := by
  obtain ⟨front, back, hentities, -⟩ := List.lookup_eq_some_iff.1 h
  exact isAlphanum_entities (name, c) (by simp [hentities])

theorem isBodyChar_of_isAlphanum {c : Char} (h : c.isAlphanum = true) : isBodyChar c = true := by
  rw [isBodyChar, h, Bool.true_or]

theorem isBodyChar_of_isHexDigit {c : Char} (h : Number.IsHexDigit c) : isBodyChar c = true :=
  of_ascii (P := fun c => Number.IsHexDigit c → isBodyChar c = true) (by decide) h.lt h

theorem isDigit_zeros_decimal (zeros n : Nat) :
    ∀ d ∈ List.replicate zeros '0' ++ Number.decimal n, d.isDigit = true := by
  refine List.forall_mem_append.2 ⟨fun d hd => ?_, Number.forall_mem_decimal (by decide) n⟩
  rw [List.eq_of_mem_replicate hd]
  rfl

/-- The number of a character in hexadecimal digits, in any case and with any zeros. -/
theorem readHexadecimal?_of_case {digits : List Char} {n : Nat} (zeros : Nat)
    (hd : digits.map Char.toLower = Number.hexadecimal n) :
    Number.readHexadecimal? (List.replicate zeros '0' ++ digits) = some n := by
  have hlower : (Number.hexadecimal n).map Char.toLower = Number.hexadecimal n := by
    rw [← hd, List.map_map]
    exact List.map_congr_left fun d _ => toLower_toLower d
  have hcase : (List.replicate zeros '0' ++ digits).map Char.toLower =
      (List.replicate zeros '0' ++ Number.hexadecimal n).map Char.toLower := by
    rw [List.map_append, List.map_append, hd, hlower]
  rw [Number.readHexadecimal?_of_map_toLower hcase, Number.readHexadecimal?_zeros]

namespace Refers

variable {c : Char} {body : List Char}

/-- Between the ampersand and the semicolon nothing ends the reference. -/
theorem isBody (h : Refers c body) :
    (∀ d ∈ body, isBodyChar d = true) ∧ body.length ≤ bodyLimit := by
  cases h with
  | @decimal zeros hl =>
    constructor
    · refine List.forall_mem_cons.2 ⟨rfl, fun d hd => isBodyChar_of_isAlphanum ?_⟩
      rw [Char.isAlphanum, isDigit_zeros_decimal zeros _ d hd, Bool.or_true]
    · rw [List.length_cons, List.length_append, List.length_replicate]
      omega
  | @hexadecimal x zeros digits hx hd hl =>
    have hdigits := Number.isHexDigit_of_readHexadecimal? (readHexadecimal?_of_case zeros hd)
    constructor
    · refine List.forall_mem_cons.2 ⟨rfl, List.forall_mem_cons.2 ⟨?_, fun d hmem => ?_⟩⟩
      · rcases hx with rfl | rfl <;> rfl
      · exact isBodyChar_of_isHexDigit (hdigits d hmem)
    · rw [List.length_cons, List.length_cons, List.length_append, List.length_replicate]
      omega
  | named hn =>
    obtain ⟨-, hlength, hname⟩ := isAlphanum_of_ofName? hn
    exact ⟨fun d hd => isBodyChar_of_isAlphanum (hname d hd), hlength⟩

/-- A reference stands for the character that it is written for. -/
theorem ofBody?_eq (h : Refers c body) : ofBody? body = some c := by
  cases h with
  | @decimal zeros hl =>
    calc ofNumber? (List.replicate zeros '0' ++ Number.decimal c.toNat)
      _ = (Number.readDecimal? _).bind ofCodePoint? :=
          ofNumber?_digits (isDigit_zeros_decimal zeros _)
      _ = ofCodePoint? c.toNat := by rw [Number.readDecimal?_zeros, Option.bind_some]
      _ = some c := ofCodePoint?_toNat c
  | @hexadecimal x zeros digits hx hd hl =>
    have hnumber : ofNumber? (x :: (List.replicate zeros '0' ++ digits)) =
        (Number.readHexadecimal? (List.replicate zeros '0' ++ digits)).bind ofCodePoint? := by
      rcases hx with rfl | rfl <;> rfl
    show ofNumber? (x :: (List.replicate zeros '0' ++ digits)) = some c
    rw [hnumber, readHexadecimal?_of_case zeros hd, Option.bind_some, ofCodePoint?_toNat]
  | @named name hn =>
    obtain ⟨hne, -, hname⟩ := isAlphanum_of_ofName? hn
    rw [← hn, ← String.ofList_toList (s := name)]
    cases hlist : name.toList with
    | nil => exact absurd hlist hne
    | cons d more =>
      have hhash : d ≠ '#' := by
        rintro rfl
        exact absurd (hname '#' (by simp [hlist])) (by decide)
      rw [String.toList_ofList, ofBody?.eq_def]
      split
      · next heq => cases heq
      · next heq => exact absurd (List.cons.inj heq).1 hhash
      · rfl

end Refers

/-! ### Decoding -/

/-- What a character is written as is decoded by itself, whatever stands behind it. -/
theorem decode_writes {c : Char} {written : List Char} (h : Writes c written) (rest : List Char) :
    decode (written ++ rest) = c :: decode rest := by
  cases h with
  | plain hc => exact decode_cons hc rest
  | @reference body h =>
    obtain ⟨hbody, hlength⟩ := h.isBody
    have hreference : reference? (body ++ ';' :: rest) = some (c, rest) := by
      rw [reference?_body hbody hlength, h.ofBody?_eq, Option.map_some]
    have hshape : '&' :: (body ++ [';']) ++ rest = '&' :: (body ++ ';' :: rest) := by simp
    rw [hshape, decode_reference hreference]

theorem decode_flatten {s : List Char} {written : List (List Char)}
    (h : List.Forall₂ Writes s written) (rest : List Char) :
    decode (written.flatten ++ rest) = s ++ decode rest := by
  induction h with
  | nil => rfl
  | cons hc _ ih => rw [List.flatten_cons, List.append_assoc, decode_writes hc, ih, List.cons_append]

/-- **Decoding undoes every way to write a text.** Each character of it may be written as
itself or as any reference to it. Decoding goes over the text once: it comes to the same
characters whatever is behind them, and goes on with what is behind by itself, so they
never become a part of another reference. -/
theorem decoding_undoes_writing (s : String) (written : List (List Char))
    (h : List.Forall₂ Writes s.toList written) :
    decode written.flatten = s.toList ∧
      ∀ rest, decode (written.flatten ++ rest) = s.toList ++ decode rest := by
  refine ⟨?_, decode_flatten h⟩
  have hend := decode_flatten h []
  rw [List.append_nil, decode, List.append_nil] at hend
  exact hend

theorem decoding_undoes_writing_nested :
    decode "&amp;lt;&#x00e9;&#038;&#XA9;#".toList = "&lt;é&©#".toList ∧
      decode ("&amp;lt;&#x00e9;&#038;&#XA9;#".toList ++ "amp;".toList) =
        "&lt;é&©#".toList ++ decode "amp;".toList := by
  have hname : Refers '&' "amp".toList := .named (by decide +kernel)
  have hlower : Refers 'é' ('#' :: 'x' :: (List.replicate 2 '0' ++ ['e', '9'])) :=
    .hexadecimal (.inl rfl) (by decide) (by decide)
  have hupper : Refers '©' ('#' :: 'X' :: (List.replicate 0 '0' ++ ['A', '9'])) :=
    .hexadecimal (.inr rfl) (by decide) (by decide)
  have hnumber : Refers '&' ('#' :: (List.replicate 1 '0' ++ Number.decimal '&'.toNat)) :=
    .decimal (by decide)
  have hamp : Writes '&' "&amp;".toList := .reference hname
  have haccent : Writes 'é' "&#x00e9;".toList := .reference hlower
  have hcapital : Writes '©' "&#XA9;".toList := .reference hupper
  have hdecimal : Writes '&' "&#038;".toList := .reference hnumber
  have plain (c : Char) (hc : c ≠ '&') : Writes c [c] := .plain hc
  have hwritten : List.Forall₂ Writes "&lt;é&©#".toList
      ["&amp;".toList, ['l'], ['t'], [';'], "&#x00e9;".toList, "&#038;".toList, "&#XA9;".toList,
        ['#']] :=
    .cons hamp <| .cons (plain _ (by decide)) <| .cons (plain _ (by decide)) <|
      .cons (plain _ (by decide)) <| .cons haccent <| .cons hdecimal <| .cons hcapital <|
        .cons (plain _ (by decide)) .nil
  have h := decoding_undoes_writing _ _ hwritten
  exact ⟨h.1, h.2 _⟩

end RichText.Markup.Entity
