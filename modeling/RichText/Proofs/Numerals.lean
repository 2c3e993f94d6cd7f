/-
# Hexadecimal numerals in either case

The case of a digit does not matter: a letter is worth what the small letter is
worth (`hexValue?_toLower`), and nothing else is changed by writing small letters.
Nor do zeros in front matter (`readFrom?_zeros`). So a numeral is worth the number it
is written for, however it is padded (`readHexadecimal?_zeros`) and in whichever case
each digit is (`readHexadecimal?_of_map_toLower`).

Key definitions: `IsHexDigit`.
Key theorems: `hexValue?_toLower`, `readFrom?_zeros`, `readFrom?_eq`,
`exists_hexValue?_iff`, `exists_readHexadecimal?`,
`readHexadecimal?_of_map_toLower`, `readHexadecimal?_zeros`.
-/
import Mathlib
import RichText.Proofs.PlainValues
import RichText.Proofs.Rendering

namespace RichText

/-! ### Readings of all characters -/

section Readings

variable {α β : Type} {f : α → Option β}

theorem length_of_mapM_eq_some : ∀ {s : List α} {vs : List β}, s.mapM f = some vs →
    vs.length = s.length
  | [], vs, h => by
    obtain rfl : [] = vs := by simpa using h
    rfl
  | c :: s, vs, h => by
    rw [List.mapM_cons] at h
    obtain ⟨v, -, h⟩ := Option.bind_eq_some_iff.1 h
    obtain ⟨more, hmore, h⟩ := Option.bind_eq_some_iff.1 h
    obtain rfl : v :: more = vs := by simpa using h
    rw [List.length_cons, List.length_cons, length_of_mapM_eq_some hmore]

theorem exists_mapM_eq_some_iff : ∀ {s : List α},
    (∃ vs, s.mapM f = some vs) ↔ ∀ c ∈ s, ∃ v, f c = some v
  | [] => by simp
  | c :: s => by
    rw [List.forall_mem_cons, ← exists_mapM_eq_some_iff, List.mapM_cons]
    simp only [Option.bind_eq_bind, Option.pure_def, Option.bind_eq_some_iff]
    constructor
    · rintro ⟨-, v, hv, more, hmore, -⟩
      exact ⟨⟨v, hv⟩, more, hmore⟩
    · rintro ⟨⟨v, hv⟩, more, hmore⟩
      exact ⟨v :: more, v, hv, more, hmore, rfl⟩

end Readings

/-! ### The case of letters -/

/-- What holds of all characters of ASCII can be decided. -/
theorem of_ascii {P : Char → Prop} (h : ∀ n < 128, P (Char.ofNat n)) {c : Char}
    (hc : c.toNat < 128) : P c := by
  have hnumber := h c.toNat hc
  rwa [Char.ofNat_toNat] at hnumber

/-- What holds of all ASCII and of whatever has no other small letter holds of
every character. -/
theorem forall_of_toLower {P : Char → Prop} (hascii : ∀ n < 128, P (Char.ofNat n))
    (hsame : ∀ c : Char, c.toLower = c → P c) (c : Char) : P c := by
  by_cases hc : c.isUpper = true
  · have hlast : c.toNat ≤ 'Z'.toNat := by
      simp only [Char.isUpper, decide_eq_true_eq] at hc
      exact hc.2
    exact of_ascii hascii (Nat.lt_of_le_of_lt hlast (by decide))
  · apply hsame
    apply Markup.toLower_of_not_isUpper
    simpa using hc

theorem toLower_toLower : ∀ c : Char, c.toLower.toLower = c.toLower :=
  forall_of_toLower (by decide) fun c hc => by rw [hc, hc]

namespace Number

variable {base : Nat} {value? : Char → Option Nat}

theorem hexValue?_toLower (c : Char) : hexValue? c.toLower = hexValue? c :=
  forall_of_toLower (P := fun c => hexValue? c.toLower = hexValue? c) (by decide)
    (fun c hc => by rw [hc]) c

/-- Texts that differ in case only are worth the same. -/
theorem readFrom?_of_map_toLower : ∀ {s t : List Char}, s.map Char.toLower = t.map Char.toLower →
    ∀ n : Nat, readFrom? 16 hexValue? n s = readFrom? 16 hexValue? n t
  | [], t, h, n => by
    obtain rfl : t = [] := by simpa using h.symm
    rfl
  | c :: s, [], h, n => by simp at h
  | c :: s, d :: t, h, n => by
    obtain ⟨hfirst, hmore⟩ := List.cons.inj h
    have hvalue : hexValue? c = hexValue? d := by
      rw [← hexValue?_toLower, hfirst, hexValue?_toLower]
    rw [readFrom?, readFrom?, hvalue]
    exact Option.bind_congr fun v _ => readFrom?_of_map_toLower hmore _

/-! ### Digits -/

/-- A hexadecimal digit of ASCII, in either case. -/
def IsHexDigit (c : Char) : Prop :=
  c.isDigit = true ∨ ('a' ≤ c ∧ c ≤ 'f') ∨ ('A' ≤ c ∧ c ≤ 'F')

instance (c : Char) : Decidable (IsHexDigit c) := by
  unfold IsHexDigit
  infer_instance

/-- Just the hexadecimal digits are worth something. -/
theorem exists_hexValue?_iff {c : Char} : (∃ d, hexValue? c = some d) ↔ IsHexDigit c := by
  unfold hexValue? IsHexDigit
  by_cases hdigit : c.isDigit = true
  · simp [hdigit]
  · by_cases hsmall : 'a' ≤ c ∧ c ≤ 'f'
    · simp [hdigit, hsmall]
    · by_cases hcapital : 'A' ≤ c ∧ c ≤ 'F'
      · simp [hdigit, hsmall, hcapital]
      · simp [hdigit, hsmall, hcapital]

theorem IsHexDigit.lt {c : Char} (h : IsHexDigit c) : c.toNat < 128 := by
  have hlast : c.toNat ≤ 'f'.toNat := by
    rcases h with hdigit | ⟨-, hsmall⟩ | ⟨-, hcapital⟩
    · simp only [Char.isDigit, Bool.and_eq_true, decide_eq_true_eq] at hdigit
      exact Nat.le_trans hdigit.2 (by decide)
    · exact hsmall
    · exact Nat.le_trans hcapital (by decide)
  exact Nat.lt_of_le_of_lt hlast (by decide)

theorem IsHexDigit.not_isBlank {c : Char} (h : IsHexDigit c) : Text.isBlank c = false :=
  of_ascii (P := fun c => IsHexDigit c → Text.isBlank c = false) (by decide) h.lt h

/-! ### Numerals -/

/-- A numeral is worth what its digits are, one after the other. -/
theorem readFrom?_eq : ∀ (s : List Char) (n : Nat), readFrom? base value? n s =
    (s.mapM value?).map fun ds => ds.foldl (fun n d => n * base + d) n
  | [], _ => rfl
  | c :: s, n => by
    rw [readFrom?, List.mapM_cons]
    cases hc : value? c with
    | none => rfl
    | some d =>
      rw [Option.bind_some, readFrom?_eq s]
      cases s.mapM value? <;> rfl

/-- A numeral is below the next power of the base. -/
theorem readFrom?_lt (hvalue : ∀ c d, value? c = some d → d < base) : ∀ {s : List Char} {n m : Nat},
    readFrom? base value? n s = some m → m < (n + 1) * base ^ s.length
  | [], n, m, h => by
    obtain rfl := Option.some.inj h
    simp
  | c :: s, n, m, h => by
    obtain ⟨d, hd, h⟩ := Option.bind_eq_some_iff.1 h
    have hdigit : n * base + d + 1 ≤ (n + 1) * base := by
      have hlt := hvalue c d hd
      rw [Nat.succ_mul]
      omega
    calc m
      _ < (n * base + d + 1) * base ^ s.length := readFrom?_lt hvalue h
      _ ≤ (n + 1) * base * base ^ s.length := Nat.mul_le_mul_right _ hdigit
      _ = (n + 1) * base ^ (c :: s).length := by rw [List.length_cons, Nat.pow_succ']; ring

theorem hexValue?_lt (c : Char) (d : Nat) (h : hexValue? c = some d) : d < 16 :=
  of_ascii (P := fun c => ∀ d ∈ hexValue? c, d < 16) (by decide) (exists_hexValue?_iff.1 ⟨d, h⟩).lt d h

/-- Hexadecimal digits are a number. -/
theorem exists_readHexadecimal? {s : List Char} (hne : s ≠ []) (h : ∀ c ∈ s, IsHexDigit c) :
    ∃ n < 16 ^ s.length, readHexadecimal? s = some n := by
  obtain ⟨vs, hvs⟩ : ∃ vs, s.mapM hexValue? = some vs :=
    exists_mapM_eq_some_iff.2 fun c hc => exists_hexValue?_iff.2 (h c hc)
  have hread : readFrom? 16 hexValue? 0 s = some (vs.foldl (fun n d => n * 16 + d) 0) := by
    rw [readFrom?_eq, hvs]
    rfl
  refine ⟨_, ?_, by rw [readHexadecimal?, if_neg hne, hread]⟩
  simpa using readFrom?_lt hexValue?_lt hread

/-- Zeros in front of a numeral are worth nothing. -/
theorem readFrom?_zeros (hzero : value? '0' = some 0) (s : List Char) : ∀ k : Nat,
    readFrom? base value? 0 (List.replicate k '0' ++ s) = readFrom? base value? 0 s
  | 0 => rfl
  | k + 1 => by
    rw [List.replicate_succ, List.cons_append, readFrom?, hzero, Option.bind_some, Nat.zero_mul]
    exact readFrom?_zeros hzero s k

theorem hexadecimal_ne_nil (n : Nat) : hexadecimal n ≠ [] := Nat.toDigits_ne_nil

theorem readHexadecimal?_of_map_toLower {s t : List Char}
    (h : s.map Char.toLower = t.map Char.toLower) : readHexadecimal? s = readHexadecimal? t := by
  have hnil : s = [] ↔ t = [] := by
    rw [← List.map_eq_nil_iff (f := Char.toLower), h, List.map_eq_nil_iff]
  simp only [readHexadecimal?, hnil, readFrom?_of_map_toLower h]

/-- What a number is written as is read, with any zeros in front. -/
theorem readHexadecimal?_zeros (k n : Nat) :
    readHexadecimal? (List.replicate k '0' ++ hexadecimal n) = some n := by
  have hne : List.replicate k '0' ++ hexadecimal n ≠ [] :=
    List.append_ne_nil_of_right_ne_nil _ (hexadecimal_ne_nil n)
  rw [readHexadecimal?, if_neg hne, readFrom?_zeros rfl]
  exact readFrom?_toDigits (by decide) (by decide) n

theorem readDecimal?_zeros (k n : Nat) :
    readDecimal? (List.replicate k '0' ++ decimal n) = some n := by
  have hne : List.replicate k '0' ++ decimal n ≠ [] :=
    List.append_ne_nil_of_right_ne_nil _ (decimal_ne_nil n)
  rw [readDecimal?, if_neg hne, readFrom?_zeros rfl]
  exact readFrom?_toDigits (by decide) (by decide) n

/-- Nothing but digits is a number. -/
theorem isHexDigit_of_readHexadecimal? {s : List Char} {n : Nat} (h : readHexadecimal? s = some n) :
    ∀ c ∈ s, IsHexDigit c := by
  rw [readHexadecimal?, readFrom?_eq] at h
  split at h
  · cases h
  · obtain ⟨vs, hvs, -⟩ := Option.map_eq_some_iff.1 h
    intro c hc
    exact exists_hexValue?_iff.1 (exists_mapM_eq_some_iff.1 ⟨vs, hvs⟩ c hc)

end Number

end RichText
