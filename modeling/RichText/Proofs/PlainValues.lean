/-
# Numbers in plain digits

What is written of a number is read again. Every digit is worth what it was written
for, so a numeral is worth its number in any base whose digits are known
(`readFrom?_toDigits`), and no digit begins a sign or a word, so in decimal it is a
number in full, without a sign and without an exponent (`readNumber?_decimal`). From
this follows that a number with a unit behind it is a length (`exists_readLength`) and
that six hexadecimal digits are a color (`exists_readColor`).

Key definitions: `px`, `pxs`, `hex`.
Key theorems: `readFrom?_toDigits`, `readNumber?_decimal`, `exists_readLength`,
`exists_readLengths`, `exists_readColor`.
-/
import RichText.Declaration.Writes
import RichText.Proofs.InlineBlocks

namespace RichText

open Text

/-! ### Numerals -/

namespace Number

variable {base : Nat} {value? : Char → Option Nat}

/-- A property of all digits holds of every character of a numeral. -/
theorem forall_mem_toDigits {P : Char → Prop} (hb : 1 < base) (h : ∀ d < base, P (Nat.digitChar d))
    (n : Nat) : ∀ c ∈ Nat.toDigits base n, P c := by
  induction n using Nat.strongRecOn with
  | ind n ih =>
    rw [Nat.toDigits_eq_if hb]
    by_cases hn : n < base
    · rw [if_pos hn, List.forall_mem_singleton]
      exact h n hn
    · have hless : n / base < n := Nat.div_lt_self (by omega) hb
      rw [if_neg hn, List.forall_mem_append, List.forall_mem_singleton]
      exact ⟨ih _ hless, h _ (Nat.mod_lt n (by omega))⟩

theorem readFrom?_append : ∀ (s t : List Char) (n : Nat), readFrom? base value? n (s ++ t) =
    (readFrom? base value? n s).bind fun m => readFrom? base value? m t
  | [], _, _ => rfl
  | c :: s, t, n => by
    rw [List.cons_append, readFrom?, readFrom?, Option.bind_assoc]
    exact Option.bind_congr fun d _ => readFrom?_append s t (n * base + d)

/-- A numeral is worth the number that it is written for. -/
theorem readFrom?_toDigits (hb : 1 < base) (h : ∀ d < base, value? (Nat.digitChar d) = some d)
    (n : Nat) : readFrom? base value? 0 (Nat.toDigits base n) = some n := by
  induction n using Nat.strongRecOn with
  | ind n ih =>
    rw [Nat.toDigits_eq_if hb]
    by_cases hn : n < base
    · rw [if_pos hn, readFrom?, h n hn]
      simp [readFrom?]
    · have hless : n / base < n := Nat.div_lt_self (by omega) hb
      have hdigit := h _ (Nat.mod_lt n (by omega))
      calc readFrom? base value? 0 (if n < base then [n.digitChar]
              else Nat.toDigits base (n / base) ++ [(n % base).digitChar])
        _ = readFrom? base value? (n / base) [(n % base).digitChar] := by
            rw [if_neg hn, readFrom?_append, ih _ hless, Option.bind_some]
        _ = some (n / base * base + n % base) := by simp [readFrom?, hdigit]
        _ = some n := by rw [Nat.mul_comm, Nat.div_add_mod]

theorem length_zeroPadded {width n : Nat} (hwidth : 0 < width) (h : n < 16 ^ width) :
    (zeroPadded width (hexadecimal n)).length = width := by
  have hle : (hexadecimal n).length ≤ width :=
    (Nat.length_toDigits_le_iff (by decide) hwidth).2 h
  rw [zeroPadded, List.length_append, List.length_replicate]
  omega

theorem forall_mem_decimal {P : Char → Prop} (h : ∀ d < 10, P (Nat.digitChar d)) (n : Nat) :
    ∀ c ∈ decimal n, P c :=
  forall_mem_toDigits (by decide) h n

theorem decimal_ne_nil (n : Nat) : decimal n ≠ [] := Nat.toDigits_ne_nil

theorem readDecimal?_decimal (n : Nat) : readDecimal? (decimal n) = some n := by
  rw [readDecimal?, if_neg (decimal_ne_nil n)]
  exact readFrom?_toDigits (by decide) (by decide) n

theorem decimal_injective {m n : Nat} (h : decimal m = decimal n) : m = n :=
  Option.some.inj <| calc some m
    _ = readDecimal? (decimal m) := (readDecimal?_decimal m).symm
    _ = readDecimal? (decimal n) := by rw [h]
    _ = some n := readDecimal?_decimal n

/-- A number in decimal is read exactly, all of it in front of the point. -/
theorem readNumber?_decimal (n : Nat) :
    readNumber? (decimal n) = some (.finite false n (decimal n).length 0) := by
  have hdigit := forall_mem_decimal (P := fun c => c.isDigit = true) (by decide) n
  have hword := forall_mem_decimal
    (P := fun c => c ≠ '-' ∧ c ≠ '+' ∧ c.toLower ≠ 'n' ∧ c.toLower ≠ 'i') (by decide) n
  have hwhole : (decimal n).takeWhile Char.isDigit = decimal n := List.takeWhile_eq_self_iff.2 hdigit
  have hrest : (decimal n).dropWhile Char.isDigit = [] := List.dropWhile_eq_nil_iff.2 hdigit
  have hmagnitude : readMagnitude? false (decimal n) =
      some (.finite false n (decimal n).length 0) := by
    simp [readMagnitude?, readExponent?, hwhole, hrest, readDecimal?_decimal]
  rw [← hmagnitude]
  cases hs : decimal n with
  | nil => exact absurd hs (decimal_ne_nil n)
  | cons c s =>
    obtain ⟨hminus, hplus, hnan, hinf⟩ := hword c (by simp [hs])
    have hsign : (c == '-') = false := beq_false_of_ne hminus
    simp [readNumber?, hsign, hplus, hnan, hinf]

end Number

/-! ### Lengths -/

namespace Declaration

/-- A number of pixels. -/
def px (n : Nat) : List Char := Number.decimal n ++ ['p', 'x']

theorem px_ne_nil (n : Nat) : px n ≠ [] := by simp [px]

/-- A property of digits and letters holds of every character of a length. -/
theorem forall_mem_px {P : Char → Prop} (h : ∀ d < 10, P (Nat.digitChar d)) (hp : P 'p') (hx : P 'x')
    (n : Nat) : ∀ c ∈ px n, P c :=
  List.forall_mem_append.2 ⟨Number.forall_mem_decimal h n, by simp [hp, hx]⟩

theorem isTrimmed_px (n : Nat) : Sheet.IsTrimmed (px n) :=
  Sheet.isTrimmed_of_forall (forall_mem_px (by decide) (by decide) (by decide) n)

theorem exists_readLength (n : Nat) : ∃ l, readLength (String.ofList (px n)) = .ok l := by
  have hdecimal : trim (Number.decimal n) = Number.decimal n :=
    Sheet.trim_eq_self (Sheet.isTrimmed_of_forall (Number.forall_mem_decimal (by decide) n))
  have htrim : trim (px n) = px n := Sheet.trim_eq_self (isTrimmed_px n)
  have hsplit : splitUnit? (px n) = some (Number.decimal n, .px) := by
    have htail : beforeTail? LengthUnit.px.suffix.toList (px n) = some (Number.decimal n) :=
      beforeTail?_append _ _
    rw [splitUnit?, List.findSome?_cons, htail, Option.map_some]
  simp only [readLength, String.toList_ofList, htrim]
  split
  · exact ⟨_, rfl⟩
  split
  · exact ⟨_, rfl⟩
  simp only [hsplit, hdecimal, Number.readFloat32?, Number.readNumber?_decimal, Option.map_some]
  exact ⟨_, rfl⟩

theorem wordsFrom_append : ∀ {s : List Char}, (∀ c ∈ s, isBlank c = false) →
    ∀ word rest : List Char, wordsFrom word (s ++ rest) = wordsFrom (word ++ s) rest
  | [], _, _, _ => by rw [List.nil_append, List.append_nil]
  | c :: s, h, word, rest => by
    obtain ⟨hc, hs⟩ := List.forall_mem_cons.1 h
    rw [List.cons_append, wordsFrom, if_neg (by simp [hc]), wordsFrom_append hs, List.append_assoc,
      List.singleton_append]

/-- Texts without blanks are words, with spaces between them. -/
theorem words_intercalate : ∀ {parts : List (List Char)},
    (∀ part ∈ parts, part ≠ [] ∧ ∀ c ∈ part, isBlank c = false) →
      words ([' '].intercalate parts) = parts
  | [], _ => rfl
  | [part], h => by
    obtain ⟨hne, hpart⟩ := h part List.mem_cons_self
    have hword := wordsFrom_append hpart [] []
    rw [List.append_nil, List.nil_append, wordsFrom, if_neg hne] at hword
    simpa [words] using hword
  | part :: next :: parts, h => by
    obtain ⟨⟨hne, hpart⟩, hparts⟩ := List.forall_mem_cons.1 h
    have hrest : words ([' '].intercalate (next :: parts)) = next :: parts := words_intercalate hparts
    rw [List.intercalate_cons_cons, words, List.append_assoc, wordsFrom_append hpart, List.nil_append,
      List.singleton_append, wordsFrom, if_pos (by decide), if_neg hne]
    exact congrArg (part :: ·) hrest

/-- Numbers of pixels with spaces between them. -/
def pxs (numbers : List Nat) : List Char := [' '].intercalate (numbers.map px)

theorem pxs_cons_cons (n m : Nat) (numbers : List Nat) :
    pxs (n :: m :: numbers) = px n ++ ([' '] ++ pxs (m :: numbers)) := by
  simp [pxs]

theorem pxs_ne_nil {numbers : List Nat} (h : numbers ≠ []) : pxs numbers ≠ [] := by
  cases numbers with
  | nil => exact absurd rfl h
  | cons n numbers => cases numbers <;> simp [pxs, px]

theorem forall_mem_pxs {P : Char → Prop} (h : ∀ d < 10, P (Nat.digitChar d)) (hp : P 'p') (hx : P 'x')
    (hspace : P ' ') : ∀ numbers : List Nat, ∀ c ∈ pxs numbers, P c
  | [] => List.forall_mem_nil _
  | [n] => by simpa [pxs] using forall_mem_px h hp hx n
  | n :: m :: numbers => by
    rw [pxs_cons_cons]
    refine List.forall_mem_append.2 ⟨forall_mem_px h hp hx n, ?_⟩
    exact List.forall_mem_cons.2 ⟨hspace, forall_mem_pxs h hp hx hspace (m :: numbers)⟩

/-- Blanks between two texts are not at their ends. -/
theorem isTrimmed_append {s t : List Char} (hs : Sheet.IsTrimmed s) (hne : s ≠ [])
    (ht : Sheet.IsTrimmed t) (hne' : t ≠ []) (between : List Char) :
    Sheet.IsTrimmed (s ++ (between ++ t)) := by
  constructor
  · rw [List.head?_append_of_ne_nil s hne]
    exact hs.1
  · rw [← List.append_assoc, List.getLast?_append_of_ne_nil _ hne']
    exact ht.2

theorem isTrimmed_pxs : ∀ numbers : List Nat, Sheet.IsTrimmed (pxs numbers)
  | [] => ⟨nofun, nofun⟩
  | [n] => by simpa [pxs] using isTrimmed_px n
  | n :: m :: numbers => by
    rw [pxs_cons_cons]
    exact isTrimmed_append (isTrimmed_px n) (px_ne_nil n) (isTrimmed_pxs (m :: numbers))
      (pxs_ne_nil (List.cons_ne_nil _ _)) [' ']

theorem exists_mapM_readLength : ∀ numbers : List Nat, ∃ lengths,
    (numbers.map px).mapM (fun word => readLength (String.ofList word)) = .ok lengths ∧
      lengths.length = numbers.length
  | [] => ⟨[], rfl, rfl⟩
  | n :: numbers => by
    obtain ⟨l, hl⟩ := exists_readLength n
    obtain ⟨lengths, hlengths, hcount⟩ := exists_mapM_readLength numbers
    refine ⟨l :: lengths, ?_, congrArg (· + 1) hcount⟩
    rw [List.map_cons, List.mapM_cons, hl, hlengths]
    rfl

/-- Numbers of pixels with spaces between them are as many lengths. -/
theorem exists_readLengths (numbers : List Nat) : ∃ lengths,
    readLengths (String.ofList (pxs numbers)) = .ok lengths ∧ lengths.length = numbers.length := by
  have hwords : words (pxs numbers) = numbers.map px :=
    words_intercalate <| List.forall_mem_map.2 fun n _ =>
      ⟨px_ne_nil n, forall_mem_px (by decide) (by decide) (by decide) n⟩
  rw [readLengths, String.toList_ofList, hwords]
  exact exists_mapM_readLength numbers

end Declaration

/-! ### Colors -/

theorem Color.exists_ofHex? {digits : List Char} (hlen : digits.length = 6)
    (h : ∀ c ∈ digits, ∃ d, Number.hexValue? c = some d) : ∃ color, ofHex? digits = some color := by
  match digits, hlen with
  | [c₁, c₂, c₃, c₄, c₅, c₆], _ =>
    simp only [List.forall_mem_cons] at h
    obtain ⟨⟨d₁, h₁⟩, ⟨d₂, h₂⟩, ⟨d₃, h₃⟩, ⟨d₄, h₄⟩, ⟨d₅, h₅⟩, ⟨d₆, h₆⟩, -⟩ := h
    exact ⟨_, by simp only [ofHex?, List.mapM_cons, h₁, h₂, h₃, h₄, h₅, h₆]; rfl⟩

namespace Declaration

/-- Six digits in base sixteen. -/
def hex (n : Nat) : List Char := Number.zeroPadded 6 (Number.hexadecimal n)

theorem forall_mem_hex {P : Char → Prop} (h : ∀ d < 16, P (Nat.digitChar d)) (n : Nat) :
    ∀ c ∈ hex n, P c := by
  refine List.forall_mem_append.2 ⟨fun c hc => ?_, Number.forall_mem_toDigits (by decide) h n⟩
  rw [List.eq_of_mem_replicate hc]
  exact h 0 (by decide)

theorem length_hex {n : Nat} (h : n < 0x1000000) : (hex n).length = 6 :=
  Number.length_zeroPadded (by decide) h

theorem isTrimmed_hex (n : Nat) : Sheet.IsTrimmed ('#' :: hex n) :=
  Sheet.isTrimmed_of_forall (List.forall_mem_cons.2 ⟨by decide, forall_mem_hex (by decide) n⟩)

/-- A hash begins neither of the notations with brackets, nor a name. -/
theorem readColor_of_ofHex? {value : String} {digits : List Char} {color : Color}
    (htrim : trim value.toList = '#' :: digits) (h : Color.ofHex? digits = some color) :
    readColor value = .ok color := by
  have hrgb : arguments? ['r', 'g', 'b'] ('#' :: digits) = none := rfl
  have hrgba : arguments? ['r', 'g', 'b', 'a'] ('#' :: digits) = none := rfl
  have hparse : Color.parse? (String.ofList ('#' :: digits)) = some color := by
    simp only [Color.parse?, String.toList_ofList, h]
  simp only [readColor, htrim, hrgb, hrgba, hparse]

theorem exists_readColor {n : Nat} (h : n < 0x1000000) :
    ∃ color, readColor (String.ofList ('#' :: hex n)) = .ok color := by
  have htrim : trim ('#' :: hex n) = '#' :: hex n := Sheet.trim_eq_self (isTrimmed_hex n)
  obtain ⟨color, hcolor⟩ := Color.exists_ofHex? (length_hex h)
    (forall_mem_hex (fun d hd => ⟨d, by revert d; decide⟩) n)
  exact ⟨color, readColor_of_ofHex? (by rwa [String.toList_ofList]) hcolor⟩

end Declaration

end RichText
