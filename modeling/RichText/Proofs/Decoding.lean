/-
# What is decoded is what was encoded

The standard library writes a character as one to four bytes
(`String.utf8EncodeChar`). Decoding accepts just these: every byte of a
character but the last leaves it unfinished, and the last one completes it
(`exists_classify`); and bytes that complete a character are the ones that it
is written by (`encodeChar_of_classify`). So decoding succeeds, with nothing
left over, exactly on the bytes of texts (`decode_eq_some_iff`).

Key definitions: `Begun`.
Key theorems: `encodeChar_of_classify`, `exists_classify`,
`decode_eq_some_iff`.
-/
import RichText.Text.Utf8
import Mathlib.Tactic.SplitIfs

namespace RichText.Text.Utf8

/-! ### Bytes as numbers -/

theorem toNat_byte {n : Nat} (h : n < 256) : (UInt8.ofNat n).toNat = n := by
  rw [UInt8.toNat_ofNat', Nat.mod_eq_of_lt h]

theorem byte_eq_iff {n : Nat} (h : n < 256) (b : UInt8) : UInt8.ofNat n = b ↔ n = b.toNat := by
  rw [← UInt8.toNat_inj, toNat_byte h]

theorem toNat_char {n : Nat} (h : n < 0xd800 ∨ 0xdfff < n ∧ n < 0x110000) :
    (Char.ofNat n).toNat = n := by
  rw [Char.ofNat, dif_pos h]
  rfl

theorem continues_iff (b : UInt8) : continues b = true ↔ 0x80 ≤ b.toNat ∧ b.toNat < 0xc0 := by
  simp only [continues, Bool.and_eq_true, decide_eq_true_eq, UInt8.le_iff_toNat_le,
    UInt8.reduceToNat]
  omega

theorem mayFollow_iff (a b : UInt8) :
    mayFollow a b = true ↔ 0x80 ≤ b.toNat ∧ b.toNat < 0xc0 ∧
      (a.toNat = 0xe0 → 0xa0 ≤ b.toNat) ∧ (a.toNat = 0xed → b.toNat < 0xa0) ∧
      (a.toNat = 0xf0 → 0x90 ≤ b.toNat) ∧ (a.toNat = 0xf4 → b.toNat < 0x90) := by
  unfold mayFollow
  simp only [← UInt8.toNat_inj, UInt8.reduceToNat]
  split_ifs
  all_goals
    simp only [continues_iff, Bool.and_eq_true, decide_eq_true_eq, UInt8.le_iff_toNat_le,
      UInt8.reduceToNat]
    omega

theorem classify_one (a : UInt8) :
    classify [a] =
      if a.toNat < 0x80 then .char (Char.ofNat a.toNat)
      else if 0xc2 ≤ a.toNat ∧ a.toNat < 0xf5 then .unfinished else .invalid := by
  simp only [classify, UInt8.lt_iff_toNat_lt, UInt8.le_iff_toNat_le, UInt8.reduceToNat,
    Bool.and_eq_true, decide_eq_true_eq]
  congr 2
  apply propext
  omega

theorem classify_two (a b : UInt8) :
    classify [a, b] =
      if mayFollow a b then
        if a.toNat < 0xe0 then .char (Char.ofNat (a.toNat % 32 * 64 + b.toNat % 64))
        else .unfinished
      else .invalid := by
  cases h : mayFollow a b <;> simp [classify, h, UInt8.lt_iff_toNat_lt]

theorem classify_three (a b c : UInt8) :
    classify [a, b, c] =
      if continues c then
        if a.toNat < 0xf0 then
          .char (Char.ofNat ((a.toNat % 16 * 64 + b.toNat % 64) * 64 + c.toNat % 64))
        else .unfinished
      else .invalid := by
  cases h : continues c <;> simp [classify, h, UInt8.lt_iff_toNat_lt]

theorem classify_four (a b c d : UInt8) :
    classify [a, b, c, d] =
      if continues d then
        .char (Char.ofNat
          (((a.toNat % 8 * 64 + b.toNat % 64) * 64 + c.toNat % 64) * 64 + d.toNat % 64))
      else .invalid := by
  cases h : continues d <;> simp [classify, h]

/-! ### Characters begun -/

/-- Bytes that leave a character unfinished, each of their beginnings too. -/
def Begun (seen : List UInt8) : Prop :=
  ∀ init b, init ++ [b] <+: seen → classify (init ++ [b]) = .unfinished

theorem begun_nil : Begun [] := by
  intro init b h
  simp at h

theorem Begun.snoc {seen : List UInt8} (h : Begun seen) {b : UInt8}
    (hb : classify (seen ++ [b]) = .unfinished) : Begun (seen ++ [b]) := by
  intro init x hx
  rcases List.prefix_concat_iff.1 hx with heq | hpre
  · rw [heq]
    exact hb
  · exact h init x hpre

theorem Begun.first {a : UInt8} {more : List UInt8} (h : Begun (a :: more)) :
    0xc2 ≤ a.toNat ∧ a.toNat < 0xf5 := by
  have h1 := h [] a (List.prefix_append [a] more)
  rw [List.nil_append, classify_one] at h1
  split at h1
  · contradiction
  · split at h1
    · assumption
    · contradiction

theorem Begun.second {a b : UInt8} {more : List UInt8} (h : Begun (a :: b :: more)) :
    mayFollow a b = true ∧ 0xe0 ≤ a.toNat := by
  have h2 : classify [a, b] = .unfinished := h [a] b (List.prefix_append [a, b] more)
  rw [classify_two] at h2
  split at h2
  · next hf =>
    split at h2
    · contradiction
    · next hlt => exact ⟨hf, Nat.le_of_not_lt hlt⟩
  · contradiction

theorem Begun.third {a b c : UInt8} {more : List UInt8} (h : Begun (a :: b :: c :: more)) :
    continues c = true ∧ 0xf0 ≤ a.toNat := by
  have h3 : classify [a, b, c] = .unfinished := h [a, b] c (List.prefix_append [a, b, c] more)
  rw [classify_three] at h3
  split at h3
  · next hf =>
    split at h3
    · contradiction
    · next hlt => exact ⟨hf, Nat.le_of_not_lt hlt⟩
  · contradiction

/-- No character is unfinished after four bytes. -/
theorem Begun.fourth {a b c d : UInt8} {more : List UInt8} (h : Begun (a :: b :: c :: d :: more)) :
    False := by
  have h4 : classify [a, b, c, d] = .unfinished :=
    h [a, b, c] d (List.prefix_append [a, b, c, d] more)
  rw [classify_four] at h4
  split at h4 <;> contradiction

/-! ### One character -/

/-- A complete character is written by the bytes that were taken for it. -/
theorem encodeChar_of_classify {seen : List UInt8} (hs : Begun seen) {last : UInt8} {c : Char}
    (h : classify (seen ++ [last]) = .char c) : String.utf8EncodeChar c = seen ++ [last] := by
  have hlast := last.toNat_lt
  unfold String.utf8EncodeChar
  simp only [show c.val.toNat = c.toNat from rfl]
  match seen, hs, h with
  | [], _, h =>
    rw [List.nil_append, classify_one] at h
    split at h
    · obtain rfl := Classified.char.inj h
      rw [toNat_char (by omega), if_pos (by omega), UInt8.ofNat_toNat]
      rfl
    · split at h <;> contradiction
  | [a], hs, h =>
    obtain ⟨ha, ha'⟩ := hs.first
    rw [List.cons_append, List.nil_append, classify_two] at h
    split at h
    · next hf =>
      split at h
      · obtain rfl := Classified.char.inj h
        have hl := (mayFollow_iff a last).1 hf
        rw [toNat_char (by omega), if_neg (by omega), if_pos (by omega)]
        simp only [List.cons_append, List.nil_append, List.cons.injEq, and_true]
        rw [byte_eq_iff (by omega), byte_eq_iff (by omega)]
        omega
      · contradiction
    · contradiction
  | [a, b], hs, h =>
    obtain ⟨ha, ha'⟩ := hs.first
    obtain ⟨hb, hge⟩ := hs.second
    have hb := (mayFollow_iff a b).1 hb
    rw [List.cons_append, List.cons_append, List.nil_append, classify_three] at h
    split at h
    · next hf =>
      split at h
      · obtain rfl := Classified.char.inj h
        have hl := (continues_iff last).1 hf
        rw [toNat_char (by omega), if_neg (by omega), if_neg (by omega), if_pos (by omega)]
        simp only [List.cons_append, List.nil_append, List.cons.injEq, and_true]
        rw [byte_eq_iff (by omega), byte_eq_iff (by omega), byte_eq_iff (by omega)]
        omega
      · contradiction
    · contradiction
  | [a, b, d], hs, h =>
    obtain ⟨ha, ha'⟩ := hs.first
    obtain ⟨hb, _⟩ := hs.second
    obtain ⟨hd, hge⟩ := hs.third
    have hb := (mayFollow_iff a b).1 hb
    have hd := (continues_iff d).1 hd
    rw [List.cons_append, List.cons_append, List.cons_append, List.nil_append, classify_four] at h
    split at h
    · next hf =>
      obtain rfl := Classified.char.inj h
      have hl := (continues_iff last).1 hf
      rw [toNat_char (by omega), if_neg (by omega), if_neg (by omega), if_neg (by omega)]
      simp only [List.cons_append, List.nil_append, List.cons.injEq, and_true]
      rw [byte_eq_iff (by omega), byte_eq_iff (by omega), byte_eq_iff (by omega),
        byte_eq_iff (by omega)]
      omega
    · contradiction
  | _ :: _ :: _ :: _ :: _, hs, _ => exact hs.fourth.elim

/-- The bytes of a character leave it unfinished up to the last, which completes
it. -/
theorem exists_classify (c : Char) : ∃ seen last, String.utf8EncodeChar c = seen ++ [last] ∧
    Begun seen ∧ classify (seen ++ [last]) = .char c := by
  have hv : c.toNat < 0xd800 ∨ 0xdfff < c.toNat ∧ c.toNat < 0x110000 := c.valid
  have hchar {n : Nat} (h : n = c.toNat) : Char.ofNat n = c := by rw [h, Char.ofNat_toNat]
  unfold String.utf8EncodeChar
  simp only [show c.val.toNat = c.toNat from rfl]
  split
  · refine ⟨[], _, rfl, begun_nil, ?_⟩
    rw [List.nil_append, classify_one, toNat_byte (by omega), if_pos (by omega), hchar rfl]
  · split
    · have ha := toNat_byte (n := c.toNat / 64 % 32 + 192) (by omega)
      have hb := toNat_byte (n := c.toNat % 64 + 128) (by omega)
      have hf := (mayFollow_iff (UInt8.ofNat (c.toNat / 64 % 32 + 192))
        (UInt8.ofNat (c.toNat % 64 + 128))).2 (by omega)
      refine ⟨[_], _, rfl, begun_nil.snoc ?_, ?_⟩
      · rw [List.nil_append, classify_one, ha, if_neg (by omega), if_pos (by omega)]
      · show classify [_, _] = _
        rw [classify_two, if_pos hf, ha, hb, if_pos (by omega), hchar (by omega)]
    · split
      · have ha := toNat_byte (n := c.toNat / 4096 % 16 + 224) (by omega)
        have hb := toNat_byte (n := c.toNat / 64 % 64 + 128) (by omega)
        have hl := toNat_byte (n := c.toNat % 64 + 128) (by omega)
        have hf := (mayFollow_iff (UInt8.ofNat (c.toNat / 4096 % 16 + 224))
          (UInt8.ofNat (c.toNat / 64 % 64 + 128))).2 (by omega)
        have hcl := (continues_iff (UInt8.ofNat (c.toNat % 64 + 128))).2 (by omega)
        refine ⟨[_, _], _, rfl, (begun_nil.snoc ?_).snoc ?_, ?_⟩
        · rw [List.nil_append, classify_one, ha, if_neg (by omega), if_pos (by omega)]
        · show classify [_, _] = _
          rw [classify_two, if_pos hf, ha, if_neg (by omega)]
        · show classify [_, _, _] = _
          rw [classify_three, if_pos hcl, ha, hb, hl, if_pos (by omega), hchar (by omega)]
      · have ha := toNat_byte (n := c.toNat / 262144 % 8 + 240) (by omega)
        have hb := toNat_byte (n := c.toNat / 4096 % 64 + 128) (by omega)
        have hd := toNat_byte (n := c.toNat / 64 % 64 + 128) (by omega)
        have hl := toNat_byte (n := c.toNat % 64 + 128) (by omega)
        have hf := (mayFollow_iff (UInt8.ofNat (c.toNat / 262144 % 8 + 240))
          (UInt8.ofNat (c.toNat / 4096 % 64 + 128))).2 (by omega)
        have hcd := (continues_iff (UInt8.ofNat (c.toNat / 64 % 64 + 128))).2 (by omega)
        have hcl := (continues_iff (UInt8.ofNat (c.toNat % 64 + 128))).2 (by omega)
        refine ⟨[_, _, _], _, rfl, ((begun_nil.snoc ?_).snoc ?_).snoc ?_, ?_⟩
        · rw [List.nil_append, classify_one, ha, if_neg (by omega), if_pos (by omega)]
        · show classify [_, _] = _
          rw [classify_two, if_pos hf, ha, if_neg (by omega)]
        · show classify [_, _, _] = _
          rw [classify_three, if_pos hcd, ha, if_neg (by omega)]
        · show classify [_, _, _, _] = _
          rw [classify_four, if_pos hcl, ha, hb, hd, hl, hchar (by omega)]

/-! ### Texts -/

/-- The bytes of a text, as the standard library writes it. -/
def encode (cs : List Char) : List UInt8 := cs.flatMap String.utf8EncodeChar

/-- Bytes that leave a character unfinished, and the one that completes it. -/
theorem decode_append_last (last : UInt8) (c : Char) (rest : List UInt8) :
    ∀ more seen : List UInt8, Begun (seen ++ more) → classify (seen ++ more ++ [last]) = .char c →
      decode seen (more ++ last :: rest) =
        (decode [] rest).map fun result => (c :: result.1, result.2)
  | [], seen, _, hc => by
    rw [List.append_nil] at hc
    simp only [List.nil_append, decode, hc]
  | b :: more, seen, hs, hc => by
    have hb : classify (seen ++ [b]) = .unfinished := hs seen b (by simp)
    have hsplit : seen ++ b :: more = seen ++ [b] ++ more := by simp
    rw [hsplit] at hs hc
    simp only [List.cons_append, decode, hb]
    exact decode_append_last last c rest more (seen ++ [b]) hs hc

/-- A text is decoded from the bytes it is written by. -/
theorem decode_encode : ∀ cs : List Char, decode [] (encode cs) = some (cs, [])
  | [] => rfl
  | c :: cs => by
    obtain ⟨seen, last, henc, hs, hc⟩ := exists_classify c
    have hbytes : encode (c :: cs) = seen ++ last :: encode cs := by simp [encode, henc]
    rw [hbytes, decode_append_last last c (encode cs) seen [] hs hc, decode_encode cs]
    rfl

/-- Bytes that are decoded are those of the characters and the bytes left. -/
theorem encode_of_decode : ∀ (bytes seen rest : List UInt8) (cs : List Char), Begun seen →
    decode seen bytes = some (cs, rest) → seen ++ bytes = encode cs ++ rest
  | [], seen, rest, cs, _, h => by
    obtain ⟨rfl, rfl⟩ : [] = cs ∧ seen = rest := by simpa [decode] using h
    simp [encode]
  | b :: bytes, seen, rest, cs, hs, h => by
    rw [decode] at h
    split at h
    · next c hc =>
      obtain ⟨⟨more, rest'⟩, hmore, heq⟩ := Option.map_eq_some_iff.1 h
      obtain ⟨rfl, rfl⟩ : c :: more = cs ∧ rest' = rest := by simpa using heq
      have ih := encode_of_decode bytes [] rest' more begun_nil hmore
      have hchar := encodeChar_of_classify hs hc
      simp only [encode, List.nil_append, List.flatMap_cons, hchar, List.append_assoc,
        List.cons_append] at ih ⊢
      rw [ih]
    · next hu =>
      have ih := encode_of_decode bytes (seen ++ [b]) rest cs (hs.snoc hu) h
      rw [← ih, List.append_assoc, List.singleton_append]
    · contradiction

/-- **Decoding undoes encoding, and nothing else.** -/
theorem decode_eq_some_iff (bytes : List UInt8) (cs : List Char) :
    decode [] bytes = some (cs, []) ↔ bytes = encode cs := by
  constructor
  · intro h
    simpa using encode_of_decode bytes [] [] cs begun_nil h
  · rintro rfl
    exact decode_encode cs

theorem toList_loop (bytes : ByteArray) (i : Nat) (read : List UInt8) :
    ByteArray.toList.loop bytes i read = read.reverse ++ bytes.data.toList.drop i := by
  fun_induction ByteArray.toList.loop bytes i read with
  | case1 i read h ih =>
    have hi : i < bytes.data.toList.length := by simpa using h
    rw [ih, List.drop_eq_getElem_cons hi]
    simp [ByteArray.get!, h]
  | case2 i read h =>
    rw [List.drop_eq_nil_of_le (by simpa using Nat.le_of_not_lt h)]
    simp

/-- The bytes of a string are those of its characters. -/
theorem toList_toUTF8 (s : String) : s.toUTF8.toList = encode s.toList := by
  have hbytes : s.toUTF8 = s.toList.utf8Encode := by
    rw [String.toUTF8_eq_toByteArray, ← String.toByteArray_ofList, String.ofList_toList]
  rw [hbytes, ByteArray.toList, toList_loop]
  simp [List.utf8Encode, encode]

end RichText.Text.Utf8
