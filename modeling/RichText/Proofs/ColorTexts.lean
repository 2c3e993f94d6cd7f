/-
# Colors in hexadecimal digits

A color is a number of four bytes, and the number is the color (`argb_ofArgb`). With
eight digits behind the hash that number is written in full; with six the alpha is
left out, and then it is full; and with three or four each digit stands for two of its
own kind (`ofHex?_three`, `ofHex?_four`). No other number of digits is a color, and
nothing else than digits (`exists_ofHex?_iff`). What is written for a color has six or
eight of them, so it is read back, whatever the case of each digit is and whatever
blanks are around it (`readColor_text`).

Key theorems: `argb_ofArgb`, `exists_ofHex?_iff`, `ofHex?_of_read`,
`readColor_text`, `colors_as_text`.
-/
import RichText.Proofs.Numerals

namespace RichText

open Text

theorem Text.sameLetters_iff {s t : String} :
    sameLetters s t = true ↔ s.toList.map Char.toLower = t.toList.map Char.toLower := by
  rw [sameLetters, beq_iff_eq, ← String.toList_inj]
  simp [lowerCase]

namespace Color

/-! ### Colors and numbers -/

theorem argb_ofArgb {n : Nat} (h : n < 0x100000000) : (ofArgb n).argb = n := by
  simp only [ofArgb, argb, UInt8.toNat_ofNat']
  omega

/-- The alpha of a color, and the other bytes as a number. -/
theorem argb_eq (c : Color) : c.argb = c.alpha.toNat * 0x1000000 + c.argb % 0x1000000 := by
  obtain ⟨a, r, g, b⟩ := c
  have hr := r.toNat_lt
  have hg := g.toNat_lt
  have hb := b.toNat_lt
  simp only [argb]
  omega

theorem argb_lt (c : Color) : c.argb < 0x100000000 := by
  have ha := c.alpha.toNat_lt
  have hrest := Nat.mod_lt c.argb (show 0x1000000 > 0 by decide)
  have heq := c.argb_eq
  omega

theorem alpha_ofArgb_full {n : Nat} (h : n < 0x1000000) : (ofArgb (0xff000000 + n)).alpha = 255 := by
  have hdiv : (0xff000000 + n) / 0x1000000 = 255 := by omega
  rw [ofArgb, hdiv]
  rfl

/-! ### The forms of a color -/

/-- What a hash and some digits are: a color if there are as many as one of the forms has. -/
theorem exists_ofHex?_iff {digits : List Char} :
    (∃ c, ofHex? digits = some c) ↔
      digits.length ∈ [3, 4, 6, 8] ∧ ∀ d ∈ digits, Number.IsHexDigit d := by
  have hdigits : (∃ vs, digits.mapM Number.hexValue? = some vs) ↔
      ∀ d ∈ digits, Number.IsHexDigit d := by
    rw [exists_mapM_eq_some_iff]
    exact forall₂_congr fun d _ => Number.exists_hexValue?_iff
  rw [← hdigits]
  constructor
  · rintro ⟨c, hc⟩
    unfold ofHex? at hc
    split at hc
    case h_5 => cases hc
    all_goals
      next hvs =>
        refine ⟨?_, _, hvs⟩
        rw [← length_of_mapM_eq_some hvs]
        simp
  · rintro ⟨hlength, vs, hvs⟩
    rw [← length_of_mapM_eq_some hvs] at hlength
    unfold ofHex?
    rw [hvs]
    match vs, hlength with
    | [_, _, _], _ => exact ⟨_, rfl⟩
    | [_, _, _, _], _ => exact ⟨_, rfl⟩
    | [_, _, _, _, _, _], _ => exact ⟨_, rfl⟩
    | [_, _, _, _, _, _, _, _], _ => exact ⟨_, rfl⟩

/-- One digit for each byte is that digit twice. -/
theorem ofHex?_three (r g b : Char) : ofHex? [r, g, b] = ofHex? [r, r, g, g, b, b] := by
  simp only [ofHex?, List.mapM_cons, List.mapM_nil]
  cases Number.hexValue? r with
  | none => rfl
  | some r =>
    cases Number.hexValue? g with
    | none => rfl
    | some g =>
      cases Number.hexValue? b with
      | none => rfl
      | some b =>
        have hnumber : (r * 0x10000 + g * 0x100 + b) * 0x11 =
            [r, r, g, g, b, b].foldl (fun n d => n * 16 + d) 0 := by
          simp only [List.foldl_cons, List.foldl_nil]
          ring
        exact congrArg (fun n => some (ofArgb (0xff000000 + n))) hnumber

theorem ofHex?_four (a r g b : Char) :
    ofHex? [a, r, g, b] = ofHex? [a, a, r, r, g, g, b, b] := by
  simp only [ofHex?, List.mapM_cons, List.mapM_nil]
  cases Number.hexValue? a with
  | none => rfl
  | some a =>
    cases Number.hexValue? r with
    | none => rfl
    | some r =>
      cases Number.hexValue? g with
      | none => rfl
      | some g =>
        cases Number.hexValue? b with
        | none => rfl
        | some b =>
          have hnumber : (((a * 0x100 + r) * 0x100 + g) * 0x100 + b) * 0x11 =
              [a, a, r, r, g, g, b, b].foldl (fun n d => n * 16 + d) 0 := by
            simp only [List.foldl_cons, List.foldl_nil]
            ring
          exact congrArg (fun n => some (ofArgb n)) hnumber

theorem exists_of_length_six : ∀ {vs : List Nat}, vs.length = 6 →
    ∃ r₁ r₀ g₁ g₀ b₁ b₀, vs = [r₁, r₀, g₁, g₀, b₁, b₀]
  | [r₁, r₀, g₁, g₀, b₁, b₀], _ => ⟨r₁, r₀, g₁, g₀, b₁, b₀, rfl⟩

theorem exists_of_length_eight : ∀ {vs : List Nat}, vs.length = 8 →
    ∃ a₁ a₀ r₁ r₀ g₁ g₀ b₁ b₀, vs = [a₁, a₀, r₁, r₀, g₁, g₀, b₁, b₀]
  | [a₁, a₀, r₁, r₀, g₁, g₀, b₁, b₀], _ => ⟨a₁, a₀, r₁, r₀, g₁, g₀, b₁, b₀, rfl⟩

/-- Six digits are the number without alpha, which is full then, and eight the number. -/
theorem ofHex?_of_read {digits : List Char} {n : Nat}
    (h : Number.readHexadecimal? digits = some n) :
    (digits.length = 6 → ofHex? digits = some (ofArgb (0xff000000 + n))) ∧
      (digits.length = 8 → ofHex? digits = some (ofArgb n)) := by
  obtain ⟨vs, hvs, rfl⟩ : ∃ vs, digits.mapM Number.hexValue? = some vs ∧
      vs.foldl (fun n d => n * 16 + d) 0 = n := by
    rw [Number.readHexadecimal?, Number.readFrom?_eq] at h
    split at h
    · cases h
    · exact Option.map_eq_some_iff.1 h
  rw [← length_of_mapM_eq_some hvs]
  unfold ofHex?
  rw [hvs]
  constructor
  · intro hlength
    obtain ⟨r₁, r₀, g₁, g₀, b₁, b₀, rfl⟩ := exists_of_length_six hlength
    rfl
  · intro hlength
    obtain ⟨a₁, a₀, r₁, r₀, g₁, g₀, b₁, b₀, rfl⟩ := exists_of_length_eight hlength
    rfl

/-- Without alpha it is full. -/
theorem ofHex?_six {digits : List Char} (h : digits.length = 6) :
    ofHex? digits = ofHex? ('f' :: 'f' :: digits) := by
  have hfull : ('f' :: 'f' :: digits).mapM Number.hexValue? =
      (digits.mapM Number.hexValue?).map fun vs => 15 :: 15 :: vs := by
    rw [List.mapM_cons, List.mapM_cons]
    cases digits.mapM Number.hexValue? <;> rfl
  unfold ofHex?
  rw [hfull]
  cases hvs : digits.mapM Number.hexValue? with
  | none => rfl
  | some vs =>
    rw [← length_of_mapM_eq_some hvs] at h
    obtain ⟨r₁, r₀, g₁, g₀, b₁, b₀, rfl⟩ := exists_of_length_six h
    have hnumber : 0xff000000 + [r₁, r₀, g₁, g₀, b₁, b₀].foldl (fun n d => n * 16 + d) 0 =
        [15, 15, r₁, r₀, g₁, g₀, b₁, b₀].foldl (fun n d => n * 16 + d) 0 := by
      simp only [List.foldl_cons, List.foldl_nil]
      ring
    exact congrArg (fun n => some (ofArgb n)) hnumber

/-! ### The color of a text -/

/-- The digits of the text of a color, in any case. -/
theorem ofHex?_text {c : Color} {digits : List Char}
    (h : ('#' :: digits).map Char.toLower = c.text.toList.map Char.toLower) :
    ofHex? digits = some c := by
  have hdigits (width n : Nat) (hwidth : 0 < width) (hn : n < 16 ^ width)
      (h : digits.map Char.toLower =
        (Number.zeroPadded width (Number.hexadecimal n)).map Char.toLower) :
      digits.length = width ∧ Number.readHexadecimal? digits = some n := by
    constructor
    · rw [← Number.length_zeroPadded hwidth hn, ← List.length_map, h, List.length_map]
    · rw [Number.readHexadecimal?_of_map_toLower h]
      exact Number.readHexadecimal?_zeros _ n
  rw [text, String.toList_ofList] at h
  have hmore := (List.cons.inj h).2
  by_cases halpha : c.alpha = 255
  · rw [if_pos halpha] at hmore
    obtain ⟨hlength, hread⟩ := hdigits 6 (c.argb % 0x1000000) (by decide)
      (Nat.mod_lt _ (by decide)) hmore
    have hargb : 0xff000000 + c.argb % 0x1000000 = c.argb := by
      have heq := c.argb_eq
      rw [halpha] at heq
      exact heq.symm
    rw [(ofHex?_of_read hread).1 hlength, hargb, ofArgb_argb]
  · rw [if_neg halpha] at hmore
    obtain ⟨hlength, hread⟩ := hdigits 8 _ (by decide) c.argb_lt hmore
    rw [(ofHex?_of_read hread).2 hlength, ofArgb_argb]

/-- Only a hash has the small letter of a hash. -/
theorem eq_hash_of_toLower : ∀ c : Char, c.toLower = '#' → c = '#' :=
  forall_of_toLower (by decide) fun _ hc h => hc ▸ h

/-- The text of a color is read back, in any case and with any blanks around it. -/
theorem readColor_text {c : Color} {before written after : List Char}
    (hb : ∀ x ∈ before, isBlank x = true) (ha : ∀ x ∈ after, isBlank x = true)
    (h : written.map Char.toLower = c.text.toList.map Char.toLower) :
    Declaration.readColor (String.ofList (before ++ (written ++ after))) = .ok c := by
  obtain ⟨digits, rfl⟩ : ∃ digits, written = '#' :: digits := by
    cases written with
    | nil => simp [text] at h
    | cons x digits =>
      have hfirst : x.toLower = '#' := by
        rw [text, String.toList_ofList] at h
        exact (List.cons.inj h).1
      exact ⟨digits, by rw [eq_hash_of_toLower x hfirst]⟩
  have hcolor := ofHex?_text h
  have hdigits := (exists_ofHex?_iff.1 ⟨c, hcolor⟩).2
  have htrimmed : Sheet.IsTrimmed ('#' :: digits) :=
    Sheet.isTrimmed_of_forall <|
      List.forall_mem_cons.2 ⟨by decide, fun d hd => (hdigits d hd).not_isBlank⟩
  refine Declaration.readColor_of_ofHex? ?_ hcolor
  rw [String.toList_ofList, Sheet.trim_append hb ha htrimmed]

theorem parse?_hash (digits : List Char) :
    parse? (String.ofList ('#' :: digits)) = ofHex? digits := by
  simp only [parse?, String.toList_ofList]

/-- **Colors and their texts.** A number of 32 bits is the number of the color it is
made into. The text of a color is read back, whatever the case of its letters and
whatever blanks are around it. Behind a hash there has to be one of four numbers of
hexadecimal digits: eight are the number of the color, six leave a full alpha out, and
three and four are the same with every digit doubled. -/
theorem colors_as_text :
    (∀ n : UInt32, (ofArgb n.toNat).argb = n.toNat) ∧
    (∀ (c : Color) (before after : List Char) (written : String),
      (∀ x ∈ before, isBlank x = true) → (∀ x ∈ after, isBlank x = true) →
        sameLetters written c.text = true →
        Declaration.readColor (String.ofList (before ++ (written.toList ++ after))) = .ok c) ∧
    ∀ digits : List Char,
      ((∃ c, parse? (String.ofList ('#' :: digits)) = some c) ↔
        digits.length ∈ [3, 4, 6, 8] ∧ ∀ d ∈ digits, Number.IsHexDigit d) ∧
      (digits.length = 3 ∨ digits.length = 4 →
        parse? (String.ofList ('#' :: digits)) =
          parse? (String.ofList ('#' :: digits.flatMap fun d => [d, d]))) ∧
      (digits.length = 6 →
        parse? (String.ofList ('#' :: digits)) =
          parse? (String.ofList ('#' :: 'f' :: 'f' :: digits))) ∧
      ∀ c, parse? (String.ofList ('#' :: digits)) = some c →
        (digits.length = 3 ∨ digits.length = 6 → c.alpha = 255) ∧
          (digits.length = 8 → Number.readHexadecimal? digits = some c.argb) := by
  refine ⟨fun n => argb_ofArgb n.toNat_lt, fun c before after written hb ha h => ?_,
    fun digits => ?_⟩
  · exact readColor_text hb ha (sameLetters_iff.1 h)
  simp only [parse?_hash]
  have hfull {digits : List Char} {c : Color} (hlength : digits.length = 6)
      (hc : ofHex? digits = some c) : c.alpha = 255 := by
    obtain ⟨-, hdigits⟩ := exists_ofHex?_iff.1 ⟨c, hc⟩
    have hne : digits ≠ [] := List.ne_nil_of_length_pos (by omega)
    obtain ⟨n, hn, hread⟩ := Number.exists_readHexadecimal? hne hdigits
    rw [(ofHex?_of_read hread).1 hlength] at hc
    rw [← Option.some.inj hc]
    exact alpha_ofArgb_full (by rwa [hlength] at hn)
  refine ⟨exists_ofHex?_iff, fun hlength => ?_, ofHex?_six, fun c hc => ⟨?_, fun hlength => ?_⟩⟩
  · rcases hlength with hlength | hlength
    · match digits, hlength with
      | [r, g, b], _ => exact ofHex?_three r g b
    · match digits, hlength with
      | [a, r, g, b], _ => exact ofHex?_four a r g b
  · rintro (hlength | hlength)
    · match digits, hlength with
      | [r, g, b], _ =>
        rw [ofHex?_three] at hc
        exact hfull rfl hc
    · exact hfull hlength hc
  · obtain ⟨-, hdigits⟩ := exists_ofHex?_iff.1 ⟨c, hc⟩
    have hne : digits ≠ [] := List.ne_nil_of_length_pos (by omega)
    obtain ⟨n, hn, hread⟩ := Number.exists_readHexadecimal? hne hdigits
    rw [(ofHex?_of_read hread).2 hlength] at hc
    rw [hread, ← Option.some.inj hc, argb_ofArgb (by rwa [hlength] at hn)]

theorem colors_as_text_half :
    Declaration.readColor (String.ofList (['\t', ' '] ++ ("#80Ffa500".toList ++ [' ']))) =
        .ok ⟨0x80, 0xff, 0xa5, 0⟩ ∧
      parse? (String.ofList ['#', 'F', 'a', '5']) =
        parse? (String.ofList ['#', 'F', 'F', 'a', 'a', '5', '5']) ∧
      parse? (String.ofList ['#', 'F', 'F', 'a', 'a', '5', '5']) =
        parse? (String.ofList ['#', 'f', 'f', 'F', 'F', 'a', 'a', '5', '5']) ∧
      Number.readHexadecimal? ['8', '0', 'f', 'f', 'A', '5', '0', '0'] =
        some (argb ⟨0x80, 0xff, 0xa5, 0⟩) := by
  obtain ⟨-, htext, hforms⟩ := colors_as_text
  have hblank : ∀ x ∈ ['\t', ' '], isBlank x = true := List.all_eq_true.1 (by decide)
  have hcase : sameLetters "#80Ffa500" (text ⟨0x80, 0xff, 0xa5, 0⟩) = true := by
    rw [sameLetters_iff, text, String.toList_ofList]
    decide
  have hcolor : parse? (String.ofList ['#', '8', '0', 'f', 'f', 'A', '5', '0', '0']) =
      some ⟨0x80, 0xff, 0xa5, 0⟩ := by decide +kernel
  refine ⟨htext _ _ _ _ hblank (fun x hx => hblank x (.tail _ hx)) hcase, ?_, ?_, ?_⟩
  · exact (hforms ['F', 'a', '5']).2.1 (.inl rfl)
  · exact (hforms ['F', 'F', 'a', 'a', '5', '5']).2.2.1 rfl
  · exact ((hforms ['8', '0', 'f', 'f', 'A', '5', '0', '0']).2.2.2 _ hcolor).2 rfl

end Color

end RichText
