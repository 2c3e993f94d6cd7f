/-
# Labels of list items name their items

A label can be read back. A bijective numeral is read place by place, the first
character of its list worth one (`readBijective_bijective`): there is no zero, so
taking one off before each division leaves nothing over. A Roman numeral is read
letter by letter, one that stands before a greater one being taken off
(`readRoman_romanFrom`): each step of the greedy writing leaves a number that is
written with no letter greater than the last one so far, so the reading of the two
parts does not mix. A number that a scheme cannot express is written in decimal,
with characters that no scheme with a keyword has as numerals. So no two items of a
list have the same label (`label_injective`).

Key definitions: `readBijective`, `letterValue`, `readRoman`, `Numbering.IsApart`.
Key theorems: `readBijective_bijective`, `readRoman_romanFrom`, `label_injective`.
-/
import Mathlib
import RichText.Proofs.PlainValues
import RichText.Value.Numbering

namespace RichText.Numbering

/-! ### Bijective numeration -/

/-- The number that a text is in bijective numeration, the first character of the
list being worth one. -/
def readBijective (list : List Char) (s : List Char) : Nat :=
  s.foldl (fun n c => n * list.length + (list.idxOf c + 1)) 0

/-- The number whose places, the last one first, are given. -/
def ofPlaces (base : Nat) : List Nat → Nat
  | [] => 0
  | d :: ds => ofPlaces base ds * base + (d + 1)

theorem lt_of_mem_places {base : Nat} (hb : 0 < base) (n : Nat) :
    ∀ d ∈ places base n, d < base := by
  fun_induction places base n with
  | case1 => simp
  | case2 n _ _ ih => exact List.forall_mem_cons.2 ⟨Nat.mod_lt _ hb, ih⟩

theorem ofPlaces_places (base n : Nat) : ofPlaces base (places base n) = n := by
  fun_induction places base n with
  | case1 => simp [ofPlaces]
  | case2 n hn _ ih =>
    have := Nat.div_add_mod' (n - 1) base
    rw [ofPlaces, ih]
    omega

theorem places_ne_nil {base n : Nat} (hn : n ≠ 0) : places base n ≠ [] := by
  rw [places, dif_neg hn]
  exact List.cons_ne_nil _ _

/-- Reading the characters of digits gives the number of the digits. -/
theorem readBijective_digits {list : List Char} (hlist : list.Nodup) {ds : List Nat}
    (hds : ∀ d ∈ ds, d < list.length) :
    readBijective list (ds.reverse.filterMap fun d => list[d]?) = ofPlaces list.length ds := by
  induction ds with
  | nil => rfl
  | cons d ds ih =>
    obtain ⟨hd, hds⟩ := List.forall_mem_cons.1 hds
    have hlast : [d].filterMap (fun d => list[d]?) = [list[d]] := by simp [hd]
    rw [List.reverse_cons, List.filterMap_append, hlast, readBijective, List.foldl_append,
      ← readBijective, ih hds, ofPlaces, List.foldl_cons, List.foldl_nil, hlist.idxOf_getElem]

theorem readBijective_bijective {list : List Char} (hlist : list.Nodup) (hne : list ≠ []) (n : Nat) :
    readBijective list (bijective list n) = n := by
  have hb := List.length_pos_iff.2 hne
  rw [bijective, readBijective_digits hlist (lt_of_mem_places hb n), ofPlaces_places]

theorem mem_of_mem_bijective {list : List Char} {n : Nat} {c : Char} (h : c ∈ bijective list n) :
    c ∈ list := by
  obtain ⟨d, -, hd⟩ := List.mem_filterMap.1 h
  exact List.mem_of_getElem? hd

theorem bijective_ne_nil {list : List Char} (hne : list ≠ []) {n : Nat} (hn : n ≠ 0) :
    bijective list n ≠ [] := by
  intro hnil
  have hplaces : places list.length n ≠ [] := places_ne_nil hn
  obtain ⟨d, hd⟩ := List.exists_mem_of_ne_nil _ hplaces
  have hlt := lt_of_mem_places (List.length_pos_iff.2 hne) n d hd
  have hnone := List.filterMap_eq_nil_iff.1 hnil d (List.mem_reverse.2 hd)
  exact absurd (List.getElem?_eq_none_iff.1 hnone) (Nat.not_le.2 hlt)

/-! ### Roman numerals -/

/-- What a letter of a Roman numeral is worth, in either case. -/
def letterValue (c : Char) : Nat :=
  ([('I', 1), ('V', 5), ('X', 10), ('L', 50), ('C', 100), ('D', 500), ('M', 1000), ('ↁ', 5000),
    ('ↂ', 10000)].lookup c.toUpper).getD 0

/-- What a letter adds to a numeral when `next` stands behind it. -/
def signedValue (c : Char) (next : Option Char) : Int :=
  if next.any fun d => letterValue c < letterValue d then -letterValue c else letterValue c

/-- The number that a Roman numeral is: its letters added up, but each that stands
before a greater one taken off. -/
def readRoman : List Char → Int
  | [] => 0
  | c :: s => signedValue c s.head? + readRoman s

/-- Whether no letter of the second text is greater than the last one of the first. -/
def Descends (s t : List Char) : Prop :=
  ∀ c ∈ s.getLast?, ∀ d ∈ t, letterValue d ≤ letterValue c

instance (s t : List Char) : Decidable (Descends s t) := by
  unfold Descends
  infer_instance

theorem Descends.append {s t u : List Char} (ht : Descends s t) (hu : Descends s u) :
    Descends s (t ++ u) :=
  fun c hc => List.forall_mem_append.2 ⟨ht c hc, hu c hc⟩

theorem readRoman_append {s t : List Char} (h : Descends s t) :
    readRoman (s ++ t) = readRoman s + readRoman t := by
  induction s with
  | nil => simp [readRoman]
  | cons c s ih =>
    cases s with
    | nil =>
      have hlast : signedValue c t.head? = letterValue c := by
        refine if_neg ?_
        rw [Bool.not_eq_true, Option.any_eq_false]
        intro d hd
        simpa using h c rfl d (List.mem_of_mem_head? hd)
      have halone : signedValue c none = letterValue c := rfl
      simp [readRoman, hlast, halone]
    | cons c' s =>
      have hrest : Descends (c' :: s) t := fun d hd => h d (by simpa using hd)
      have hhead : (c' :: s ++ t).head? = (c' :: s).head? := rfl
      rw [List.cons_append, readRoman, ih hrest, readRoman.eq_2 c, hhead, add_assoc]

theorem Descends.flatten_replicate {s t : List Char} (h : Descends s t) (k : Nat) :
    Descends s (List.replicate k t).flatten := by
  intro c hc d hd
  obtain ⟨u, hu, hdu⟩ := List.mem_flatten.1 hd
  rw [List.eq_of_mem_replicate hu] at hdu
  exact h c hc d hdu

theorem Descends.of_replicate {s t : List Char} (h : Descends s t) (k : Nat) :
    Descends (List.replicate k s).flatten t := by
  induction k with
  | zero => simp [Descends]
  | succ k ih =>
    intro c hc
    rw [List.replicate_succ', List.flatten_concat, List.getLast?_append] at hc
    cases hs : s.getLast? with
    | some d =>
      rw [hs, Option.some_or] at hc
      exact h c (by rw [hs]; exact hc)
    | none =>
      rw [hs, Option.none_or] at hc
      exact ih c hc

theorem readRoman_replicate {s : List Char} (h : Descends s s) (k : Nat) :
    readRoman (List.replicate k s).flatten = k * readRoman s := by
  induction k with
  | zero => simp [readRoman]
  | succ k ih =>
    rw [List.replicate_succ, List.flatten_cons, readRoman_append (h.flatten_replicate k), ih]
    push_cast
    ring

/-- The letters of a numeral are those of the table it is written with. -/
theorem mem_of_mem_romanFrom {table : List (Nat × String)} {n : Nat} {c : Char}
    (h : c ∈ romanFrom n table) : ∃ e ∈ table, c ∈ e.2.toList := by
  induction table generalizing n with
  | nil => simp [romanFrom] at h
  | cons e table ih =>
    rcases List.mem_append.1 h with hc | hc
    · obtain ⟨u, hu, hcu⟩ := List.mem_flatten.1 hc
      exact ⟨e, List.mem_cons_self, List.eq_of_mem_replicate hu ▸ hcu⟩
    · obtain ⟨e', he', hce⟩ := ih hc
      exact ⟨e', List.mem_cons_of_mem e he', hce⟩

/-- What is left of a number when the numerals of a table are taken off it. -/
def leftOver (n : Nat) (table : List (Nat × String)) : Nat := table.foldl (fun n e => n % e.1) n

/-- A numeral from a table of numerals that descend is read as the number it was
written for, without what is left over. -/
theorem readRoman_romanFrom {table : List (Nat × String)}
    (hvalue : ∀ e ∈ table, readRoman e.2.toList = e.1 ∧ Descends e.2.toList e.2.toList)
    (hdescends : table.Pairwise fun a b => Descends a.2.toList b.2.toList) (n : Nat) :
    readRoman (romanFrom n table) + leftOver n table = n := by
  induction table generalizing n with
  | nil => simp [romanFrom, readRoman, leftOver]
  | cons e table ih =>
    obtain ⟨value, numeral⟩ := e
    obtain ⟨⟨hread, hself⟩, hvalue⟩ := List.forall_mem_cons.1 hvalue
    obtain ⟨hlater, hdescends⟩ := List.pairwise_cons.1 hdescends
    have hletters : Descends numeral.toList (romanFrom (n % value) table) := by
      intro c hc d hd
      obtain ⟨e, he, hde⟩ := mem_of_mem_romanFrom hd
      exact hlater e he c hc d hde
    have hblock : Descends (List.replicate (n / value) numeral.toList).flatten
        (romanFrom (n % value) table) := hletters.of_replicate _
    have hdiv : (n : Int) = (n / value : Nat) * value + (n % value : Nat) := by
      exact_mod_cast (Nat.div_add_mod' n value).symm
    have hrest := ih hvalue hdescends (n % value)
    rw [romanFrom, readRoman_append hblock, readRoman_replicate hself, hread, leftOver,
      List.foldl_cons, ← leftOver]
    dsimp only
    omega

theorem value_romanNumerals : ∀ e ∈ romanNumerals, readRoman e.2.toList = e.1 := by
  simp [romanNumerals, readRoman, signedValue, letterValue, List.lookup]

theorem descends_romanNumerals :
    (∀ e ∈ romanNumerals, Descends e.2.toList e.2.toList) ∧
      romanNumerals.Pairwise fun a b => Descends a.2.toList b.2.toList := by
  constructor <;> simp [romanNumerals, Descends, letterValue, List.lookup]

theorem letterValue_romanNumerals :
    ∀ e ∈ romanNumerals, ∀ c ∈ e.2.toList, letterValue c.toLower = letterValue c := by
  simp [romanNumerals, letterValue, List.lookup]

/-- The last numeral is a one, so nothing is left over. -/
theorem readRoman_romanNumeral (n : Nat) : readRoman (romanNumeral n) = n := by
  have hleft : leftOver n romanNumerals = 0 := by simp [leftOver, romanNumerals, Nat.mod_one]
  have h := readRoman_romanFrom
    (fun e he => ⟨value_romanNumerals e he, descends_romanNumerals.1 e he⟩)
    descends_romanNumerals.2 n
  rwa [hleft, Nat.cast_zero, add_zero] at h

/-- Letters of the same worth make the same number. -/
theorem readRoman_map {f : Char → Char} {s : List Char}
    (h : ∀ c ∈ s, letterValue (f c) = letterValue c) : readRoman (s.map f) = readRoman s := by
  induction s with
  | nil => rfl
  | cons c s ih =>
    obtain ⟨hc, hs⟩ := List.forall_mem_cons.1 h
    rw [List.map_cons, readRoman, ih hs, readRoman]
    cases s with
    | nil => simp [signedValue, hc]
    | cons d s => simp [signedValue, hc, hs d List.mem_cons_self]

/-! ### Labels -/

/-- Whether a scheme writes a number in its own way, not in decimal. -/
def Expresses : Numbering → Int → Prop
  | .decimal, _ => False
  | .roman _, n => 1 ≤ n ∧ n ≤ mostRoman
  | .characters _, n => 1 ≤ n

/-- Reads a label that is not in decimal. -/
def readLabel : Numbering → List Char → Int
  | .decimal, _ => 0
  | .roman _, s => readRoman s
  | .characters list, s => readBijective list.toList s

/-- A list of characters makes labels that can be read, and are not taken for
decimals. -/
structure IsAlphabet (list : List Char) : Prop where
  nonempty : list ≠ []
  nodup : list.Nodup
  apart : ∀ c ∈ list, c.isDigit = false ∧ c ≠ '-'

theorem isAlphabet_iff {list : List Char} :
    IsAlphabet list ↔ list ≠ [] ∧ list.Nodup ∧ ∀ c ∈ list, c.isDigit = false ∧ c ≠ '-' :=
  ⟨fun h => ⟨h.nonempty, h.nodup, h.apart⟩, fun ⟨h₁, h₂, h₃⟩ => ⟨h₁, h₂, h₃⟩⟩

/-- The condition on a scheme for its labels to tell the items apart. -/
def IsApart : Numbering → Prop
  | .characters list => IsAlphabet list.toList
  | _ => True

theorem isApart_named : ∀ e ∈ named, e.2.IsApart := by
  simp [named, IsApart, isAlphabet_iff, upperAlpha, lowerAlpha]

theorem isApart_of_keyword {keyword : String} {scheme : Numbering}
    (h : ofKeyword? keyword = some scheme) : scheme.IsApart := by
  obtain ⟨front, back, hnamed, -⟩ := List.lookup_eq_some_iff.1 h
  exact isApart_named (Text.lowerCase keyword, scheme) (by simp [hnamed])

theorem label_roman {lowercase : Bool} {n : Int} (hn : (roman lowercase).Expresses n) :
    (label (.roman lowercase) n).toList =
      (romanNumeral n.toNat).map (if lowercase then Char.toLower else id) := by
  obtain ⟨hleast, hmost⟩ := hn
  rw [label, if_neg (by omega), String.toList_ofList]
  cases lowercase <;> simp

theorem label_characters {list : String} {n : Int} (hn : 1 ≤ n) :
    (label (.characters list) n).toList = bijective list.toList n.toNat := by
  rw [label, if_neg (by omega), String.toList_ofList]

theorem label_of_not_expresses {scheme : Numbering} {n : Int} (hn : ¬scheme.Expresses n) :
    (label scheme n).toList = Number.integer n := by
  unfold label
  rw [String.toList_ofList]
  cases scheme with
  | decimal => rfl
  | roman lowercase =>
    refine if_pos ?_
    simp only [Expresses] at hn
    omega
  | characters list =>
    refine if_pos ?_
    simp only [Expresses] at hn
    omega

/-- A label that is not in decimal is read as the number of the item. -/
theorem readLabel_label {scheme : Numbering} (h : scheme.IsApart) {n : Int}
    (hn : scheme.Expresses n) : scheme.readLabel (label scheme n).toList = n := by
  cases scheme with
  | decimal => exact hn.elim
  | roman lowercase =>
    have hread : readRoman ((romanNumeral n.toNat).map (if lowercase then Char.toLower else id)) =
        readRoman (romanNumeral n.toNat) := by
      refine readRoman_map fun c hc => ?_
      obtain ⟨e, he, hce⟩ := mem_of_mem_romanFrom hc
      cases lowercase with
      | false => rfl
      | true => exact letterValue_romanNumerals e he c hce
    rw [label_roman hn, readLabel, hread, readRoman_romanNumeral]
    exact Int.toNat_of_nonneg (by have := hn.1; omega)
  | characters list =>
    rw [label_characters hn, readLabel, readBijective_bijective h.nodup h.nonempty]
    exact Int.toNat_of_nonneg (by simp only [Expresses] at hn; omega)

theorem apart_romanNumerals : ∀ e ∈ romanNumerals, ∀ c ∈ e.2.toList,
    (c.isDigit = false ∧ c ≠ '-') ∧ c.toLower.isDigit = false ∧ c.toLower ≠ '-' := by
  simp [romanNumerals]

/-- A label that is not in decimal has no character of a decimal. -/
theorem apart_label {scheme : Numbering} (h : scheme.IsApart) {n : Int} (hn : scheme.Expresses n) :
    ∀ c ∈ (label scheme n).toList, c.isDigit = false ∧ c ≠ '-' := by
  cases scheme with
  | decimal => exact hn.elim
  | roman lowercase =>
    rw [label_roman hn, List.forall_mem_map]
    intro c hc
    obtain ⟨e, he, hce⟩ := mem_of_mem_romanFrom hc
    cases lowercase with
    | false => exact (apart_romanNumerals e he c hce).1
    | true => exact (apart_romanNumerals e he c hce).2
  | characters list =>
    rw [label_characters hn]
    exact fun c hc => h.apart c (mem_of_mem_bijective hc)

theorem mem_integer {n : Int} {c : Char} (hc : c ∈ Number.integer n) : c.isDigit ∨ c = '-' := by
  have hdigits (m : Nat) : c ∈ Number.decimal m → c.isDigit :=
    Nat.isDigit_of_mem_toDigits (by decide) (by decide)
  unfold Number.integer at hc
  split at hc
  · rcases List.mem_cons.1 hc with rfl | hc
    · exact .inr rfl
    · exact .inl (hdigits _ hc)
  · exact .inl (hdigits _ hc)

theorem integer_ne_nil (n : Int) : Number.integer n ≠ [] := by
  unfold Number.integer
  split
  · exact List.cons_ne_nil _ _
  · exact Number.decimal_ne_nil _

/-- A decimal does not begin with a minus sign unless the number is negative. -/
theorem decimal_ne_minus (n : Nat) (s : List Char) : Number.decimal n ≠ '-' :: s := by
  intro h
  have hminus : ('-' : Char) ∈ Nat.toDigits 10 n := by
    rw [← Number.decimal, h]
    exact List.mem_cons_self
  exact absurd (Nat.isDigit_of_mem_toDigits (by decide) (by decide) hminus) (by decide)

theorem integer_injective {m n : Int} (h : Number.integer m = Number.integer n) : m = n := by
  unfold Number.integer at h
  split at h <;> split at h
  · have := Number.decimal_injective (List.tail_eq_of_cons_eq h)
    omega
  · exact absurd h.symm (decimal_ne_minus _ _)
  · exact absurd h (decimal_ne_minus _ _)
  · have := Number.decimal_injective h
    omega

/-- Items with the same label are the same. -/
theorem label_injective {scheme : Numbering} (h : scheme.IsApart) {m n : Int}
    (heq : label scheme m = label scheme n) : m = n := by
  -- A label in the scheme's own way and one in decimal have no character in common.
  have hmixed {m n : Int} (hm : scheme.Expresses m) (hn : ¬scheme.Expresses n)
      (heq : label scheme m = label scheme n) : False := by
    obtain ⟨c, hc⟩ := List.exists_mem_of_ne_nil _ (integer_ne_nil n)
    have hlabel : c ∈ (label scheme m).toList := by rwa [heq, label_of_not_expresses hn]
    obtain ⟨hdigit, hminus⟩ := apart_label h hm c hlabel
    rcases mem_integer hc with hc | hc
    · rw [hdigit] at hc
      exact absurd hc Bool.false_ne_true
    · exact hminus hc
  by_cases hm : scheme.Expresses m
  · by_cases hn : scheme.Expresses n
    · rw [← readLabel_label h hm, heq, readLabel_label h hn]
    · exact (hmixed hm hn heq).elim
  · by_cases hn : scheme.Expresses n
    · exact (hmixed hn hm heq.symm).elim
    · refine integer_injective ?_
      rw [← label_of_not_expresses hm, heq, label_of_not_expresses hn]

/-- The labels of a scheme with a keyword tell the items of a list apart. With any
characters the label of a positive number is the bijective numeral for it, and the
Roman label of a number up to the greatest one is the Roman numeral for it. -/
theorem labels_identify :
    (∀ keyword scheme, ofKeyword? keyword = some scheme →
      ∀ m n : Int, m ≠ n → label scheme m ≠ label scheme n) ∧
    (∀ list : String, list ≠ "" → list.toList.Nodup → ∀ n : Int, 1 ≤ n →
      (label (.characters list) n).toList ≠ [] ∧
        (∀ c ∈ (label (.characters list) n).toList, c ∈ list.toList) ∧
        readBijective list.toList (label (.characters list) n).toList = n) ∧
    ∀ (lowercase : Bool) (n : Int), 1 ≤ n → n ≤ 39999 →
      readRoman (label (.roman lowercase) n).toList = n := by
  refine ⟨fun keyword scheme hscheme m n hne heq => ?_, fun list hlist hnodup n hn => ?_,
    fun lowercase n hleast hmost => ?_⟩
  · exact hne (label_injective (isApart_of_keyword hscheme) heq)
  · have hne : list.toList ≠ [] := fun h => hlist (String.toList_eq_nil_iff.1 h)
    rw [label_characters hn]
    refine ⟨bijective_ne_nil hne (by omega), fun c => mem_of_mem_bijective, ?_⟩
    rw [readBijective_bijective hnodup hne]
    exact Int.toNat_of_nonneg (by omega)
  · have hapart : (roman lowercase).IsApart := trivial
    exact readLabel_label hapart ⟨hleast, hmost⟩

theorem labels_identify_fallback :
    label (.roman true) 39999 ≠ label (.roman true) 40000 ∧
      readBijective "αβγ".toList (label (.characters "αβγ") 13).toList = (13 : Int) ∧
      readRoman (label (.roman true) 39999).toList = 39999 :=
  ⟨labels_identify.1 "Lower-Roman" (.roman true) (by decide +kernel) _ _ (by decide),
    (labels_identify.2.1 "αβγ" (by decide) (by simp) 13 (by decide)).2.2,
    labels_identify.2.2 true 39999 (by decide) (by decide)⟩

end RichText.Numbering
