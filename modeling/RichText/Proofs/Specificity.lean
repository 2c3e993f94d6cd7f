/-
# Specificity is lexicographic

The score of a selector adds up what its links name, ids, classes, tags and
direct children, with eight bits for each kind (`specificity_eq`). In a chain
of fewer than 256 links no count goes beyond its eight bits, so the score is a
numeral in base 256 whose digits are the counts, and scores are in the order of
the counts read from the ids down (`compare_specificity`). In a longer one the
counts carry and wrap around, but the score still is the sum of its parts
(`specificity_append`) and does not see their order (`specificity_perm`).

Key definitions: `PartCounts`, `PartCounts.of`, `PartCounts.order`.
Key theorems: `specificity_eq`, `compare_specificity`.
-/
import Mathlib
import RichText.Selector

namespace RichText

/-- How many links of a chain name an id, a class and a tag, and how many are
for direct children. -/
structure PartCounts where
  ids : Nat
  classes : Nat
  tags : Nat
  directChildren : Nat
deriving DecidableEq, Repr

namespace PartCounts

def of (links : List Link) : PartCounts where
  ids := links.countP (·.id.isSome)
  classes := links.countP (·.className.isSome)
  tags := links.countP (·.element.isSome)
  directChildren := links.countP (·.directChild)

/-- The lexicographic order: ids first, then classes, tags and direct children. -/
def order (a b : PartCounts) : Ordering :=
  (compare a.ids b.ids).then <| (compare a.classes b.classes).then <|
    (compare a.tags b.tags).then <| compare a.directChildren b.directChildren

/-- The counts as the digits of a numeral in base 256. -/
def weight (c : PartCounts) : Nat :=
  ((c.ids * 256 + c.classes) * 256 + c.tags) * 256 + c.directChildren

/-- Counts that have room in eight bits each. -/
structure Small (c : PartCounts) : Prop where
  ids : c.ids < 256
  classes : c.classes < 256
  tags : c.tags < 256
  directChildren : c.directChildren < 256

theorem small_of {links : List Link} (h : links.length < 256) : (of links).Small where
  ids := List.countP_le_length.trans_lt h
  classes := List.countP_le_length.trans_lt h
  tags := List.countP_le_length.trans_lt h
  directChildren := List.countP_le_length.trans_lt h

theorem weight_lt {c : PartCounts} (h : c.Small) : c.weight < 2 ^ 32 := by
  obtain ⟨h₁, h₂, h₃, h₄⟩ := h
  unfold weight
  omega

theorem weight_cons (l : Link) (links : List Link) :
    (of (l :: links)).weight = (of [l]).weight + (of links).weight := by
  simp only [of, weight, List.countP_cons, List.countP_nil]
  ring

theorem weight_append (xs ys : List Link) :
    (of (xs ++ ys)).weight = (of xs).weight + (of ys).weight := by
  simp only [of, weight, List.countP_append]
  ring

theorem of_perm {xs ys : List Link} (h : xs.Perm ys) : of xs = of ys := by
  unfold of
  rw [h.countP_eq, h.countP_eq, h.countP_eq, h.countP_eq]

/-! ### The order of the counts -/

/-- Numbers with a digit behind them are in the order of the numbers, and of
their digits if they are the same. -/
theorem compare_digit {m : Nat} (a b : Nat) {d e : Nat} (hd : d < m) (he : e < m) :
    compare (a * m + d) (b * m + e) = (compare a b).then (compare d e) := by
  rcases lt_trichotomy a b with h | rfl | h
  · have hlt : a * m + d < b * m + e := by
      have := Nat.mul_le_mul_right m (Nat.succ_le_of_lt h)
      rw [Nat.succ_mul] at this
      omega
    rw [Nat.compare_eq_lt.2 hlt, Nat.compare_eq_lt.2 h]
    rfl
  · rw [Nat.compare_eq_eq.2 rfl, Ordering.eq_then]
    simp only [Nat.compare_eq_ite_lt, Nat.add_lt_add_iff_left]
  · have hlt : b * m + e < a * m + d := by
      have := Nat.mul_le_mul_right m (Nat.succ_le_of_lt h)
      rw [Nat.succ_mul] at this
      omega
    rw [Nat.compare_eq_gt.2 hlt, Nat.compare_eq_gt.2 h]
    rfl

theorem compare_weight {a b : PartCounts} (ha : a.Small) (hb : b.Small) :
    compare a.weight b.weight = a.order b := by
  unfold weight order
  rw [compare_digit _ _ ha.directChildren hb.directChildren, compare_digit _ _ ha.tags hb.tags,
    compare_digit _ _ ha.classes hb.classes]
  simp only [Ordering.then_assoc]

theorem eq_of_order {a b : PartCounts} (h : a.order b = .eq) : a = b := by
  simp only [order, Ordering.then_eq_eq, Nat.compare_eq_eq] at h
  obtain ⟨h₁, h₂, h₃, h₄⟩ := h
  cases a
  cases b
  simp_all

end PartCounts

/-! ### Scores -/

theorem Link.score_eq (l : Link) : l.score = UInt32.ofNat (PartCounts.of [l]).weight := by
  obtain ⟨element, className, id, directChild⟩ := l
  cases element <;> cases className <;> cases id <;> cases directChild <;>
    simp [score, PartCounts.of, PartCounts.weight]

theorem foldl_score (n : UInt32) (links : List Link) :
    links.foldl (fun sum l => sum + l.score) n = n + UInt32.ofNat (PartCounts.of links).weight := by
  induction links generalizing n with
  | nil => simp [PartCounts.of, PartCounts.weight]
  | cons l links ih =>
    rw [List.foldl_cons, ih, PartCounts.weight_cons, UInt32.ofNat_add, ← l.score_eq,
      UInt32.add_assoc]

/-- The score is the weight of the counts, modulo `2 ^ 32`. -/
theorem specificity_eq (links : List Link) :
    specificity links = UInt32.ofNat (PartCounts.of links).weight := by
  rw [specificity, foldl_score, UInt32.zero_add]

theorem specificity_append (xs ys : List Link) :
    specificity (xs ++ ys) = specificity xs + specificity ys := by
  simp only [specificity_eq, PartCounts.weight_append, UInt32.ofNat_add]

theorem specificity_perm {xs ys : List Link} (h : xs.Perm ys) : specificity xs = specificity ys := by
  rw [specificity_eq, specificity_eq, PartCounts.of_perm h]

theorem toNat_specificity {links : List Link} (h : links.length < 256) :
    (specificity links).toNat = (PartCounts.of links).weight := by
  rw [specificity_eq, UInt32.toNat_ofNat_of_lt' (PartCounts.weight_lt (PartCounts.small_of h))]

theorem Link.toNat_score (l : Link) : l.score.toNat = (PartCounts.of [l]).weight := by
  rw [l.score_eq, ← specificity_eq, toNat_specificity (by simp)]

theorem weight_eq_sum (links : List Link) :
    (PartCounts.of links).weight = (links.map fun l => l.score.toNat).sum := by
  induction links with
  | nil => rfl
  | cons l links ih =>
    rw [PartCounts.weight_cons, ih, List.map_cons, List.sum_cons, l.toNat_score]

/-- Words of 32 bits are in the order of their numbers. -/
theorem compare_toNat (a b : UInt32) : compare a b = compare a.toNat b.toNat := by
  simp only [compare, compareOfLessAndEq, UInt32.lt_iff_toNat_lt, ← UInt32.toNat_inj]

/-- Scores of chains of fewer than 256 links are in the order of the counts. -/
theorem compare_specificity {xs ys : List Link} (hx : xs.length < 256) (hy : ys.length < 256) :
    compare (specificity xs) (specificity ys) = (PartCounts.of xs).order (PartCounts.of ys) := by
  rw [compare_toNat, toNat_specificity hx, toNat_specificity hy,
    PartCounts.compare_weight (PartCounts.small_of hx) (PartCounts.small_of hy)]

/-- Scores of chains of fewer than 256 links are in the lexicographic order of
the counts: more ids outrank any number of classes, and only chains with the same
counts have the same score. A score is the sum of those of the links, modulo
`2 ^ 32`, in whatever order these stand. -/
theorem specificity_lexicographic :
    (∀ xs ys : List Link, xs.length < 256 → ys.length < 256 →
      compare (specificity xs) (specificity ys) = (PartCounts.of xs).order (PartCounts.of ys) ∧
        ((PartCounts.of ys).ids < (PartCounts.of xs).ids → specificity ys < specificity xs) ∧
        (specificity xs = specificity ys → PartCounts.of xs = PartCounts.of ys)) ∧
      (∀ links : List Link,
        (specificity links).toNat = (links.map fun l => l.score.toNat).sum % 2 ^ 32) ∧
      (∀ xs ys : List Link, specificity (xs ++ ys) = specificity xs + specificity ys) ∧
      ∀ xs ys : List Link, xs.Perm ys → specificity xs = specificity ys := by
  refine ⟨fun xs ys hx hy => ?_, fun links => ?_, specificity_append, fun _ _ => specificity_perm⟩
  · have hcompare := compare_specificity hx hy
    refine ⟨hcompare, fun hids => ?_, fun heq => PartCounts.eq_of_order ?_⟩
    · rw [PartCounts.order, Nat.compare_eq_gt.2 hids, Ordering.gt_then] at hcompare
      exact Std.compare_eq_gt.1 hcompare
    · rw [← hcompare, heq, Std.compare_self]
  · rw [specificity_eq, UInt32.toNat_ofNat', weight_eq_sum]

/-- One id outranks 255 classes on tags that are direct children. -/
theorem specificity_lexicographic_classes :
    specificity (List.replicate 255 ⟨some "p", some "c", none, true⟩) <
      specificity [⟨none, none, some "i", false⟩] :=
  (specificity_lexicographic.1 _ _ (by decide) (by rw [List.length_replicate]; decide)).2.1
    (by rw [PartCounts.of, List.countP_replicate]; decide)

end RichText
