/-
# The rules of a stylesheet stand in the order they were written

A stylesheet comes from texts that are read one after another (`History`). Each
text that can be read adds its rules, in the order they are written, behind the
built-in one; a text that cannot adds none (`History.written`). The stylesheet
holds them in ascending order of their scores, and those of one score in the
order they were written (`exists_ascending`): putting a new rule behind all
that do not outrank it keeps that order, since nothing was written later.

Key definitions: `History`, `History.written`, `Written`, `Written.Before`.
Key theorems: `StyleSheet.rules_parse`, `History.rules_sheet`,
`exists_ascending`.
-/
import RichText.StyleSheet

namespace RichText

/-- The texts that a stylesheet was given. -/
structure History where
  registry : Registry
  sources : List ByteSource

/-- The rules that a text adds, in the order they are written. -/
def rulesOf (r : Registry) (source : ByteSource) : List Selector :=
  match Sheet.parse source with
  | .ok content => content.rules.flatMap fun rule => (StyleSheet.selectorsOf r rule).2
  | .error _ => []

namespace History

/-- The stylesheet that comes of the texts. -/
def sheet (h : History) : StyleSheet :=
  h.sources.foldl (fun s source => (s.parse source).2) (.new h.registry)

/-- All rules in the order they were written, the built-in one first. -/
def written (h : History) : List Selector :=
  StyleSheet.preRule h.registry :: h.sources.flatMap (rulesOf h.registry)

end History

/-- The stylesheet holds what the texts give, whatever it remembers. -/
def StyleSheet.MadeBy (s : StyleSheet) (h : History) : Prop := s.forget = h.sheet.forget

/-- A rule, the stylesheet it stands in, and the number of rules that were
written in that before it. -/
structure Written where
  sheet : Nat
  order : Nat
  rule : Selector

/-- The rules of several stylesheets, numbered from `n`, as they were written. -/
def writtenFrom (n : Nat) (histories : List History) : List Written :=
  (histories.zipIdx n).flatMap fun h => h.1.written.zipIdx.map fun rule => ⟨h.2, rule.2, rule.1⟩

/-- The order of the cascade: by stylesheet, then by score, then as written. -/
def Written.Before (a b : Written) : Prop :=
  a.sheet < b.sheet ∨ a.sheet = b.sheet ∧
    (a.rule.score < b.rule.score ∨ a.rule.score = b.rule.score ∧ a.order < b.order)

theorem Written.Before.trans {a b c : Written} (h : a.Before b) (h' : b.Before c) : a.Before c := by
  unfold Before at *
  simp only [UInt32.lt_iff_toNat_lt, ← UInt32.toNat_inj] at *
  omega

theorem Written.Before.asymm {a b : Written} (h : a.Before b) : ¬ b.Before a := by
  unfold Before at *
  simp only [UInt32.lt_iff_toNat_lt, ← UInt32.toNat_inj] at *
  omega

/-! ### Reading texts -/

namespace StyleSheet

theorem registry_parse (s : StyleSheet) (source : ByteSource) :
    (s.parse source).2.registry = s.registry := by
  unfold parse
  split <;> rfl

/-- A text that is read adds its rules; one that is refused adds none. -/
theorem rules_parse (s : StyleSheet) (source : ByteSource) :
    (s.parse source).2.rules =
      (rulesOf s.registry source).foldl (fun rules rule => insertRule rule rules) s.rules := by
  unfold parse rulesOf
  cases Sheet.parse source with
  | error e => rfl
  | ok content => simp only [add, List.flatMap_map]

/-- What a stylesheet becomes does not depend on what it remembers. -/
theorem forget_parse (s : StyleSheet) (source : ByteSource) :
    (s.parse source).2.forget = (s.forget.parse source).2.forget := by
  unfold parse
  split <;> rfl

theorem MadeBy.parse {s : StyleSheet} {h : History} (hs : s.MadeBy h) (source : ByteSource) :
    (s.parse source).2.MadeBy { h with sources := h.sources ++ [source] } := by
  unfold MadeBy at *
  rw [forget_parse, hs, ← forget_parse]
  unfold History.sheet
  rw [List.foldl_append]
  rfl

theorem MadeBy.rules_eq {s : StyleSheet} {h : History} (hs : s.MadeBy h) :
    s.rules = h.sheet.rules := by
  show s.forget.rules = h.sheet.forget.rules
  rw [show s.forget = h.sheet.forget from hs]

/-- A rule is put somewhere between the others. -/
theorem exists_split_insertRule (rule : Selector) : ∀ rules : List Selector,
    ∃ before after, rules = before ++ after ∧ insertRule rule rules = before ++ rule :: after
  | [] => ⟨[], [], rfl, rfl⟩
  | first :: rest => by
    by_cases h : first.score ≤ rule.score
    · obtain ⟨before, after, hrest, hplaced⟩ := exists_split_insertRule rule rest
      refine ⟨first :: before, after, by rw [hrest, List.cons_append], ?_⟩
      rw [insertRule, if_pos h, hplaced, List.cons_append]
    · exact ⟨[], first :: rest, rfl, if_neg h⟩

theorem mem_foldl_insertRule {a : Selector} : ∀ new rules : List Selector,
    a ∈ new.foldl (fun rules rule => insertRule rule rules) rules ↔ a ∈ rules ∨ a ∈ new
  | [], rules => by simp
  | rule :: new, rules => by
    obtain ⟨before, after, hrules, hplaced⟩ := exists_split_insertRule rule rules
    rw [List.foldl_cons, mem_foldl_insertRule new, hplaced, hrules]
    simp only [List.mem_append, List.mem_cons, or_assoc, or_left_comm (b := a = rule)]

end StyleSheet

theorem rules_foldl_parse : ∀ (sources : List ByteSource) (s : StyleSheet),
    (sources.foldl (fun s source => (s.parse source).2) s).rules =
      (sources.flatMap (rulesOf s.registry)).foldl
        (fun rules rule => StyleSheet.insertRule rule rules) s.rules
  | [], s => rfl
  | source :: sources, s => by
    rw [List.foldl_cons, rules_foldl_parse sources, s.registry_parse, s.rules_parse,
      List.flatMap_cons, List.foldl_append]

/-- The rules of a stylesheet are those written, each put in its place. -/
theorem History.rules_sheet (h : History) :
    h.sheet.rules = h.written.foldl (fun rules rule => StyleSheet.insertRule rule rules) [] :=
  rules_foldl_parse h.sources (.new h.registry)

/-! ### The order -/

/-- A rule is put in its place among rules of its stylesheet that were written
before it. -/
theorem exists_insertRule (a : Written) : ∀ rules : List Written,
    (∀ b ∈ rules, b.sheet = a.sheet ∧ b.order < a.order) → rules.Pairwise Written.Before →
    ∃ rules' : List Written,
      rules'.map (·.rule) = StyleSheet.insertRule a.rule (rules.map (·.rule)) ∧
        rules'.Perm (a :: rules) ∧ rules'.Pairwise Written.Before
  | [], _, _ => ⟨[a], rfl, List.Perm.refl _, List.pairwise_singleton _ _⟩
  | b :: rules, hb, hp => by
    obtain ⟨hfirst, hrest⟩ := List.pairwise_cons.1 hp
    obtain ⟨hsheet, horder⟩ := hb b List.mem_cons_self
    by_cases hs : b.rule.score ≤ a.rule.score
    · obtain ⟨rules', hmap, hperm, hasc⟩ :=
        exists_insertRule a rules (fun c hc => hb c (List.mem_cons_of_mem _ hc)) hrest
      refine ⟨b :: rules', ?_, ?_, List.pairwise_cons.2 ⟨fun c hc => ?_, hasc⟩⟩
      · simp only [List.map_cons, StyleSheet.insertRule, hs, if_true, hmap]
      · exact (hperm.cons b).trans (List.Perm.swap a b rules)
      · rcases List.mem_cons.1 (hperm.mem_iff.1 hc) with rfl | hc
        · unfold Written.Before
          simp only [UInt32.le_iff_toNat_le, UInt32.lt_iff_toNat_lt, ← UInt32.toNat_inj] at *
          omega
        · exact hfirst c hc
    · have hab : a.Before b := Or.inr ⟨hsheet.symm, Or.inl (UInt32.not_le.1 hs)⟩
      refine ⟨a :: b :: rules, ?_, List.Perm.refl _, List.pairwise_cons.2 ⟨fun c hc => ?_, hp⟩⟩
      · simp only [List.map_cons, StyleSheet.insertRule, hs, if_false]
      · rcases List.mem_cons.1 hc with rfl | hc
        · exact hab
        · exact hab.trans (hfirst c hc)

/-- Rules written one after another are put in their places. -/
theorem exists_foldl_insertRule (sheet : Nat) : ∀ (new : List Selector) (n : Nat)
    (rules : List Written), (∀ b ∈ rules, b.sheet = sheet ∧ b.order < n) →
    rules.Pairwise Written.Before →
    ∃ rules' : List Written,
      rules'.map (·.rule) =
          new.foldl (fun rules rule => StyleSheet.insertRule rule rules) (rules.map (·.rule)) ∧
        rules'.Perm (rules ++ (new.zipIdx n).map fun rule => ⟨sheet, rule.2, rule.1⟩) ∧
        rules'.Pairwise Written.Before
  | [], _, rules, _, hp => ⟨rules, rfl, by simp, hp⟩
  | rule :: new, n, rules, hb, hp => by
    obtain ⟨placed, hmap, hperm, hasc⟩ := exists_insertRule ⟨sheet, n, rule⟩ rules hb hp
    have hb' : ∀ b ∈ placed, b.sheet = sheet ∧ b.order < n + 1 := by
      intro b hmem
      rcases List.mem_cons.1 (hperm.mem_iff.1 hmem) with rfl | hmem
      · exact ⟨rfl, Nat.lt_succ_self n⟩
      · exact ⟨(hb b hmem).1, Nat.lt_succ_of_lt (hb b hmem).2⟩
    obtain ⟨rules', hmap', hperm', hasc'⟩ :=
      exists_foldl_insertRule sheet new (n + 1) placed hb' hasc
    refine ⟨rules', ?_, ?_, hasc'⟩
    · rw [hmap', hmap, List.foldl_cons]
    · rw [List.zipIdx_cons, List.map_cons]
      exact hperm'.trans ((hperm.append_right _).trans List.perm_middle.symm)

/-- The rules of several stylesheets, one stylesheet after the other, are those
written in the order of the cascade. -/
theorem exists_ascending : ∀ (histories : List History) (n : Nat),
    ∃ rules : List Written,
      rules.map (·.rule) = histories.flatMap (·.sheet.rules) ∧
        rules.Perm (writtenFrom n histories) ∧ rules.Pairwise Written.Before ∧
        ∀ a ∈ rules, n ≤ a.sheet
  | [], _ => ⟨[], rfl, List.Perm.refl _, List.Pairwise.nil, by simp⟩
  | h :: histories, n => by
    obtain ⟨first, hmap, hperm, hasc⟩ :=
      exists_foldl_insertRule n h.written 0 [] (by simp) List.Pairwise.nil
    obtain ⟨others, imap, iperm, iasc, ile⟩ := exists_ascending histories (n + 1)
    have hsheet : ∀ a ∈ first, a.sheet = n := by
      intro a ha
      obtain ⟨rule, _, rfl⟩ := List.mem_map.1 (hperm.mem_iff.1 ha)
      rfl
    refine ⟨first ++ others, ?_, ?_, ?_, ?_⟩
    · rw [List.map_append, List.flatMap_cons, imap, hmap, h.rules_sheet]
      rfl
    · rw [writtenFrom, List.zipIdx_cons, List.flatMap_cons]
      exact hperm.append iperm
    · refine List.pairwise_append.2 ⟨hasc, iasc, fun a ha b hb => Or.inl ?_⟩
      rw [hsheet a ha]
      exact ile b hb
    · intro a ha
      rcases List.mem_append.1 ha with ha | ha
      · exact Nat.le_of_eq (hsheet a ha).symm
      · exact Nat.le_of_succ_le (ile a ha)

end RichText
