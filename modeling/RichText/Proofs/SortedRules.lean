/-
# The rules of a stylesheet are sorted, whatever it is asked

A stylesheet is given texts, and in between it is asked for the styles of nodes
and told that layouts begin and end. Whatever the order of these requests, the
rules it holds are all that were written, sorted by score with a stable sort
(`rule_order`): the rules of one text after the other are put in their places one
by one, and a list in the order of the cascade is settled by what is in it
(`insertAll_eq_mergeSort`). So to put new rules in their places comes to the same as
to add them at the end and to sort all of them anew (`insertAll_of_sorted`).

A text behind another adds what the two add one after the other
(`rulesOf_append`); places are all that differs, and no rule keeps a place.

Key definitions: `StyleSheet.Request`, `StyleSheet.serveAll`, `inOrder`,
`atRulesOf`, `StyleSheet.Accepts`.
Key theorems: `insertAll_eq_mergeSort`, `insertAll_of_sorted`, `rulesOf_append`,
`rule_order`.
-/
import RichText.Proofs.Composition
import RichText.Proofs.RuleOrder

namespace RichText

/-! ### A stable sort -/

/-- Rules sorted by score. -/
def inOrder (a b : Selector) : Bool := decide (a.score ≤ b.score)

theorem inOrder_trans (a b c : Selector) (hab : inOrder a b = true) (hbc : inOrder b c = true) :
    inOrder a c = true := by
  simp only [inOrder, decide_eq_true_eq] at *
  exact UInt32.le_trans hab hbc

theorem inOrder_total (a b : Selector) : (inOrder a b || inOrder b a) = true := by
  simp only [inOrder, Bool.or_eq_true, decide_eq_true_eq]
  exact UInt32.le_total _ _

/-- Of two rules of one stylesheet, numbered as they were written, the one that a
stable sort puts first comes first in the cascade. -/
theorem before_of_zipIdxLE {a b : Selector × Nat} (h : List.zipIdxLE inOrder a b = true)
    (hne : a.2 ≠ b.2) (sheet : Nat) :
    Written.Before ⟨sheet, a.2, a.1⟩ ⟨sheet, b.2, b.1⟩ := by
  refine Or.inr ⟨rfl, ?_⟩
  unfold List.zipIdxLE inOrder at h
  simp only [UInt32.le_iff_toNat_le, UInt32.lt_iff_toNat_lt, ← UInt32.toNat_inj] at *
  by_cases hab : a.1.score.toNat ≤ b.1.score.toNat
  · by_cases hba : b.1.score.toNat ≤ a.1.score.toNat
    · simp only [hab, hba, decide_true, if_true, decide_eq_true_eq] at h
      omega
    · omega
  · simp [hab] at h

/-- A stable sort of numbered rules is in the order of the cascade. -/
theorem pairwise_before_mergeSort (rules : List Selector) :
    ((rules.zipIdx.mergeSort (List.zipIdxLE inOrder)).map fun rule =>
      (⟨0, rule.2, rule.1⟩ : Written)).Pairwise Written.Before := by
  have hperm := List.mergeSort_perm rules.zipIdx (List.zipIdxLE inOrder)
  have hsorted := List.pairwise_mergeSort (List.zipIdxLE_trans inOrder_trans)
    (List.zipIdxLE_total inOrder_total) rules.zipIdx
  have hnumbers : (rules.zipIdx.map Prod.snd).Nodup := by
    rw [List.zipIdx_map_snd]
    exact List.nodup_range'
  have hdistinct := List.pairwise_map.1 ((hperm.map Prod.snd).nodup_iff.2 hnumbers)
  rw [List.pairwise_map]
  exact (hsorted.and hdistinct).imp fun ⟨hle, hne⟩ => before_of_zipIdxLE hle hne 0

/-- Rules put in their places one after another are sorted, and those of one score
stay as they were written. -/
theorem insertAll_eq_mergeSort (rules : List Selector) :
    rules.foldl (fun rules rule => StyleSheet.insertRule rule rules) [] =
      rules.mergeSort inOrder := by
  obtain ⟨placed, hmap, hperm, hasc⟩ :=
    exists_foldl_insertRule 0 rules 0 [] (by simp) List.Pairwise.nil
  have hsame := (List.mergeSort_perm rules.zipIdx (List.zipIdxLE inOrder)).map
    fun rule => (⟨0, rule.2, rule.1⟩ : Written)
  have heq := (hperm.trans hsame.symm).eq_of_pairwise
    (fun a b _ _ hab hba => absurd hba hab.asymm) hasc (pairwise_before_mergeSort rules)
  calc rules.foldl (fun rules rule => StyleSheet.insertRule rule rules) []
      = placed.map (·.rule) := hmap.symm
    _ = (rules.zipIdx.mergeSort (List.zipIdxLE inOrder)).map (·.1) := by rw [heq, List.map_map]; rfl
    _ = rules.mergeSort inOrder := List.mergeSort_zipIdx

/-- New rules put one after another in their places among rules that are sorted are
as if all were sorted anew with the new ones at the end. -/
theorem insertAll_of_sorted {rules : List Selector}
    (h : rules.Pairwise fun a b => inOrder a b = true) (new : List Selector) :
    new.foldl (fun rules rule => StyleSheet.insertRule rule rules) rules =
      (rules ++ new).mergeSort inOrder := by
  have hrules : rules.foldl (fun rules rule => StyleSheet.insertRule rule rules) [] = rules := by
    rw [insertAll_eq_mergeSort, List.mergeSort_of_pairwise h]
  rw [← insertAll_eq_mergeSort, List.foldl_append, hrules]

/-! ### Two texts and one -/

/-- The at-rules that a text adds. -/
def atRulesOf (source : ByteSource) : List Sheet.AtRule :=
  match Sheet.parse source with
  | .ok content => content.atRules
  | .error _ => []

/-- No rule keeps the lines of its declarations. -/
theorem selectorsOf_moved (r : Registry) (a : List Char) (rule : Sheet.Rule) :
    StyleSheet.selectorsOf r { rule with declarations := rule.declarations.map (·.moved a) } =
      StyleSheet.selectorsOf r rule := by
  unfold StyleSheet.selectorsOf StyleSheet.blockStyle
  simp only [List.foldl_map]
  rfl

/-- A text behind another adds its rules behind those of the other. -/
theorem rulesOf_append (r : Registry) {a b : String} {content content' : Sheet.Content}
    (ha : Sheet.parseString a = .ok content) (hb : Sheet.parseString b = .ok content') :
    rulesOf r (.ofString (a ++ b)) = rulesOf r (.ofString a) ++ rulesOf r (.ofString b) := by
  have hab : Sheet.parse (.ofString (a ++ b)) = .ok (content.join (content'.moved a.toList)) := by
    have := Sheet.parseString_append (b := b) ha
    rw [hb] at this
    exact this
  have hrules : ∀ rules : List Sheet.Rule,
      (rules.map fun rule =>
          ({ rule with declarations := rule.declarations.map (·.moved a.toList) } :
            Sheet.Rule)).flatMap (fun rule => (StyleSheet.selectorsOf r rule).2) =
        rules.flatMap fun rule => (StyleSheet.selectorsOf r rule).2 := by
    intro rules
    rw [List.flatMap_map]
    simp only [selectorsOf_moved]
  unfold rulesOf
  rw [hab, show Sheet.parse (.ofString a) = _ from ha, show Sheet.parse (.ofString b) = _ from hb]
  simp only [Sheet.Content.join, Sheet.Content.moved, List.flatMap_append, hrules]

namespace StyleSheet

/-- The text can be read. -/
def Accepts (s : StyleSheet) (source : ByteSource) : Prop := ∃ refused, (s.parse source).1 = .ok refused

theorem accepts_iff {s : StyleSheet} {source : ByteSource} :
    s.Accepts source ↔ ∃ content, Sheet.parse source = .ok content := by
  unfold Accepts parse
  cases Sheet.parse source <;> simp

/-- A text that is refused changes nothing. -/
theorem parse_of_error {s : StyleSheet} {source : ByteSource} {e : StyleError}
    (h : (s.parse source).1 = .error e) : (s.parse source).2 = s := by
  unfold parse at h ⊢
  split at h
  · rfl
  · nomatch h

theorem atRules_parse (s : StyleSheet) (source : ByteSource) :
    (s.parse source).2.atRules = s.atRules ++ atRulesOf source := by
  unfold parse atRulesOf
  cases Sheet.parse source with
  | error e => exact (List.append_nil _).symm
  | ok content => rfl

/-- The rules of a text are added at the end, and all are sorted anew. -/
theorem rules_add {s : StyleSheet} (h : s.rules.Pairwise fun a b => inOrder a b = true)
    (content : Sheet.Content) :
    (s.add content).2.rules =
      (s.rules ++ content.rules.flatMap fun rule => (selectorsOf s.registry rule).2).mergeSort
        inOrder := by
  simp only [add, List.flatMap_map]
  exact insertAll_of_sorted h _

/-- Two texts that can be read give the same rules in one go as one after the
other, and can be read in one go. -/
theorem rules_parse_append (s : StyleSheet) {a b : String} (ha : s.Accepts (.ofString a)) :
    (s.Accepts (.ofString b) ↔ s.Accepts (.ofString (a ++ b))) ∧
      (s.Accepts (.ofString b) →
        ((s.parseString a).2.parseString b).2.rules = (s.parseString (a ++ b)).2.rules) := by
  obtain ⟨content, ha⟩ := accepts_iff.1 ha
  refine ⟨?_, fun hb => ?_⟩
  · rw [accepts_iff, accepts_iff]
    exact (Sheet.composition ha).1.symm
  · obtain ⟨content', hb⟩ := accepts_iff.1 hb
    unfold parseString
    rw [rules_parse, rules_parse, rules_parse, registry_parse, rulesOf_append _ ha hb,
      List.foldl_append]

/-! ### Requests -/

/-- What one stylesheet is asked to do. -/
inductive Request where
  | parse (source : ByteSource)
  | resolve (t : StyleTree) (node : Nat)
  /-- A layout begins or ends. -/
  | forget

/-- The text of a request. -/
def Request.source? : Request → Option ByteSource
  | parse source => some source
  | _ => none

/-- The stylesheet behind a request. -/
def serve (s : StyleSheet) : Request → StyleSheet
  | .parse source => (s.parse source).2
  | .resolve t node => (s.resolve t node).2
  | .forget => s.forget

/-- The stylesheet behind requests. -/
def serveAll (s : StyleSheet) (requests : List Request) : StyleSheet := requests.foldl serve s

theorem resolve_snd (s : StyleSheet) (t : StyleTree) (node : Nat) :
    ∃ cache, (s.resolve t node).2 = { s with cache } := by
  unfold resolve
  split <;> exact ⟨_, rfl⟩

/-- A request adds the rules and the at-rules of its text, and nothing else. -/
theorem rules_serve (s : StyleSheet) (request : Request) :
    (s.serve request).registry = s.registry ∧
      (s.serve request).rules =
        (request.source?.toList.flatMap (rulesOf s.registry)).foldl
          (fun rules rule => insertRule rule rules) s.rules ∧
      (s.serve request).atRules = s.atRules ++ request.source?.toList.flatMap atRulesOf := by
  cases request with
  | parse source =>
    refine ⟨s.registry_parse source, ?_, ?_⟩
    · simpa [serve, Request.source?] using s.rules_parse source
    · simpa [serve, Request.source?] using s.atRules_parse source
  | resolve t node =>
    obtain ⟨cache, hcache⟩ := s.resolve_snd t node
    simp [serve, hcache, Request.source?]
  | forget => simp [serve, StyleSheet.forget, Request.source?]

theorem rules_serveAll : ∀ (requests : List Request) (s : StyleSheet),
    (s.serveAll requests).rules =
        ((requests.filterMap Request.source?).flatMap (rulesOf s.registry)).foldl
          (fun rules rule => insertRule rule rules) s.rules ∧
      (s.serveAll requests).atRules =
        s.atRules ++ (requests.filterMap Request.source?).flatMap atRulesOf
  | [], s => ⟨rfl, (List.append_nil _).symm⟩
  | request :: requests, s => by
    obtain ⟨hregistry, hrules, hatRules⟩ := s.rules_serve request
    obtain ⟨ih, ihAt⟩ := rules_serveAll requests (s.serve request)
    have hsources : (request :: requests).filterMap Request.source? =
        request.source?.toList ++ requests.filterMap Request.source? := by
      cases h : request.source? <;> simp [h]
    rw [hsources, List.flatMap_append, List.flatMap_append, List.foldl_append, ← hrules,
      ← List.append_assoc, ← hatRules, ← hregistry]
    exact ⟨ih, ihAt⟩

/-- **Rule order.** Behind any requests, a stylesheet holds the built-in rule and
the rules of all texts that could be read, sorted by score with a stable sort, and
the at-rules of these texts as they were written. The next text adds its rules at
the end, and all are sorted anew. A text that is refused changes nothing, not even
what is remembered; and two texts give the same rules in one go. -/
theorem rule_order (registry : Registry) (requests : List Request) :
    let s := (new registry).serveAll requests
    let history : History := ⟨registry, requests.filterMap Request.source?⟩
    s.rules = history.written.mergeSort inOrder ∧
      s.rules.Perm history.written ∧
      (∀ content, (s.add content).2.rules =
        (s.rules ++ content.rules.flatMap fun rule => (selectorsOf s.registry rule).2).mergeSort
          inOrder) ∧
      s.atRules = history.sources.flatMap atRulesOf ∧
      (∀ source e, (s.parse source).1 = .error e → (s.parse source).2 = s) ∧
      ∀ a b : String, s.Accepts (.ofString a) →
        (s.Accepts (.ofString b) ↔ s.Accepts (.ofString (a ++ b))) ∧
          (s.Accepts (.ofString b) →
            ((s.parseString a).2.parseString b).2.rules = (s.parseString (a ++ b)).2.rules) := by
  intro s history
  obtain ⟨hrules, hatRules⟩ := rules_serveAll requests (new registry)
  have hsorted : s.rules = history.written.mergeSort inOrder :=
    hrules.trans (insertAll_eq_mergeSort history.written)
  have hpairwise : s.rules.Pairwise fun a b => inOrder a b = true := by
    rw [hsorted]
    exact List.pairwise_mergeSort inOrder_trans inOrder_total _
  refine ⟨hsorted, ?_, rules_add hpairwise, hatRules, fun _ _ => parse_of_error,
    fun _ _ => s.rules_parse_append⟩
  rw [hsorted]
  exact List.mergeSort_perm _ _

/-- A stylesheet that remembers what it said of a paragraph. -/
def asked : List Request :=
  [.parse (.ofString ".b \x7b\x7d p \x7b\x7d"),
    .resolve ((StyleTree.empty 1 .standard).push none (some (.of "p" none none)) .empty) 0]

theorem rule_order_asked :
    let s := (new .standard).serveAll asked
    (∃ e, (s.parse (.ofString "p \x7b")).1 = .error e ∧ (s.parse (.ofString "p \x7b")).2 = s) ∧
      s.Accepts (.ofString "p \x7b\x7d") ∧ s.Accepts (.ofString "b, #i \x7b\x7d") ∧
      ((s.parseString "p \x7b\x7d").2.parseString "b, #i \x7b\x7d").2.rules =
        (s.parseString ("p \x7b\x7d" ++ "b, #i \x7b\x7d")).2.rules := by
  intro s
  have law := rule_order .standard asked
  have hrefused : ∃ e, (s.parse (.ofString "p \x7b")).1 = .error e := by
    have hnone : (Sheet.parse (.ofString "p \x7b")).toOption = none := by decide +kernel
    unfold parse
    cases h : Sheet.parse (.ofString "p \x7b") with
    | ok content => simp [h, Except.toOption] at hnone
    | error e => exact ⟨_, rfl⟩
  have ha : s.Accepts (.ofString "p \x7b\x7d") :=
    accepts_iff.2 ⟨⟨[⟨[[{ element := some "p" }]], []⟩], []⟩,
      Sheet.eq_ok_of_toOption (by decide +kernel)⟩
  have hb : s.Accepts (.ofString "b, #i \x7b\x7d") :=
    accepts_iff.2 ⟨⟨[⟨[[{ element := some "b" }], [{ id := some "i" }]], []⟩], []⟩,
      Sheet.eq_ok_of_toOption (by decide +kernel)⟩
  obtain ⟨e, he⟩ := hrefused
  exact ⟨⟨e, he, law.2.2.2.2.1 _ e he⟩, ha, hb, (law.2.2.2.2.2 _ _ ha).2 hb⟩

end StyleSheet

end RichText
