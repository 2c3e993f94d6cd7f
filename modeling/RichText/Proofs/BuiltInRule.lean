/-
# A stylesheet whose texts do not match

Every stylesheet begins with the built-in rule for `pre`, and so every one of a
set has its own. Where no rule that came of its texts matches a node
(`History.Silent`), a stylesheet says what this rule says: nothing, or at a
`pre` that its blanks are kept (`StyleSheet.MadeBy.compute_of_silent`). Put
above the stylesheets of a set, it therefore leaves the style of a node alone,
except that a `pre` keeps its blanks again, whatever the stylesheets below it
say (`World.Reached.push_silent`).

Key definitions: `StyleTree.isPre`, `History.Silent`.
Key theorems: `StyleSheet.MadeBy.compute_of_silent`, `SheetSet.compute_push`,
`World.Reached.push_silent`.
-/
import RichText.Proofs.Atomicity
import RichText.Proofs.CascadeOrder

namespace RichText

/-- The nearest key from a node upward is that of a `pre`. -/
def StyleTree.isPre (t : StyleTree) (node : Nat) : Bool :=
  (t.keysAbove node).head?.any (·.element == "pre")

/-- No rule that came of the texts matches a node. -/
def History.Silent (h : History) (t : StyleTree) (node : Nat) : Prop :=
  ∀ rule ∈ h.sources.flatMap (rulesOf h.registry), rule.fits t node = false

instance (h : History) (t : StyleTree) (node : Nat) : Decidable (h.Silent t node) :=
  inferInstanceAs (Decidable (∀ rule ∈ h.sources.flatMap (rulesOf h.registry), _))

variable {t : StyleTree} {node : Nat}

namespace StyleSheet

/-! ### The built-in rule -/

theorem fits_preRule (r : Registry) : (preRule r).fits t node = t.isPre node := by
  show matchesKeys [{ element := some "pre" }] (t.keysAbove node) = _
  unfold StyleTree.isPre
  cases t.keysAbove node with
  | nil => rfl
  | cons k keys => simp [matchesKeys, climb, Link.fits, BEq.comm (a := k.element)]

/-- The built-in rule keeps blanks and says nothing else. -/
theorem get?_preStyle (r : Registry) (i : Nat) :
    (preStyle r).get? i = if i = Standard.preformatted then some (.flag true) else none := by
  obtain ⟨s, hs⟩ : ∃ s, Style.empty.put r Standard.preformatted (.flag true) = .ok s :=
    ⟨_, Style.put_of_check (Registry.check_standard rfl rfl r) _⟩
  have hstyle : preStyle r = s := by rw [preStyle, hs]; rfl
  rw [hstyle, Style.get?_put hs, Style.get?_empty]

/-! ### A stylesheet alone -/

/-- Rules that do not match leave those that match as they are. -/
theorem filter_foldl_insertRule {p : Selector → Bool} : ∀ {new : List Selector},
    (∀ rule ∈ new, p rule = false) → ∀ rules : List Selector,
    (new.foldl (fun rules rule => insertRule rule rules) rules).filter p = rules.filter p
  | [], _, rules => rfl
  | rule :: new, h, rules => by
    obtain ⟨hrule, hnew⟩ := List.forall_mem_cons.1 h
    obtain ⟨before, after, hrules, hplaced⟩ := exists_split_insertRule rule rules
    rw [List.foldl_cons, filter_foldl_insertRule hnew, hplaced, hrules, List.filter_append,
      List.filter_append, List.filter_cons_of_neg (by simp [hrule])]

theorem MadeBy.preRule_mem {s : StyleSheet} {h : History} (hs : s.MadeBy h) :
    preRule h.registry ∈ s.rules := by
  rw [hs.rules_eq, h.rules_sheet, mem_foldl_insertRule]
  exact .inr List.mem_cons_self

/-- A stylesheet whose texts do not match says what the built-in rule says. -/
theorem MadeBy.compute_of_silent {s : StyleSheet} {h : History} (hs : s.MadeBy h)
    (hsilent : h.Silent t node) :
    s.compute t node = if t.isPre node then some (preStyle h.registry) else none := by
  have hmatching : s.matching t node = [preRule h.registry].filter (·.fits t node) := by
    rw [← filter_foldl_insertRule hsilent [preRule h.registry]]
    show s.rules.filter _ = _
    rw [hs.rules_eq, h.rules_sheet]
    rfl
  rw [compute, hmatching, List.filter_cons, fits_preRule]
  cases t.isPre node <;> rfl

end StyleSheet

/-! ### In a set -/

namespace SheetSet

theorem compute_push_of_none (set : SheetSet) {s : StyleSheet} (h : s.compute t node = none) :
    (set.push s).compute t node = set.compute t node := by
  have hlast : [s].filterMap (·.compute t node) = [] := by simp [h]
  rw [compute, push, List.filterMap_append, hlast, List.append_nil, compute]

/-- The stylesheet that was put above the others prevails. -/
theorem bind_compute_push (set : SheetSet) (s : StyleSheet) (i : Nat) :
    ((set.push s).compute t node).bind (·.get? i) =
      ((s.compute t node).bind (·.get? i)).or ((set.compute t node).bind (·.get? i)) := by
  rw [bind_compute, push, List.flatMap_append, lastValue_append, ← bind_compute,
    List.flatMap_singleton, ← s.bind_compute]

/-- Every stylesheet of a set has a rule for a `pre`. -/
theorem exists_compute_eq_some {set : SheetSet} {s : StyleSheet} (hs : s ∈ set.sheets)
    {history : History} (hmade : s.MadeBy history) (hpre : t.isPre node = true) :
    ∃ style, set.compute t node = some style := by
  refine Option.ne_none_iff_exists'.1 fun hnone => ?_
  have hfits := set.compute_eq_none_iff.1 hnone _ (List.mem_flatMap.2 ⟨s, hs, hmade.preRule_mem⟩)
  rw [StyleSheet.fits_preRule, hpre] at hfits
  contradiction

/-- To put a stylesheet whose texts do not match above others makes a `pre` keep
its blanks, and does nothing else. -/
theorem compute_push_of_silent {trees : List StyleTree} {set : SheetSet} (h : set.Sound trees)
    (hne : set.sheets ≠ []) {s : StyleSheet} {history : History} (hmade : s.MadeBy history)
    (hsilent : history.Silent t node) :
    if t.isPre node then
      ∃ before after, set.compute t node = some before ∧
        (set.push s).compute t node = some after ∧
        ∀ i, after.get? i =
          if i = Standard.preformatted then some (.flag true) else before.get? i
    else (set.push s).compute t node = set.compute t node := by
  have hs := hmade.compute_of_silent hsilent
  split
  · next hpre =>
    obtain ⟨below, hbelow⟩ := List.exists_mem_of_ne_nil _ hne
    obtain ⟨texts, hmade'⟩ := (h.sheets below hbelow).made
    obtain ⟨before, hbefore⟩ := exists_compute_eq_some hbelow hmade' hpre
    have habove : s ∈ (set.push s).sheets := List.mem_append_right _ List.mem_cons_self
    obtain ⟨after, hafter⟩ := exists_compute_eq_some habove hmade hpre
    refine ⟨before, after, hbefore, hafter, fun i => ?_⟩
    have hvalue : ((set.push s).compute t node).bind (·.get? i) = _ := set.bind_compute_push s i
    rw [hs, if_pos hpre, hbefore, hafter, Option.bind_some, Option.bind_some, Option.bind_some,
      StyleSheet.get?_preStyle] at hvalue
    rw [hvalue]
    split <;> rfl
  · next hpre =>
    rw [if_neg hpre] at hs
    exact set.compute_push_of_none hs

end SheetSet

namespace World

/-- **A stylesheet overrides with the rules it was given, and with the built-in
one.** In every world that can be reached, a stylesheet is made by texts; and
where these have no rule for a node, to put it above the stylesheets of a set
keeps the answer for the node, but for the blanks of a `pre`. -/
theorem Reached.push_silent {w : World} (hw : w.Reached) {t : StyleTree} (ht : t ∈ w.trees)
    {node : Nat} (hn : node < t.size) {p q : Place} {set : SheetSet} {s : StyleSheet}
    (hset : w.resolver? p = some (.set set)) (hs : w.resolver? q = some (.sheet s))
    (hne : set.sheets ≠ []) :
    (∃ history, s.MadeBy history) ∧
      ∀ history, s.MadeBy history → history.Silent t node →
        if t.isPre node then
          ∃ before after, (set.resolve t node).1 = some before ∧
            ((set.push s).resolve t node).1 = some after ∧
            ∀ i, after.get? i =
              if i = Standard.preformatted then some (.flag true) else before.get? i
        else ((set.push s).resolve t node).1 = (set.resolve t node).1 := by
  have hbelow : set.Sound w.trees := hw.sound.resolver? hset
  have habove : s.Sound w.trees := hw.sound.resolver? hs
  refine ⟨habove.made, fun history hmade hsilent => ?_⟩
  rw [(hbelow.resolve hw.sound.distinct ht hn).1,
    ((hbelow.push habove).resolve hw.sound.distinct ht hn).1]
  exact SheetSet.compute_push_of_silent hbelow hne hmade hsilent

/-- A `pre` with emphasized text in it. -/
def emphasizedPre : StyleTree :=
  ((StyleTree.empty 1 .standard).push none (some (.of "pre" none none)) .empty).push (some 0)
    (some (.of "em" none none)) .empty

/-- A text by which a `pre` does not keep its blanks. -/
def collapsingTexts : History :=
  ⟨.standard, [.ofString "pre \x7b white-space: normal; tab-size: 3 \x7d"]⟩

def collapsingSet : SheetSet := SheetSet.push {} collapsingTexts.sheet

/-- A set with that text, and a stylesheet that has no rule for a `pre` but the
built-in one. -/
def collapsing : World :=
  { trees := [emphasizedPre], resolvers := [.absent, .sheet upperTexts.sheet, .set collapsingSet] }

theorem reached_collapsing : collapsing.Reached := by
  have h1 : Reached { trees := [emphasizedPre] } := .step .start (.enter emphasizedPre (by simp))
  have h2 := (h1.step (.newSheet .standard)).step
    (.parse (i := 0) rfl (.ofString "pre \x7b white-space: normal; tab-size: 3 \x7d"))
  have h3 := (h2.step (.newSheet .standard)).step
    (.parse (i := 1) rfl (.ofString "p \x7b clear: both \x7d"))
  have h4 := h3.step (.parse (i := 1) rfl (.ofString "p \x7b tab-size"))
  exact (h4.step .newSet).step (.move (i := 0) (j := 2) rfl rfl List.not_mem_nil)

theorem push_silent_collapsing :
    ((collapsingSet.push upperTexts.sheet).resolve emphasizedPre 1).1 =
        (collapsingSet.resolve emphasizedPre 1).1 ∧
      ∃ after, ((collapsingSet.push upperTexts.sheet).resolve emphasizedPre 0).1 = some after ∧
        after.get? Standard.preformatted = some (.flag true) ∧
        after.get? Standard.tabSize = some (.integer 3) := by
  have htree : emphasizedPre ∈ collapsing.trees := List.mem_cons_self
  have hset : collapsing.resolver? (.own 2) = some (.set collapsingSet) := rfl
  have hsheet : collapsing.resolver? (.own 1) = some (.sheet upperTexts.sheet) := rfl
  have hne : collapsingSet.sheets ≠ [] := List.cons_ne_nil _ _
  have hpre : 0 < emphasizedPre.size := by decide
  have hem : 1 < emphasizedPre.size := by decide
  have hinPre := (reached_collapsing.push_silent htree hpre hset hsheet hne).2 upperTexts rfl
    (by decide +kernel)
  have hinEm := (reached_collapsing.push_silent htree hem hset hsheet hne).2 upperTexts rfl
    (by decide +kernel)
  rw [if_pos (by decide +kernel)] at hinPre
  rw [if_neg (by decide +kernel)] at hinEm
  obtain ⟨before, after, hbefore, hafter, hvalues⟩ := hinPre
  have hsound : collapsingSet.Sound collapsing.trees := reached_collapsing.sound.resolver? hset
  rw [(hsound.resolve reached_collapsing.sound.distinct htree hpre).1] at hbefore
  have htab : (collapsingSet.compute emphasizedPre 0).bind (·.get? Standard.tabSize) =
      some (.integer 3) := by decide +kernel
  rw [hbefore, Option.bind_some] at htab
  exact ⟨hinEm, after, hafter, hvalues _, (hvalues _).trans htab⟩

/-- The built-in rule of a stylesheet above others undoes what these say of a
`pre`, though none of the texts of that stylesheet does. -/
theorem built_in_rule_overrides :
    collapsing.Reached ∧ emphasizedPre ∈ collapsing.trees ∧ 0 < emphasizedPre.size ∧
      collapsing.resolver? (.own 2) = some (.set collapsingSet) ∧
      collapsing.resolver? (.own 1) = some (.sheet upperTexts.sheet) ∧
      collapsingSet.sheets ≠ [] ∧ upperTexts.sheet.MadeBy upperTexts ∧
      upperTexts.Silent emphasizedPre 0 ∧
      (collapsingSet.resolve emphasizedPre 0).1.bind (·.get? Standard.preformatted) =
        some (.flag false) ∧
      ((collapsingSet.push upperTexts.sheet).resolve emphasizedPre 0).1.bind
        (·.get? Standard.preformatted) = some (.flag true) := by
  have hd := reached_collapsing.sound.distinct
  have htree : emphasizedPre ∈ collapsing.trees := List.mem_cons_self
  have hset : collapsing.resolver? (.own 2) = some (.set collapsingSet) := rfl
  have hsheet : collapsing.resolver? (.own 1) = some (.sheet upperTexts.sheet) := rfl
  have hbelow : collapsingSet.Sound collapsing.trees := reached_collapsing.sound.resolver? hset
  have habove : upperTexts.sheet.Sound collapsing.trees := reached_collapsing.sound.resolver? hsheet
  refine ⟨reached_collapsing, htree, by decide, hset, hsheet, List.cons_ne_nil _ _, rfl,
    by decide +kernel, ?_, ?_⟩
  · rw [(hbelow.resolve hd htree (by decide)).1]
    decide +kernel
  · rw [((hbelow.push habove).resolve hd htree (by decide)).1]
    decide +kernel

end World

end RichText
