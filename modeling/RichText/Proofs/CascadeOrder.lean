/-
# The last rule that sets a value decides

The style of a node is made in shortcuts: no style if no rule matches, the
style of the rule if one does, styles put over an empty one if several do, and
over those of other stylesheets in a set (`Style.overlay`). All come to one law
(`Decides`): of the rules that match the node and set an ordinal, the last one
decides, in the order by stylesheet, then score, then as written. For styles put
over one another that is `Style.bind_overlay`; that the rules stand in this order
is `exists_ascending`.

Key definitions: `Style.overlay`, `lastValue`, `Written.IsLast`, `Decides`,
`SheetSet.MadeBy`.
Key theorems: `StyleSheet.compute_eq`, `SheetSet.mergeAll_eq`,
`SheetSet.bind_compute`, `decides_of_lastValue`, `decides_of_rules`,
`World.Reached.cascade_order`.
-/
import RichText.Proofs.Cache

namespace RichText

variable {t : StyleTree} {node : Nat}

/-! ### Values of styles put over one another -/

namespace Style

/-- Styles put over one another: one alone is taken as it is, and several are put over
an empty style, the first two of them first. -/
def overlay : List Style → Option Style
  | [] => none
  | [only] => some only
  | first :: second :: others =>
    some (others.foldl putAll ((empty.putAll first).putAll second))

/-- A style put over an empty one is the style, with its room. -/
theorem empty_putAll (s : Style) : empty.putAll s = s := by
  obtain ⟨cells⟩ := s
  cases cells with
  | none => rfl
  | some cells =>
    have hcells : (empty.room cells.length).mapIdx (fun i old => (cells[i]?.join).or old) =
        cells := by
      refine List.ext_getElem (by simp [empty, room]) fun i _ hi => ?_
      simp [empty, room, hi]
    simp only [putAll, hcells]

/-- To begin with the first style, whatever follows, comes to the same. -/
theorem some_merge (first : Style) : ∀ others : List Style,
    some (first.merge others) = overlay (first :: others)
  | [] => rfl
  | second :: others => by rw [overlay, empty_putAll, merge, List.foldl_cons]

/-- Of styles put over one another the last that has a value prevails. -/
theorem get?_foldl_putAll (i : Nat) : ∀ (others : List Style) (first : Style),
    (others.foldl putAll first).get? i =
      (others.reverse.findSome? (·.get? i)).or (first.get? i)
  | [], first => rfl
  | s :: others, first => by
    rw [List.foldl_cons, get?_foldl_putAll i others, get?_putAll, List.reverse_cons,
      List.findSome?_append, List.findSome?_singleton, Option.or_assoc]

theorem overlay_eq_none_iff (styles : List Style) : overlay styles = none ↔ styles = [] := by
  cases styles with
  | nil => simp [overlay]
  | cons first others => simp [← some_merge]

theorem bind_overlay (styles : List Style) (i : Nat) :
    (overlay styles).bind (·.get? i) = styles.reverse.findSome? (·.get? i) := by
  cases styles with
  | nil => rfl
  | cons first others =>
    rw [← some_merge, Option.bind_some, merge, get?_foldl_putAll, List.reverse_cons,
      List.findSome?_append, List.findSome?_singleton]

end Style

/-- The value of the last of the rules that match a node and set an ordinal. -/
def lastValue (rules : List Selector) (t : StyleTree) (node i : Nat) : Option Value :=
  (rules.filter (·.fits t node)).reverse.findSome? (·.style.get? i)

theorem lastValue_append (rules rules' : List Selector) (i : Nat) :
    lastValue (rules ++ rules') t node i =
      (lastValue rules' t node i).or (lastValue rules t node i) := by
  unfold lastValue
  rw [List.filter_append, List.reverse_append, List.findSome?_append]

namespace StyleSheet

/-- What a stylesheet computes are the styles of the rules that match, put over one
another. -/
theorem compute_eq (s : StyleSheet) :
    s.compute t node = Style.overlay ((s.rules.filter (·.fits t node)).map (·.style)) := by
  have hmatching : s.matching t node = s.rules.filter (·.fits t node) := rfl
  unfold compute
  rw [hmatching]
  cases s.rules.filter (·.fits t node) with
  | nil => rfl
  | cons rule rules => exact Style.some_merge _ _

theorem compute_eq_none_iff (s : StyleSheet) :
    s.compute t node = none ↔ ∀ rule ∈ s.rules, rule.fits t node = false := by
  rw [compute_eq, Style.overlay_eq_none_iff, List.map_eq_nil_iff, List.filter_eq_nil_iff]
  simp only [Bool.not_eq_true]

/-- What a stylesheet computes has the last values of its rules. -/
theorem bind_compute (s : StyleSheet) (i : Nat) :
    (s.compute t node).bind (·.get? i) = lastValue s.rules t node i := by
  rw [compute_eq, Style.bind_overlay, lastValue, ← List.map_reverse, List.findSome?_map]
  rfl

end StyleSheet

namespace SheetSet

theorem mergeAll_eq : ∀ styles : List Style, mergeAll styles = Style.overlay styles
  | [] => rfl
  | first :: others => Style.some_merge first others

theorem compute_eq_none_iff (set : SheetSet) :
    set.compute t node = none ↔
      ∀ rule ∈ set.sheets.flatMap (·.rules), rule.fits t node = false := by
  unfold compute
  rw [mergeAll_eq, Style.overlay_eq_none_iff, List.filterMap_eq_nil_iff]
  simp only [StyleSheet.compute_eq_none_iff, List.mem_flatMap]
  constructor
  · rintro h rule ⟨s, hs, hrule⟩
    exact h s hs rule hrule
  · intro h s hs rule hrule
    exact h rule ⟨s, hs, hrule⟩

/-- What a set computes has the last values of the rules of its stylesheets, one
stylesheet after the other. -/
theorem bind_compute (set : SheetSet) (i : Nat) :
    (set.compute t node).bind (·.get? i) =
      lastValue (set.sheets.flatMap (·.rules)) t node i := by
  unfold compute
  rw [mergeAll_eq, Style.bind_overlay]
  induction set.sheets with
  | nil => rfl
  | cons s sheets ih =>
    rw [List.flatMap_cons, lastValue_append, ← ih, ← s.bind_compute i, List.filterMap_cons]
    cases s.compute t node with
    | none => simp
    | some style => simp [List.findSome?_append]

end SheetSet

/-! ### The law -/

/-- The rule matches a node and sets an ordinal. -/
def Written.Sets (a : Written) (t : StyleTree) (node i : Nat) : Prop :=
  a.rule.fits t node = true ∧ (a.rule.style.get? i).isSome = true

/-- Of the rules that match a node and set an ordinal, the last one. -/
structure Written.IsLast (a : Written) (rules : List Written) (t : StyleTree) (node i : Nat) :
    Prop where
  mem : a ∈ rules
  sets : a.Sets t node i
  last : ∀ b ∈ rules, b.Sets t node i → b ≠ a → b.Before a

/-- How rules decide the style of a node. -/
structure Decides (rules : List Written) (t : StyleTree) (node : Nat) (answer : Option Style) :
    Prop where
  none_iff : answer = none ↔ ∀ a ∈ rules, a.rule.fits t node = false
  value_iff : ∀ style, answer = some style → ∀ i v,
    style.get? i = some v ↔ ∃ a : Written, a.IsLast rules t node i ∧ a.rule.style.get? i = some v
  unset_iff : ∀ style, answer = some style → ∀ i,
    style.get? i = none ↔ ∀ a ∈ rules, ¬ a.Sets t node i

theorem lastValue_map (rules : List Written) (i : Nat) :
    lastValue (rules.map (·.rule)) t node i =
      (rules.filter (·.rule.fits t node)).reverse.findSome? (·.rule.style.get? i) := by
  unfold lastValue
  rw [List.filter_map, ← List.map_reverse, List.findSome?_map]
  rfl

theorem lastValue_eq_none_iff (rules : List Written) (i : Nat) :
    lastValue (rules.map (·.rule)) t node i = none ↔ ∀ a ∈ rules, ¬ a.Sets t node i := by
  rw [lastValue_map, List.findSome?_eq_none_iff]
  constructor
  · rintro h a ha ⟨hfits, hsome⟩
    have hmem : a ∈ (rules.filter (·.rule.fits t node)).reverse :=
      List.mem_reverse.2 (List.mem_filter.2 ⟨ha, hfits⟩)
    rw [h a hmem] at hsome
    contradiction
  · intro h a ha
    obtain ⟨hmem, hfits⟩ := List.mem_filter.1 (List.mem_reverse.1 ha)
    cases hv : a.rule.style.get? i with
    | none => rfl
    | some v => exact absurd ⟨hfits, by rw [hv]; rfl⟩ (h a hmem)

/-- In ascending order the last rule in the list is the last one. -/
theorem exists_isLast_of_lastValue {rules : List Written} (hasc : rules.Pairwise Written.Before)
    {i : Nat} {v : Value} (h : lastValue (rules.map (·.rule)) t node i = some v) :
    ∃ a : Written, a.IsLast rules t node i ∧ a.rule.style.get? i = some v := by
  rw [lastValue_map, List.findSome?_eq_some_iff] at h
  obtain ⟨after, a, before, hsplit, hv, hnone⟩ := h
  have hlist : rules.filter (·.rule.fits t node) = before.reverse ++ a :: after.reverse := by
    rw [← List.reverse_reverse (rules.filter _), hsplit, List.reverse_append, List.reverse_cons,
      List.append_assoc, List.singleton_append]
  have ha : a ∈ rules.filter (·.rule.fits t node) := by rw [hlist]; simp
  obtain ⟨hmem, hfits⟩ := List.mem_filter.1 ha
  have hasc' := hasc.filter (·.rule.fits t node)
  rw [hlist] at hasc'
  refine ⟨a, ⟨hmem, ⟨hfits, by rw [hv]; rfl⟩, fun b hb hsets hne => ?_⟩, hv⟩
  have hb' : b ∈ rules.filter (·.rule.fits t node) := List.mem_filter.2 ⟨hb, hsets.1⟩
  rw [hlist] at hb'
  rcases List.mem_append.1 hb' with hb' | hb'
  · exact (List.pairwise_append.1 hasc').2.2 b hb' a List.mem_cons_self
  · rcases List.mem_cons.1 hb' with rfl | hb'
    · contradiction
    · have hsome := hsets.2
      rw [hnone b (List.mem_reverse.1 hb')] at hsome
      contradiction

theorem Written.IsLast.eq {rules : List Written} {a b : Written} {i : Nat}
    (ha : a.IsLast rules t node i) (hb : b.IsLast rules t node i) : a = b := by
  refine Classical.byContradiction fun hne => ?_
  exact (ha.last b hb.mem hb.sets (Ne.symm hne)).asymm (hb.last a ha.mem ha.sets hne)

/-- An answer with the last values of the rules in ascending order is the one
that the rules decide, in whatever order they are given. -/
theorem decides_of_lastValue {rules ascending : List Written} (hperm : ascending.Perm rules)
    (hasc : ascending.Pairwise Written.Before) {answer : Option Style}
    (hnone : answer = none ↔ ∀ rule ∈ ascending.map (·.rule), rule.fits t node = false)
    (hval : ∀ i, answer.bind (·.get? i) = lastValue (ascending.map (·.rule)) t node i) :
    Decides rules t node answer := by
  have hlast : ∀ (a : Written) (i : Nat), a.IsLast ascending t node i ↔ a.IsLast rules t node i := by
    intro a i
    constructor
    · rintro ⟨hmem, hsets, hl⟩
      exact ⟨hperm.mem_iff.1 hmem, hsets, fun b hb => hl b (hperm.mem_iff.2 hb)⟩
    · rintro ⟨hmem, hsets, hl⟩
      exact ⟨hperm.mem_iff.2 hmem, hsets, fun b hb => hl b (hperm.mem_iff.1 hb)⟩
  refine ⟨?_, fun style hstyle i v => ?_, fun style hstyle i => ?_⟩
  · rw [hnone]
    simp only [List.mem_map, forall_exists_index, and_imp, forall_apply_eq_imp_iff₂,
      hperm.mem_iff]
  · have hv := hval i
    rw [hstyle, Option.bind_some] at hv
    rw [hv]
    constructor
    · intro h
      obtain ⟨a, ha, hav⟩ := exists_isLast_of_lastValue hasc h
      exact ⟨a, (hlast a i).1 ha, hav⟩
    · rintro ⟨a, ha, hav⟩
      cases hl : lastValue (ascending.map (·.rule)) t node i with
      | none =>
        have := (lastValue_eq_none_iff _ _).1 hl a (hperm.mem_iff.2 ha.mem)
        exact absurd ha.sets this
      | some w =>
        obtain ⟨b, hb, hbw⟩ := exists_isLast_of_lastValue hasc hl
        rw [((hlast b i).1 hb).eq ha, hav] at hbw
        exact hbw.symm
  · have hv := hval i
    rw [hstyle, Option.bind_some] at hv
    rw [hv, lastValue_eq_none_iff]
    simp only [hperm.mem_iff]

/-- The stylesheets of the set are made by the texts, one history for each. -/
def SheetSet.MadeBy (set : SheetSet) (histories : List History) : Prop :=
  set.sheets.map StyleSheet.forget = histories.map (·.sheet.forget)

theorem SheetSet.MadeBy.rules_eq {set : SheetSet} {histories : List History}
    (h : set.MadeBy histories) :
    set.sheets.flatMap (·.rules) = histories.flatMap (·.sheet.rules) := by
  have hrules : ∀ sheets : List StyleSheet,
      sheets.flatMap (·.rules) = (sheets.map StyleSheet.forget).flatMap (·.rules) := by
    intro sheets
    rw [List.flatMap_map]
    rfl
  rw [hrules, show set.sheets.map StyleSheet.forget = _ from h, List.flatMap_map]
  rfl

/-- An answer with the last values of the rules of stylesheets, one stylesheet
after the other, is the one that the texts decide. -/
theorem decides_of_rules {histories : List History} {rules : List Selector}
    (hrules : rules = histories.flatMap (·.sheet.rules)) {answer : Option Style}
    (hnone : answer = none ↔ ∀ rule ∈ rules, rule.fits t node = false)
    (hval : ∀ i, answer.bind (·.get? i) = lastValue rules t node i) :
    Decides (writtenFrom 0 histories) t node answer := by
  obtain ⟨ascending, hmap, hperm, hasc, _⟩ := exists_ascending histories 0
  rw [hrules, ← hmap] at hnone hval
  exact decides_of_lastValue hperm hasc hnone hval

theorem SheetSet.decides_compute {set : SheetSet} {histories : List History}
    (h : set.MadeBy histories) :
    Decides (writtenFrom 0 histories) t node (set.compute t node) :=
  decides_of_rules h.rules_eq set.compute_eq_none_iff set.bind_compute

theorem StyleSheet.decides_compute {s : StyleSheet} {h : History} (hs : s.MadeBy h) :
    Decides (writtenFrom 0 [h]) t node (s.compute t node) := by
  have hrules : s.rules = [h].flatMap (·.sheet.rules) := by rw [List.flatMap_singleton, hs.rules_eq]
  exact decides_of_rules hrules s.compute_eq_none_iff s.bind_compute

theorem exists_madeBy_of_sound {trees : List StyleTree} : ∀ {sheets : List StyleSheet},
    (∀ s ∈ sheets, s.Sound trees) →
    ∃ histories : List History, sheets.map StyleSheet.forget = histories.map (·.sheet.forget)
  | [], _ => ⟨[], rfl⟩
  | s :: sheets, h => by
    obtain ⟨history, hs⟩ := (h s List.mem_cons_self).made
    obtain ⟨histories, hrest⟩ :=
      exists_madeBy_of_sound fun s' hs' => h s' (List.mem_cons_of_mem _ hs')
    exact ⟨history :: histories, by rw [List.map_cons, List.map_cons, hs, hrest]⟩

/-- **Cascade order.** In every world that can be reached, the stylesheets of a
set are made by texts; and whatever texts made them, a node of a tree gets the
style that the rules written in these decide. The same holds of a stylesheet
alone. -/
theorem World.Reached.cascade_order {w : World} (hw : w.Reached) {t : StyleTree} (ht : t ∈ w.trees)
    {node : Nat} (hn : node < t.size) (p : Place) :
    (∀ set, w.resolver? p = some (.set set) → (∃ histories, set.MadeBy histories) ∧
      ∀ histories, set.MadeBy histories →
        Decides (writtenFrom 0 histories) t node (set.resolve t node).1) ∧
    ∀ s, w.resolver? p = some (.sheet s) → (∃ history, s.MadeBy history) ∧
      ∀ history, s.MadeBy history → Decides (writtenFrom 0 [history]) t node (s.resolve t node).1 := by
  have hd := hw.sound.distinct
  constructor
  · intro set hset
    have hsound : set.Sound w.trees := hw.sound.resolver? hset
    refine ⟨exists_madeBy_of_sound hsound.sheets, fun histories hmade => ?_⟩
    rw [(hsound.resolve hd ht hn).1]
    exact SheetSet.decides_compute hmade
  · intro s hs
    have hsound : s.Sound w.trees := hw.sound.resolver? hs
    refine ⟨hsound.made, fun history hmade => ?_⟩
    rw [(hsound.resolve hd ht hn).1]
    exact StyleSheet.decides_compute hmade

/-- Two rules that both match a paragraph of class `a`. -/
def lowerTexts : History :=
  ⟨.standard, [.ofString ".a \x7b tab-size: 5 \x7d p \x7b tab-size: 3 \x7d"]⟩

/-- A text over that, and one that is refused. -/
def upperTexts : History :=
  ⟨.standard, [.ofString "p \x7b clear: both \x7d", .ofString "p \x7b tab-size"]⟩

def layeredSet : SheetSet := (SheetSet.push {} lowerTexts.sheet).push upperTexts.sheet

def classParagraph : StyleTree :=
  (StyleTree.empty 1 .standard).push none (some (.of "p" (some "a") none)) .empty

namespace World

def layered : World :=
  { trees := [classParagraph], resolvers := [.absent, .absent, .set layeredSet] }

theorem reached_layered : layered.Reached := by
  have h1 : Reached { trees := [classParagraph] } := .step .start (.enter classParagraph (by simp))
  have h2 := (h1.step (.newSheet .standard)).step
    (.parse (i := 0) rfl (.ofString ".a \x7b tab-size: 5 \x7d p \x7b tab-size: 3 \x7d"))
  have h3 := (h2.step (.newSheet .standard)).step
    (.parse (i := 1) rfl (.ofString "p \x7b clear: both \x7d"))
  have h4 := h3.step (.parse (i := 1) rfl (.ofString "p \x7b tab-size"))
  have h5 := (h4.step .newSet).step (.move (i := 0) (j := 2) rfl rfl List.not_mem_nil)
  exact h5.step (.move (i := 1) (j := 2) rfl rfl List.not_mem_nil)

theorem cascade_order_layered :
    layered.Reached ∧ classParagraph ∈ layered.trees ∧ 0 < classParagraph.size ∧
      layered.resolver? (.own 2) = some (.set layeredSet) ∧
      layeredSet.MadeBy [lowerTexts, upperTexts] ∧
      Decides (writtenFrom 0 [lowerTexts, upperTexts]) classParagraph 0
        (layeredSet.resolve classParagraph 0).1 ∧
      (layeredSet.resolve classParagraph 0).1.bind (·.get? Standard.tabSize) =
        some (.integer 5) := by
  have htree : classParagraph ∈ layered.trees := List.mem_cons_self
  have hnode : 0 < classParagraph.size := by decide
  have hset : layered.resolver? (.own 2) = some (.set layeredSet) := rfl
  have hmade : layeredSet.MadeBy [lowerTexts, upperTexts] := rfl
  have hlaw := ((reached_layered.cascade_order htree hnode (.own 2)).1 layeredSet hset).2 _ hmade
  have hsound : layeredSet.Sound layered.trees := reached_layered.sound.resolver? hset
  refine ⟨reached_layered, htree, hnode, hset, hmade, hlaw, ?_⟩
  rw [(hsound.resolve reached_layered.sound.distinct htree hnode).1]
  decide +kernel

end World

end RichText
