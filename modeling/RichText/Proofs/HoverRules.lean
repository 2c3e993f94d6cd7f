/-
# Rules with a pseudo-class

An attribute may have a twin that holds while the pointer hovers over the
element. Which attributes have one is fixed by the standard attributes, however
a registry was built (`Registry.Built.exists_twin`). A rule whose subject has a
pseudo-class only sets twins: with `hover` those of the attributes that its block
sets, to the same values, and with any other pseudo-class none
(`get?_pseudoStyle`). So it sets no attribute that holds without the pointer, and
where it joins a stylesheet no value of such an attribute changes anywhere, be it
given by rules, inherited or a default (`Resolver.Adds.getValue_eq`).

What matters is the subject: the pseudo-class of another compound is not kept.

Key definitions: `Registry.Built`, `Registry.IsBase`, `Style.Typed`,
`Resolver.Adds`, `Resolver.Honest`.
Key theorems: `Registry.Built.exists_twin`, `get?_pseudoStyle`,
`lastValue_insertRule`, `Resolver.Adds.getValue_eq`, `pseudo_rule_spares_base`.
-/
import RichText.Proofs.Atomicity
import RichText.Proofs.CascadeOrder
import RichText.Proofs.Composition
import RichText.Proofs.Inheritance

namespace RichText

/-! ### Twins -/

/-- Wherever a standard attribute has a twin, it is the next attribute. -/
theorem Standard.exists_twin {i j : Nat} {a : Attribute} (ha : attributes[i]? = some a)
    (hj : a.hover = some j) :
    j = i + 1 ∧ ∃ b, attributes[j]? = some b ∧ b.variant = .hover ∧ b.type = a.type := by
  have hall : ∀ entry ∈ attributes.zipIdx, ∀ j ∈ entry.1.hover, j = entry.2 + 1 ∧
      (attributes[j]?).any fun b => b.variant = .hover ∧ b.type = entry.1.type := by
    decide
  obtain ⟨hnext, hany⟩ := hall (a, i) (List.mem_zipIdx_iff_getElem?.2 ha) j hj
  refine ⟨hnext, ?_⟩
  cases hb : attributes[j]? with
  | none => simp [hb] at hany
  | some b => exact ⟨b, rfl, by simpa [hb] using hany⟩

namespace Registry

/-- A registry as it can be built: the standard attributes, and others behind
them. -/
inductive Built : Registry → Prop
  | standard : Built standard
  | register {r : Registry} (h : Built r) (name : String) (inherited : Bool) (kind : Kind)
    (default : Option Value) : Built (r.register name inherited kind default)

/-- An attribute that holds whether or not the pointer is over the element. -/
def IsBase (r : Registry) (i : Nat) : Prop := ∃ a, r.get? i = some a ∧ a.variant = .base

variable {r : Registry} {i j : Nat}

/-- No attribute that is registered has a twin. -/
theorem Built.hover?_eq (h : r.Built) (i : Nat) :
    r.hover? i = (Standard.attributes[i]?).bind (·.hover) := by
  induction h with
  | standard => simp [hover?, get?, attributes, Registry.standard]
  | @register r h name inherited kind default ih =>
    rw [hover?, get?_register]
    split
    · next hi =>
      subst hi
      have hsize : Standard.attributes.length ≤ r.size := by simp [size, attributes]
      rw [List.getElem?_eq_none hsize]
      rfl
    · exact ih

theorem Built.exists_twin (h : r.Built) (hj : r.hover? i = some j) :
    j = i + 1 ∧ ∃ a b, Standard.attributes[i]? = some a ∧ Standard.attributes[j]? = some b ∧
      b.variant = .hover ∧ b.type = a.type := by
  rw [h.hover?_eq] at hj
  obtain ⟨a, ha, hhover⟩ := Option.bind_eq_some_iff.1 hj
  obtain ⟨hnext, b, hb, htwin⟩ := Standard.exists_twin ha hhover
  exact ⟨hnext, a, b, ha, hb, htwin⟩

/-- A twin in one registry holds without the pointer in none. -/
theorem Built.not_isBase_twin (h : r.Built) (hj : r.hover? i = some j) (r' : Registry) :
    ¬ r'.IsBase j := by
  rintro ⟨b', hb', hbase⟩
  obtain ⟨-, a, b, -, hb, hhover, -⟩ := h.exists_twin hj
  rw [get?_standard hb r'] at hb'
  obtain rfl := Option.some.inj hb'
  rw [hhover] at hbase
  nomatch hbase

/-- What an attribute can have, its twin can have. -/
theorem Built.check_twin (h : r.Built) (hj : r.hover? i = some j) {v : Value}
    (hv : r.check i v = .ok ()) : r.check j v = .ok () := by
  obtain ⟨-, a, b, ha, hb, -, htype⟩ := h.exists_twin hj
  have htyped : a.type = v.type := by
    rw [check, get?_standard ha r] at hv
    exact Decidable.byContradiction fun hne => by simp [hne] at hv
  exact check_standard hb (htype.trans htyped) r

end Registry

/-! ### Blocks -/

namespace Style

variable {r : Registry} {s s' : Style}

/-- Every value is one that its attribute can have. -/
def Typed (r : Registry) (s : Style) : Prop := ∀ i v, s.get? i = some v → r.check i v = .ok ()

theorem typed_empty (r : Registry) : Typed r .empty := by
  intro i v h
  simp at h

theorem Typed.write (h : s.Typed r) {i : Nat} {v : Option Value} (hw : s.write r i v = .ok s') :
    s'.Typed r := by
  intro j w hj
  rw [get?_write hw] at hj
  split at hj
  · next hji =>
    subst hji hj
    exact check_of_put hw
  · exact h j w hj

theorem mem_toList {i : Nat} {v : Value} : (i, v) ∈ s.toList ↔ s.get? i = some v := by
  simp only [toList, get?, List.mem_filterMap, Option.map_eq_some_iff, Prod.mk.injEq]
  constructor
  · rintro ⟨⟨cell, k⟩, hmem, w, hcell, rfl, rfl⟩
    have hk : (s.cells.getD [])[k]? = some cell := List.mem_zipIdx_iff_getElem?.1 hmem
    rw [hk, Option.join_some]
    exact hcell
  · intro h
    have hcell := Option.join_eq_some_iff.1 h
    exact ⟨(some v, i), List.mem_zipIdx_iff_getElem?.2 hcell, v, rfl, rfl, rfl⟩

end Style

namespace StyleSheet

open Declaration

theorem typed_foldlM_write {r : Registry} : ∀ {found : List Write} {s s' : Style}, s.Typed r →
    found.foldlM (fun s w => s.write r w.ordinal w.value) s = .ok s' → s'.Typed r
  | [], s, s', h, ha => by
    obtain rfl : s = s' := Except.ok.inj ha
    exact h
  | w :: found, s, s', h, ha => by
    rw [List.foldlM_cons] at ha
    cases hs : s.write r w.ordinal w.value with
    | error e => rw [hs] at ha; nomatch ha
    | ok s₁ => rw [hs] at ha; exact typed_foldlM_write (h.write hs) ha

theorem typed_apply {r : Registry} {property value : String} {s s' : Style} (h : s.Typed r)
    (ha : apply r property value s = .ok s') : s'.Typed r := by
  unfold apply at ha
  cases hw : writes property value with
  | error e => rw [hw] at ha; nomatch ha
  | ok found => rw [hw] at ha; exact typed_foldlM_write h ha

/-- Whatever a block says, what comes of it fits the attributes. -/
theorem typed_blockStyle (r : Registry) (declarations : List Sheet.Declaration) :
    (blockStyle r declarations).2.Typed r := by
  unfold blockStyle
  suffices h : ∀ acc : List Diagnostic × Style, acc.2.Typed r → (declarations.foldl _ acc).2.Typed r from
    h ([], .empty) (Style.typed_empty r)
  induction declarations with
  | nil => exact fun acc h => h
  | cons d declarations ih =>
    intro acc h
    rw [List.foldl_cons]
    refine ih _ ?_
    split
    · next s hs => exact typed_apply h hs
    · exact h

/-! ### The style behind a pseudo-class -/

/-- A style with a value of a block put at the twin, if there is one. -/
def putTwin (r : Registry) (acc : Style) (entry : Nat × Value) : Style :=
  match r.hover? entry.1 with
  | some twin => ((acc.put r twin entry.2).toOption).getD acc
  | none => acc

section Pseudo

variable {r : Registry} (hr : r.Built)
include hr

theorem get?_putTwin {acc : Style} {entry : Nat × Value} (hv : r.check entry.1 entry.2 = .ok ())
    (j : Nat) :
    (putTwin r acc entry).get? j =
      if r.hover? entry.1 = some j then some entry.2 else acc.get? j := by
  unfold putTwin
  cases htwin : r.hover? entry.1 with
  | none => simp
  | some twin =>
    obtain ⟨s', hs'⟩ : ∃ s', acc.put r twin entry.2 = .ok s' :=
      ⟨_, Style.put_of_check (hr.check_twin htwin hv) acc⟩
    simp only [hs', Except.toOption, Option.getD_some, Option.some.injEq]
    rw [Style.get?_put hs']
    simp only [eq_comm]

/-- Values put at twins are there, unless two of them are for one twin. -/
theorem get?_foldl_putTwin {j : Nat} {v : Value} : ∀ {entries : List (Nat × Value)} {acc : Style},
    (∀ e ∈ entries, r.check e.1 e.2 = .ok ()) →
    (∀ e ∈ entries, ∀ e' ∈ entries, r.hover? e.1 = some j → r.hover? e'.1 = some j →
      e.2 = e'.2) →
    ((entries.foldl (putTwin r) acc).get? j = some v ↔
      (∃ e ∈ entries, r.hover? e.1 = some j ∧ e.2 = v) ∨
        (∀ e ∈ entries, r.hover? e.1 ≠ some j) ∧ acc.get? j = some v)
  | [], acc, _, _ => by simp
  | e :: entries, acc, hcheck, hone => by
    obtain ⟨hv, hothers⟩ := List.forall_mem_cons.1 hcheck
    rw [List.foldl_cons, get?_foldl_putTwin hothers fun e₁ h₁ e₂ h₂ =>
      hone e₁ (.tail _ h₁) e₂ (.tail _ h₂), get?_putTwin hr hv]
    have hsame := hone e List.mem_cons_self
    by_cases he : r.hover? e.1 = some j
    · grind
    · grind

/-- Behind `hover` stand the values of the block that have a twin, at the twin,
and nothing else. -/
theorem get?_pseudoStyle {style : Style} (ht : style.Typed r) {j : Nat} {v : Value} :
    (pseudoStyle r style "hover").get? j = some v ↔
      ∃ i, r.hover? i = some j ∧ style.get? i = some v := by
  have hfold : pseudoStyle r style "hover" = style.toList.foldl (putTwin r) .empty := rfl
  have hcheck : ∀ e ∈ style.toList, r.check e.1 e.2 = .ok () :=
    fun e he => ht _ _ (Style.mem_toList.1 he)
  -- A twin is the attribute behind its own, so no two have one.
  have hone : ∀ e ∈ style.toList, ∀ e' ∈ style.toList, r.hover? e.1 = some j →
      r.hover? e'.1 = some j → e.2 = e'.2 := by
    rintro ⟨i, w⟩ he ⟨i', w'⟩ he' hi hi'
    have hnext := (hr.exists_twin hi).1
    have hnext' := (hr.exists_twin hi').1
    obtain rfl : i = i' := by omega
    have hvalue := (Style.mem_toList.1 he).symm.trans (Style.mem_toList.1 he')
    exact Option.some.inj hvalue
  rw [hfold, get?_foldl_putTwin hr hcheck hone]
  constructor
  · rintro (⟨⟨i, w⟩, he, hi, rfl⟩ | ⟨-, hempty⟩)
    · exact ⟨i, hi, Style.mem_toList.1 he⟩
    · simp at hempty
  · rintro ⟨i, hi, hv⟩
    exact .inl ⟨(i, v), Style.mem_toList.2 hv, hi, rfl⟩

/-- Behind a pseudo-class no attribute is set that holds without the pointer. -/
theorem get?_pseudoStyle_of_isBase {style : Style} (ht : style.Typed r) (name : String)
    {r' : Registry} {i : Nat} (hi : r'.IsBase i) : (pseudoStyle r style name).get? i = none := by
  by_cases hname : name = "hover"
  · subst hname
    refine Option.eq_none_iff_forall_ne_some.2 fun v hv => ?_
    obtain ⟨k, hk, -⟩ := (get?_pseudoStyle hr ht).1 hv
    exact hr.not_isBase_twin hk r' hi
  · rw [pseudoStyle, if_neg hname, Style.get?_empty]

end Pseudo

end StyleSheet

/-! ### Rules that do not set an attribute -/

/-- A rule that does not set an attribute does not count for its values. -/
theorem lastValue_insertRule {rule : Selector} {i : Nat} (h : rule.style.get? i = none)
    (rules : List Selector) (t : StyleTree) (node : Nat) :
    lastValue (StyleSheet.insertRule rule rules) t node i = lastValue rules t node i := by
  obtain ⟨before, after, rfl, hplaced⟩ := StyleSheet.exists_split_insertRule rule rules
  have hrule : lastValue [rule] t node i = none := by
    unfold lastValue
    rw [List.filter_cons]
    split <;> simp [h]
  rw [hplaced, ← List.singleton_append, ← List.append_assoc, lastValue_append, lastValue_append,
    hrule, Option.none_or, ← lastValue_append]

namespace Resolver

/-- The second resolver has one rule more, which has been added to a stylesheet. -/
inductive Adds (rule : Selector) : Resolver → Resolver → Prop
  | sheet {s s' : StyleSheet} (h : s'.rules = StyleSheet.insertRule rule s.rules) :
    Adds rule (.sheet s) (.sheet s')
  | set {set set' : SheetSet} {below above : List StyleSheet} {s s' : StyleSheet}
    (hs : set.sheets = below ++ s :: above) (hs' : set'.sheets = below ++ s' :: above)
    (h : s'.rules = StyleSheet.insertRule rule s.rules) : Adds rule (.set set) (.set set')

/-- What is remembered for a tree is what would be computed. -/
def Honest (t : StyleTree) (r : Resolver) : Prop :=
  ∀ node < t.size, (r.resolve t node).1 = r.compute t node

theorem Sound.honest {r : Resolver} {trees : List StyleTree} (h : r.Sound trees)
    (hd : Distinct trees) {t : StyleTree} (ht : t ∈ trees) : r.Honest t :=
  fun _ hn => (h.resolve hd ht hn).1

variable {t : StyleTree} {r r' : Resolver} {i : Nat}

theorem Adds.bind_compute {rule : Selector} (h : Adds rule r r') (hi : rule.style.get? i = none)
    (node : Nat) : (r'.compute t node).bind (·.get? i) = (r.compute t node).bind (·.get? i) := by
  cases h with
  | sheet h =>
    simp only [compute, StyleSheet.bind_compute]
    rw [h, lastValue_insertRule hi]
  | set hs hs' h =>
    simp only [compute, SheetSet.bind_compute]
    rw [hs, hs']
    simp only [List.flatMap_append, List.flatMap_cons, lastValue_append, h, lastValue_insertRule hi]

end Resolver

namespace StyleTree

variable {t : StyleTree} {r r' : Resolver} {i : Nat}

theorem lt_size_of_key? {node : Nat} {k : Key} (h : t.key? node = some k) : node < t.size := by
  obtain ⟨n, hn, -⟩ := Option.bind_eq_some_iff.1 h
  exact (Array.getElem?_eq_some_iff.1 hn).1

theorem ownValue_eq (h : r.Honest t) {node : Nat} (hn : node < t.size) :
    t.ownValue r i node =
      match (t.raw node).get? i, t.key? node with
      | some v, _ => some v
      | none, some _ => (r.compute t node).bind (·.get? i)
      | none, none => none := by
  unfold ownValue
  cases (t.raw node).get? i with
  | some v => rfl
  | none =>
    cases t.key? node with
    | some k => exact congrArg (·.bind (·.get? i)) (h node hn)
    | none => rfl

/-- The values of an attribute depend on no more than what the resolver has for it. -/
theorem getValue_congr {a : Attribute} (ha : t.registry.get? i = some a)
    (h : ∀ node < t.size,
      (r'.resolve t node).1.bind (·.get? i) = (r.resolve t node).1.bind (·.get? i)) (node : Nat) :
    (t.getValue node i r').1 = (t.getValue node i r).1 := by
  have hown : t.ownValue r' i = t.ownValue r i := by
    funext n
    unfold ownValue
    split
    · rfl
    · next k _ hk => exact h n (lt_size_of_key? hk)
    · rfl
  rw [(answers_getValue r' ha node).result, (answers_getValue r ha node).result]
  simp only [source, hown]

end StyleTree

/-- A rule that does not set an attribute changes no value of it, in any node. -/
theorem Resolver.Adds.getValue_eq {rule : Selector} {r r' : Resolver} (h : Adds rule r r')
    {t : StyleTree} (hr : r.Honest t) (hr' : r'.Honest t) {i : Nat} {a : Attribute}
    (ha : t.registry.get? i = some a) (hi : rule.style.get? i = none) (node : Nat) :
    (t.getValue node i r').1 = (t.getValue node i r).1 :=
  StyleTree.getValue_congr ha (fun n hn => by rw [hr n hn, hr' n hn, h.bind_compute hi]) node

namespace StyleSheet

/-- A rule whose subject has a pseudo-class sets no attribute that holds without
the pointer, and changes no value of one in any node of any tree; behind `hover`
it sets the twins of what its block sets, and nothing else. -/
theorem pseudo_rule_spares_base (s : StyleSheet) (hr : s.registry.Built) {source : ByteSource}
    {content : Sheet.Content} (hparse : Sheet.parse source = .ok content) {rule : Sheet.Rule}
    (hrule : rule ∈ content.rules) {chain : Sheet.Chain} (hchain : chain ∈ rule.selectors)
    {name : String} (hsubject : chain.head?.bind (·.pseudoClass) = some name) :
    let block := (blockStyle s.registry rule.declarations).2
    let stored := Selector.ofChain chain (chainStyle s.registry block chain)
    stored ∈ (s.parse source).2.rules ∧
      (∀ i, s.registry.IsBase i → stored.style.get? i = none) ∧
      (∀ (r r' : Resolver) (t : StyleTree) (node i : Nat), r.Adds stored r' → r.Honest t →
        r'.Honest t → t.registry.IsBase i → (t.getValue node i r').1 = (t.getValue node i r).1) ∧
      (name = "hover" → ∀ j v, stored.style.get? j = some v ↔
        ∃ i, s.registry.hover? i = some j ∧ block.get? i = some v) := by
  intro block stored
  have ht : block.Typed s.registry := typed_blockStyle s.registry rule.declarations
  have hstyle : stored.style = pseudoStyle s.registry block name := by
    show chainStyle s.registry block chain = _
    rw [chainStyle, hsubject]
  have hbase (registry : Registry) (i : Nat) (hi : registry.IsBase i) :
      stored.style.get? i = none := by
    rw [hstyle]
    exact get?_pseudoStyle_of_isBase hr ht name hi
  refine ⟨?_, hbase s.registry, ?_, ?_⟩
  · rw [rules_parse, mem_foldl_insertRule, rulesOf, hparse]
    exact .inr (List.mem_flatMap.2 ⟨rule, hrule, List.mem_map.2 ⟨chain, hchain, rfl⟩⟩)
  · intro r r' t node i hadds hhonest hhonest' hi
    obtain ⟨a, ha, -⟩ := id hi
    exact hadds.getValue_eq hhonest hhonest' ha (hbase t.registry i hi) node
  · rintro rfl j v
    rw [hstyle]
    exact get?_pseudoStyle hr ht

/-- A link, and bold text in it. -/
def boldLink : StyleTree :=
  ((StyleTree.empty 1 .standard).push none (some (.of "a" none none)) .empty).push (some 0)
    (some (.of "b" none none)) .empty

theorem honest_boldLink {s : StyleSheet} (h : s.Sound [boldLink]) :
    (Resolver.sheet s).Honest boldLink :=
  Resolver.Sound.honest (r := .sheet s) h (List.pairwise_singleton _ _) List.mem_cons_self

/-- The color of a link while the pointer is over it. -/
def hoveredLink : StyleSheet :=
  ((StyleSheet.new .standard).parseString "a:hover \x7b color: red; width: 1px \x7d").2

theorem pseudo_rule_spares_base_link :
    ∃ stored ∈ hoveredLink.rules,
      stored.style.get? Standard.colorHover = some (.color ⟨255, 255, 0, 0⟩) ∧
      stored.style.get? Standard.color = none ∧
      ∀ node, (boldLink.getValue node Standard.color (.sheet hoveredLink)).1 =
        (boldLink.getValue node Standard.color (.sheet (.new .standard))).1 := by
  have hparse : Sheet.parse (.ofString "a:hover \x7b color: red; width: 1px \x7d") =
      .ok ⟨[⟨[[{ element := some "a", pseudoClass := some "hover" }]],
        [⟨"color", "red", 1⟩, ⟨"width", "1px", 1⟩]⟩], []⟩ :=
    Sheet.eq_ok_of_toOption (by decide +kernel)
  obtain ⟨hstored, hnone, hkeeps, htwins⟩ :=
    (StyleSheet.new .standard).pseudo_rule_spares_base .standard hparse List.mem_cons_self
      List.mem_cons_self rfl
  have hcolor : Registry.standard.IsBase Standard.color := ⟨_, rfl, rfl⟩
  refine ⟨_, hstored, (htwins rfl _ _).2 ⟨Standard.color, rfl, by decide +kernel⟩,
    hnone _ hcolor, fun node => ?_⟩
  have hrules : hoveredLink.rules = _ := rules_parse (.new .standard) _
  rw [rulesOf, hparse] at hrules
  exact hkeeps _ _ _ node _ (.sheet hrules) (honest_boldLink (sound_new _))
    (honest_boldLink ((sound_new _).parse _)) hcolor

/-- The color of bold text in a link that the pointer is over, as it is written. -/
def hoveredBold : StyleSheet :=
  ((StyleSheet.new .standard).parseString "a:hover b \x7b color: red \x7d").2

/-- Bold text in a link that the pointer is over. -/
def boldChain : Sheet.Chain :=
  [{ element := some "b" }, { element := some "a", pseudoClass := some "hover" }]

/-- The rule that is stored for it. -/
def boldRule : Selector :=
  .ofChain boldChain
    (chainStyle .standard (blockStyle .standard [⟨"color", "red", 1⟩]).2 boldChain)

/-- The pseudo-class of a compound that is not the subject is not kept: the rule
sets the color of bold text in every link. -/
theorem outer_pseudo_class_dropped :
    Sheet.parse (.ofString "a:hover b \x7b color: red \x7d") =
        .ok ⟨[⟨[boldChain], [⟨"color", "red", 1⟩]⟩], []⟩ ∧
      (∃ c ∈ boldChain, c.pseudoClass = some "hover") ∧
      hoveredBold.rules = insertRule boldRule (StyleSheet.new .standard).rules ∧
      Registry.standard.IsBase Standard.color ∧
      boldRule.style.get? Standard.color = some (.color ⟨255, 255, 0, 0⟩) ∧
      (boldLink.getValue 1 Standard.color (.sheet (.new .standard))).1 = some (.color .white) ∧
      (boldLink.getValue 1 Standard.color (.sheet hoveredBold)).1 =
        some (.color ⟨255, 255, 0, 0⟩) := by
  have hparse : Sheet.parse (.ofString "a:hover b \x7b color: red \x7d") =
      .ok ⟨[⟨[boldChain], [⟨"color", "red", 1⟩]⟩], []⟩ :=
    Sheet.eq_ok_of_toOption (by decide +kernel)
  have hrules : hoveredBold.rules = _ := rules_parse (.new .standard) _
  rw [rulesOf, hparse] at hrules
  have hnew := honest_boldLink (sound_new .standard)
  have hbold : (Resolver.sheet hoveredBold).Honest boldLink :=
    honest_boldLink ((sound_new .standard).parse _)
  have h0 : boldLink.ownValue (.sheet (.new .standard)) Standard.color 0 = none := by
    rw [StyleTree.ownValue_eq hnew (by decide)]
    decide +kernel
  have h1 : boldLink.ownValue (.sheet (.new .standard)) Standard.color 1 = none := by
    rw [StyleTree.ownValue_eq hnew (by decide)]
    decide +kernel
  have h2 : boldLink.ownValue (.sheet hoveredBold) Standard.color 1 =
      some (.color ⟨255, 255, 0, 0⟩) := by
    rw [StyleTree.ownValue_eq hbold (by decide)]
    decide +kernel
  refine ⟨hparse, ⟨_, .tail _ List.mem_cons_self, rfl⟩, hrules, ⟨_, rfl, rfl⟩, by decide +kernel,
    ?_, ?_⟩
  · rw [(@StyleTree.answers_getValue boldLink (.sheet (.new .standard)) Standard.color _ rfl 1).result,
      if_pos (by rfl), StyleTree.source_of_some _ _ rfl h1, StyleTree.source_of_none _ _ rfl, h0]
    rfl
  · rw [(@StyleTree.answers_getValue boldLink (.sheet hoveredBold) Standard.color _ rfl 1).result,
      if_pos (by rfl), StyleTree.source_of_own _ _ (by rw [h2]; rfl), h2]
    rfl

end StyleSheet

end RichText
