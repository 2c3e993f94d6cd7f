/-
# Values are of the types of their attributes

A value comes into a style by a write that is checked, from another style, or by a
declaration, all of whose writes are checked; and a default is of the type of its
attribute. So it does not matter in which order registries, styles, trees, stylesheets
and sets are made and asked: what an attribute is resolved to is of its type, and who
reads it as a value of that type gets it as it is (`values_typed`). For this, what is
remembered has to be typed as well as what is computed (`StyleSheet.Typed`).

Three writes have results that no one looks at: that of the built-in rule, those at
the twins for hovering, and those that leave out what is not inherited. All of them
write a value that has been checked, at an ordinal whose attribute can have it
(`Registry.Built.check_twin`), so none of them fails.

Key definitions: `Registry.of`, `Style.MadeOn`, `StyleTree.MadeOn`, `StyleSheet.MadeOn`,
`SheetSet.MadeOn`, `Resolver.Typed`.
Key theorems: `Style.MadeOn.typed`, `StyleTree.MadeOn.typed`, `Resolver.MadeOn.typed`,
`StyleTree.typed_ownValue`, `values_typed`.
-/
import RichText.Declaration.Inline
import RichText.Proofs.HoverRules

namespace RichText

/-! ### Registrations -/

/-- What an attribute is registered with. -/
structure Registration where
  name : String
  inherited : Bool
  kind : Kind
  default : Option Value

def Registration.attribute (g : Registration) : Attribute :=
  .ofKind g.name g.inherited g.kind g.default

namespace Registry

/-- The registry with more attributes, registered one after another. -/
def registerAll (r : Registry) (registrations : List Registration) : Registry :=
  registrations.foldl (fun r g => r.register g.name g.inherited g.kind g.default) r

/-- The registry of the standard attributes and those registered after them. -/
def of (registrations : List Registration) : Registry := standard.registerAll registrations

theorem Built.registerAll : ∀ (registrations : List Registration) {r : Registry}, r.Built →
    (r.registerAll registrations).Built
  | [], _, h => h
  | _ :: registrations, _, h => Built.registerAll registrations (h.register _ _ _ _)

theorem attributes_registerAll : ∀ (registrations : List Registration) (r : Registry),
    (r.registerAll registrations).attributes =
      r.attributes ++ registrations.map Registration.attribute
  | [], r => (List.append_nil r.attributes).symm
  | g :: registrations, r => by
    show ((r.register g.name g.inherited g.kind g.default).registerAll registrations).attributes = _
    rw [attributes_registerAll registrations, attributes_register, List.append_assoc]
    rfl

/-- Ordinals are given in the order of registration. -/
theorem attributes_of (registrations : List Registration) :
    (of registrations).attributes =
      Standard.attributes ++ registrations.map Registration.attribute := by
  rw [of, attributes_registerAll]
  rfl

theorem size_of (registrations : List Registration) :
    (of registrations).size = 33 + registrations.length := by
  rw [size, attributes_of, List.length_append, List.length_map, standard_length]

theorem exists_of_check {r : Registry} {i : Nat} {v : Value} (h : r.check i v = .ok ()) :
    ∃ a, r.get? i = some a ∧ v.type = a.type := by
  unfold check at h
  cases ha : r.get? i with
  | none => simp [ha] at h
  | some a =>
    simp only [ha] at h
    split at h
    · next htype => exact ⟨a, rfl, htype.symm⟩
    · nomatch h

end Registry

/-! ### Styles -/

namespace Style

/-- A style that comes of writes, copies and declarations with a registry. -/
inductive MadeOn (r : Registry) : Style → Prop
  | empty : MadeOn r .empty
  | put {s s' : Style} (h : MadeOn r s) {i : Nat} {v : Value} (hs' : s.put r i v = .ok s') :
    MadeOn r s'
  | set {s s' : Style} (h : MadeOn r s) {i : Nat} {v : Option Value}
    (hs' : s.write r i v = .ok s') : MadeOn r s'
  | remove {s : Style} (h : MadeOn r s) (i : Nat) : MadeOn r (s.clear i)
  | putAll {s s' : Style} (h : MadeOn r s) (h' : MadeOn r s') : MadeOn r (s.putAll s')
  | apply {s s' : Style} (h : MadeOn r s) {property value : String}
    (hs' : Declaration.apply r property value s = .ok s') : MadeOn r s'
  | applyInline {s : Style} (h : MadeOn r s) (text : String) :
    MadeOn r (Declaration.applyInline r s text).2

variable {r : Registry} {s s' : Style}

theorem Typed.put (h : s.Typed r) {i : Nat} {v : Value} (hs' : s.put r i v = .ok s') : s'.Typed r :=
  h.write (v := some v) hs'

theorem Typed.putAll (h : s.Typed r) (h' : s'.Typed r) : (s.putAll s').Typed r := by
  intro i v hv
  rw [get?_putAll] at hv
  rcases Option.or_eq_some_iff.1 hv with hv | ⟨-, hv⟩
  · exact h' i v hv
  · exact h i v hv

theorem typed_merge : ∀ (others : List Style) {first : Style}, first.Typed r →
    (∀ s ∈ others, s.Typed r) → (first.merge others).Typed r
  | [], _, h, _ => h
  | s :: others, first, h, hall => by
    obtain ⟨hs, hothers⟩ := List.forall_mem_cons.1 hall
    exact typed_merge others (h.putAll hs) hothers

theorem Typed.applyPair (h : s.Typed r) {pair : String × String}
    (hs' : Declaration.applyPair r pair s = .ok s') : s'.Typed r := by
  unfold Declaration.applyPair at hs'
  split at hs'
  · nomatch hs'
  · exact StyleSheet.typed_apply h hs'

theorem Typed.applyAll : ∀ (pairs : List (String × String)) {s : Style}, s.Typed r →
    (Declaration.applyAll (Declaration.applyPair r) s pairs).2.Typed r
  | [], _, h => h
  | pair :: pairs, s, h => by
    unfold Declaration.applyAll
    split
    · next s' hs' => exact Typed.applyAll pairs (h.applyPair hs')
    · exact Typed.applyAll pairs h

/-- However a style is made, its values fit. -/
theorem MadeOn.typed (h : MadeOn r s) : s.Typed r := by
  induction h with
  | empty => exact typed_empty r
  | put _ hs' ih => exact ih.put hs'
  | set _ hs' ih => exact ih.write hs'
  | remove _ i ih => exact ih.write (v := none) rfl
  | putAll _ _ ih ih' => exact ih.putAll ih'
  | apply _ hs' ih => exact StyleSheet.typed_apply ih hs'
  | applyInline _ text ih => exact ih.applyAll _

theorem Typed.exists_put (h : s.Typed r) {entry : Nat × Value} (hmem : entry ∈ s.toList)
    (acc : Style) : ∃ s', acc.put r entry.1 entry.2 = .ok s' :=
  ⟨_, put_of_check (h _ _ (mem_toList.1 hmem)) acc⟩

end Style

/-! ### Trees -/

namespace StyleTree

/-- A tree that is made with a registry, and with values that are. -/
inductive MadeOn (r : Registry) : StyleTree → Prop
  | empty (id : Nat) : MadeOn r (.empty id r)
  | push {t : StyleTree} (h : MadeOn r t) (parent : Option Nat) (key : Option Key) {raw : Style}
    (hraw : raw.MadeOn r) : MadeOn r (t.push parent key raw)
  | derive {t t' : StyleTree} (h : MadeOn r t) {i ordinal n : Nat} {v : Option Value}
    (ht' : t.deriveWith i ordinal v = .ok (n, t')) : MadeOn r t'
  | strip {t : StyleTree} (h : MadeOn r t) (i : Nat) : MadeOn r (t.withoutNonInheritable i).2

/-- Whatever is set on a node fits. -/
structure Typed (r : Registry) (t : StyleTree) : Prop where
  registry : t.registry = r
  raw : ∀ node, (t.raw node).Typed r

variable {r : Registry} {t : StyleTree}

theorem raw_push (t : StyleTree) (parent : Option Nat) (key : Option Key) (raw : Style)
    (node : Nat) : (t.push parent key raw).raw node = if node = t.size then raw else t.raw node := by
  unfold StyleTree.raw
  rw [node?_push]
  split <;> rfl

theorem Typed.push (h : t.Typed r) (parent : Option Nat) (key : Option Key) {raw : Style}
    (hraw : raw.Typed r) : (t.push parent key raw).Typed r := by
  refine ⟨h.registry, fun node => ?_⟩
  rw [raw_push]
  split
  · exact hraw
  · exact h.raw node

theorem typed_inheritedPart (r : Registry) (s : Style) : (inheritedPart r s).Typed r := by
  unfold inheritedPart
  suffices hall : ∀ (entries : List (Nat × Value)) (part : Style), part.Typed r →
      (entries.foldl (fun part entry => if r.isInherited entry.1 then
        ((part.put r entry.1 entry.2).toOption).getD part else part) part).Typed r from
    hall _ _ (Style.typed_empty r)
  intro entries
  induction entries with
  | nil => exact fun part hpart => hpart
  | cons entry entries ih =>
    intro part hpart
    refine ih _ ?_
    dsimp only
    split
    · cases hput : part.put r entry.1 entry.2 with
      | error e => exact hpart
      | ok part' => exact hpart.put hput
    · exact hpart

theorem MadeOn.typed (h : MadeOn r t) : t.Typed r := by
  induction h with
  | empty id => exact ⟨rfl, fun node => Style.typed_empty r⟩
  | push _ parent key hraw ih => exact ih.push parent key hraw.typed
  | @derive t t' _ i ordinal n v ht' ih =>
    unfold deriveWith at ht'
    rw [ih.registry] at ht'
    cases hraw : (t.raw i).write r ordinal v with
    | error e => rw [hraw] at ht'; nomatch ht'
    | ok raw =>
      rw [hraw] at ht'
      obtain ⟨-, rfl⟩ := Prod.mk.inj (Except.ok.inj ht')
      exact ih.push _ _ ((ih.raw i).write hraw)
  | @strip t _ i ih =>
    unfold withoutNonInheritable
    split
    · exact ih
    · refine ih.push _ _ ?_
      rw [ih.registry]
      exact typed_inheritedPart r _

end StyleTree

/-! ### Stylesheets -/

/-- What is remembered for nodes that have a style fits. -/
def Cache.Typed (r : Registry) (cache : Cache) : Prop :=
  ∀ (key : Nat × Nat) (style : Style), cache[key]? = some (some style) → style.Typed r

theorem Cache.typed_empty (r : Registry) : Cache.Typed r ∅ := by
  intro key style h
  simp at h

theorem Cache.Typed.insert {r : Registry} {cache : Cache} (h : Cache.Typed r cache)
    {key : Nat × Nat} {found : Option Style} (hfound : ∀ style ∈ found, style.Typed r) :
    Cache.Typed r (cache.insert key found) := by
  intro key' style hstyle
  rw [Std.HashMap.getElem?_insert] at hstyle
  split at hstyle
  · exact hfound style (Option.some.inj hstyle)
  · exact h key' style hstyle

namespace StyleSheet

/-- A stylesheet with a registry, whatever it has read and whatever it was asked. -/
inductive MadeOn (r : Registry) : StyleSheet → Prop
  | new : MadeOn r (.new r)
  | parse {s : StyleSheet} (h : MadeOn r s) (source : ByteSource) : MadeOn r (s.parse source).2
  | resolve {s : StyleSheet} (h : MadeOn r s) (t : StyleTree) (node : Nat) :
    MadeOn r (s.resolve t node).2
  | forget {s : StyleSheet} (h : MadeOn r s) : MadeOn r s.forget

/-- What the rules set and what is remembered fits. -/
structure Typed (r : Registry) (s : StyleSheet) : Prop where
  registry : s.registry = r
  rules : ∀ rule ∈ s.rules, rule.style.Typed r
  cache : Cache.Typed r s.cache

variable {r : Registry} {s : StyleSheet}

theorem exists_put_preRule (r : Registry) (acc : Style) :
    ∃ s', acc.put r Standard.preformatted (.flag true) = .ok s' :=
  ⟨_, Style.put_of_check (Registry.check_standard rfl rfl r) acc⟩

theorem typed_preStyle (r : Registry) : (preStyle r).Typed r := by
  obtain ⟨s', hs'⟩ := exists_put_preRule r .empty
  rw [preStyle, hs']
  exact (Style.typed_empty r).put hs'

theorem typed_pseudoStyle (hr : r.Built) {style : Style} (h : style.Typed r) (name : String) :
    (pseudoStyle r style name).Typed r := by
  by_cases hname : name = "hover"
  · subst hname
    intro j v hv
    obtain ⟨i, hi, hv⟩ := (get?_pseudoStyle hr h).1 hv
    exact hr.check_twin hi (h i v hv)
  · rw [pseudoStyle, if_neg hname]
    exact Style.typed_empty r

theorem typed_chainStyle (hr : r.Built) {style : Style} (h : style.Typed r) (chain : Sheet.Chain) :
    (chainStyle r style chain).Typed r := by
  unfold chainStyle
  split
  · exact h
  · exact typed_pseudoStyle hr h _

theorem typed_rulesOf (hr : r.Built) {source : ByteSource} {rule : Selector}
    (h : rule ∈ rulesOf r source) : rule.style.Typed r := by
  unfold rulesOf at h
  split at h
  · obtain ⟨written, -, hmem⟩ := List.mem_flatMap.1 h
    obtain ⟨chain, -, rfl⟩ := List.mem_map.1 hmem
    exact typed_chainStyle hr (typed_blockStyle r written.declarations) chain
  · nomatch h

theorem Typed.parse (h : s.Typed r) (hr : r.Built) (source : ByteSource) :
    (s.parse source).2.Typed r := by
  refine ⟨(s.registry_parse source).trans h.registry, fun rule hrule => ?_, ?_⟩
  · rw [rules_parse, mem_foldl_insertRule, h.registry] at hrule
    rcases hrule with hrule | hrule
    · exact h.rules rule hrule
    · exact typed_rulesOf hr hrule
  · unfold StyleSheet.parse
    split
    · exact h.cache
    · exact Cache.typed_empty r

theorem Typed.compute (h : s.Typed r) {t : StyleTree} {node : Nat} :
    ∀ style ∈ s.compute t node, style.Typed r := by
  intro style hstyle
  unfold StyleSheet.compute at hstyle
  split at hstyle
  · nomatch hstyle
  · next rule rules hmatching =>
    have hall : ∀ rule' ∈ rule :: rules, rule'.style.Typed r := fun rule' hrule' =>
      h.rules rule' (List.mem_filter.1 (hmatching ▸ hrule')).1
    obtain ⟨hrule, hrules⟩ := List.forall_mem_cons.1 hall
    obtain rfl := Option.some.inj hstyle
    exact Style.typed_merge _ hrule (by simpa using hrules)

/-- Whatever the answer comes from, it fits, and so does what is remembered then. -/
theorem Typed.resolve (h : s.Typed r) (t : StyleTree) (node : Nat) :
    (∀ style ∈ (s.resolve t node).1, style.Typed r) ∧ (s.resolve t node).2.Typed r := by
  unfold StyleSheet.resolve
  split
  · next found hfound =>
    exact ⟨fun style hstyle => h.cache _ style (hfound.trans (congrArg some hstyle)), h⟩
  · exact ⟨h.compute, h.registry, h.rules, h.cache.insert h.compute⟩

theorem Typed.forget (h : s.Typed r) : s.forget.Typed r :=
  ⟨h.registry, h.rules, Cache.typed_empty r⟩

theorem MadeOn.typed (h : MadeOn r s) (hr : r.Built) : s.Typed r := by
  induction h with
  | new =>
    refine ⟨rfl, fun rule hrule => ?_, Cache.typed_empty r⟩
    rw [List.mem_singleton.1 hrule]
    exact typed_preStyle r
  | parse _ source ih => exact ih.parse hr source
  | resolve _ t node ih => exact (ih.resolve t node).2
  | forget _ ih => exact ih.forget

end StyleSheet

/-! ### Sets of stylesheets -/

namespace SheetSet

/-- A set of stylesheets with one registry, whatever it and they were asked. -/
inductive MadeOn (r : Registry) : SheetSet → Prop
  | empty : MadeOn r {}
  | push {set : SheetSet} {s : StyleSheet} (h : MadeOn r set) (hs : s.MadeOn r) :
    MadeOn r (set.push s)
  | resolve {set : SheetSet} (h : MadeOn r set) (t : StyleTree) (node : Nat) :
    MadeOn r (set.resolve t node).2
  | forget {set : SheetSet} (h : MadeOn r set) : MadeOn r set.forget
  | resolveMember {set : SheetSet} (h : MadeOn r set) {k : Nat} {s : StyleSheet}
    (hs : set.sheets[k]? = some s) (t : StyleTree) (node : Nat) :
    MadeOn r { set with sheets := set.sheets.set k (s.resolve t node).2 }
  | forgetMember {set : SheetSet} (h : MadeOn r set) {k : Nat} {s : StyleSheet}
    (hs : set.sheets[k]? = some s) : MadeOn r { set with sheets := set.sheets.set k s.forget }

/-- What the stylesheets set and what is remembered fits. -/
structure Typed (r : Registry) (set : SheetSet) : Prop where
  sheets : ∀ s ∈ set.sheets, s.Typed r
  cache : Cache.Typed r set.cache

variable {r : Registry} {set : SheetSet}

theorem typed_mergeAll {styles : List Style} (h : ∀ style ∈ styles, style.Typed r) :
    ∀ style ∈ mergeAll styles, style.Typed r := by
  intro style hstyle
  cases styles with
  | nil => nomatch hstyle
  | cons first others =>
    obtain ⟨hfirst, hothers⟩ := List.forall_mem_cons.1 h
    obtain rfl := Option.some.inj hstyle
    exact Style.typed_merge others hfirst hothers

theorem Typed.resolve (h : set.Typed r) (t : StyleTree) (node : Nat) :
    (∀ style ∈ (set.resolve t node).1, style.Typed r) ∧ (set.resolve t node).2.Typed r := by
  have hmerged : ∀ style ∈ mergeAll (resolveEach t node set.sheets).1, style.Typed r := by
    refine typed_mergeAll fun style hstyle => ?_
    rw [resolveEach_eq] at hstyle
    obtain ⟨s, hs, hstyle⟩ := List.mem_flatMap.1 hstyle
    exact ((h.sheets s hs).resolve t node).1 style (Option.mem_toList.1 hstyle)
  have hsheets : ∀ s ∈ (resolveEach t node set.sheets).2, s.Typed r := by
    intro s' hs'
    rw [resolveEach_eq] at hs'
    obtain ⟨s, hs, rfl⟩ := List.mem_map.1 hs'
    exact ((h.sheets s hs).resolve t node).2
  unfold SheetSet.resolve
  split
  · next found hfound =>
    exact ⟨fun style hstyle => h.cache _ style (hfound.trans (congrArg some hstyle)), h⟩
  · exact ⟨hmerged, hsheets, h.cache.insert hmerged⟩

theorem Typed.set_sheet (h : set.Typed r) (k : Nat) {s : StyleSheet} (hs : s.Typed r) :
    Typed r { set with sheets := set.sheets.set k s } := by
  refine ⟨fun s' hs' => ?_, h.cache⟩
  rcases List.mem_or_eq_of_mem_set hs' with hs' | rfl
  · exact h.sheets s' hs'
  · exact hs

theorem MadeOn.typed (h : MadeOn r set) (hr : r.Built) : set.Typed r := by
  induction h with
  | empty => exact ⟨fun s hs => (nomatch hs), Cache.typed_empty r⟩
  | @push set s _ hs ih =>
    refine ⟨fun s' hs' => ?_, Cache.typed_empty r⟩
    rcases List.mem_append.1 hs' with hs' | hs'
    · exact ih.sheets s' hs'
    · rw [List.mem_singleton.1 hs']
      exact hs.typed hr
  | resolve _ t node ih => exact (ih.resolve t node).2
  | forget _ ih =>
    refine ⟨fun s' hs' => ?_, Cache.typed_empty r⟩
    obtain ⟨s, hs, rfl⟩ := List.mem_map.1 hs'
    exact (ih.sheets s hs).forget
  | resolveMember _ hs t node ih =>
    exact ih.set_sheet _ ((ih.sheets _ (List.mem_of_getElem? hs)).resolve t node).2
  | forgetMember _ hs ih => exact ih.set_sheet _ (ih.sheets _ (List.mem_of_getElem? hs)).forget

end SheetSet

/-! ### Resolved values -/

namespace Resolver

/-- Nothing, a stylesheet or a set, with one registry. -/
inductive MadeOn (r : Registry) : Resolver → Prop
  | absent : MadeOn r .absent
  | sheet {s : StyleSheet} (h : s.MadeOn r) : MadeOn r (.sheet s)
  | set {set : SheetSet} (h : set.MadeOn r) : MadeOn r (.set set)

/-- A resolver gives nodes only styles that fit. -/
theorem MadeOn.typed {r : Registry} (hr : r.Built) {resolver : Resolver} (h : resolver.MadeOn r)
    (t : StyleTree) (node : Nat) : ∀ style ∈ (resolver.resolve t node).1, style.Typed r := by
  cases h with
  | absent => exact fun style hstyle => nomatch hstyle
  | sheet h => exact ((h.typed hr).resolve t node).1
  | set h => exact ((h.typed hr).resolve t node).1

end Resolver

namespace StyleTree

variable {r : Registry} {t : StyleTree} {resolver : Resolver}

/-- What a node has of its own fits, be it set on it or given by a rule. -/
theorem typed_ownValue (ht : t.Typed r)
    (hresolver : ∀ node, ∀ style ∈ (resolver.resolve t node).1, style.Typed r) {i node : Nat}
    {v : Value} (hv : t.ownValue resolver i node = some v) : r.check i v = .ok () := by
  unfold ownValue at hv
  split at hv
  · next hraw =>
    obtain rfl := Option.some.inj hv
    exact ht.raw node i _ hraw
  · obtain ⟨style, hstyle, hvalue⟩ := Option.bind_eq_some_iff.1 hv
    exact hresolver node style hstyle i v hvalue
  · nomatch hv

/-- What does not exist is not inherited, and has no value. -/
theorem getValue_of_none (ht : t.Typed r)
    (hresolver : ∀ node, ∀ style ∈ (resolver.resolve t node).1, style.Typed r) {i : Nat}
    (hi : r.get? i = none) (node : Nat) : (t.getValue node i resolver).1 = none := by
  have hnone : (t.registry.get? i) = none := ht.registry ▸ hi
  have hown : t.ownValue resolver i node = none := by
    refine Option.eq_none_iff_forall_ne_some.2 fun v hv => ?_
    obtain ⟨a, ha, -⟩ := Registry.exists_of_check (typed_ownValue ht hresolver hv)
    rw [hi] at ha
    nomatch ha
  have hhere : t.getValue node i = t.valueHere node i := by
    unfold getValue owner
    rw [if_neg (by simp [Registry.isInherited, hnone])]
    rfl
  rw [hhere, (answers_valueHere resolver i node).result, hown, hnone]
  rfl

end StyleTree

/-- **Values are of the types of their attributes.** Ordinals are given in the order of
registration. What an attribute is resolved to, for any node of any tree and by any
stylesheet or set with the same registry, is a value of its type, which everyone gets
who reads a value of that type; there is none only if the attribute has no default. And
the writes whose results no one looks at all succeed. -/
theorem values_typed (registrations : List Registration) :
    let r := Registry.of registrations
    (r.attributes = Standard.attributes ++ registrations.map Registration.attribute ∧
      ∀ k ≤ registrations.length, (Registry.of (registrations.take k)).size = 33 + k) ∧
    (∀ t : StyleTree, t.MadeOn r → ∀ resolver : Resolver, resolver.MadeOn r → ∀ node i : Nat,
      (∀ v, (t.getValue node i resolver).1 = some v →
        ∃ a, r.get? i = some a ∧ v.type = a.type ∧
          ∀ kind : Kind, kind.type = a.type → (t.getKind node i kind resolver).1 = some v) ∧
      ((t.getValue node i resolver).1 = none → ∀ a, r.get? i = some a → a.default = none)) ∧
    ∀ acc : Style,
      (∃ s, acc.put r Standard.preformatted (.flag true) = .ok s) ∧
      (∀ declarations, ∀ entry ∈ (StyleSheet.blockStyle r declarations).2.toList,
        ∀ twin ∈ r.hover? entry.1, ∃ s, acc.put r twin entry.2 = .ok s) ∧
      ∀ t : StyleTree, t.MadeOn r → ∀ node, ∀ entry ∈ (t.raw node).toList,
        ∃ s, acc.put r entry.1 entry.2 = .ok s := by
  intro r
  have hr : r.Built := .registerAll registrations .standard
  refine ⟨⟨Registry.attributes_of registrations, fun k hk => ?_⟩, ?_, fun acc => ⟨?_, ?_, ?_⟩⟩
  · rw [Registry.size_of, List.length_take, Nat.min_eq_left hk]
  · intro t ht resolver hresolver node i
    have hstyles := hresolver.typed hr t
    cases hi : r.get? i with
    | none =>
      rw [StyleTree.getValue_of_none ht.typed hstyles hi]
      exact ⟨fun _ hv => (nomatch hv), fun _ _ ha => (nomatch ha)⟩
    | some a =>
      have htree : t.registry.get? i = some a := ht.typed.registry ▸ hi
      have hvalue := (StyleTree.answers_getValue resolver htree node).result
      have htyped : ∀ v, (t.getValue node i resolver).1 = some v → v.type = a.type := by
        intro v hv
        rw [hvalue] at hv
        rcases Option.or_eq_some_iff.1 hv with hown | ⟨-, hdefault⟩
        · obtain ⟨a', ha', htype⟩ :=
            Registry.exists_of_check (StyleTree.typed_ownValue ht.typed hstyles hown)
          rwa [Option.some.inj (hi.symm.trans ha')]
        · exact a.default_type v hdefault
      refine ⟨fun v hv => ⟨a, rfl, htyped v hv, fun kind hkind => ?_⟩, fun hnone a' ha' => ?_⟩
      · show kind.readOrInitial (t.getValue node i resolver).1 = some v
        rw [hv, Kind.readOrInitial, Kind.read_some ((htyped v hv).trans hkind.symm), Option.getD_some]
      · obtain rfl := Option.some.inj ha'
        rw [hvalue] at hnone
        exact (Option.or_eq_none_iff.1 hnone).2
  · exact StyleSheet.exists_put_preRule r acc
  · intro declarations entry hentry twin htwin
    have hchecked := StyleSheet.typed_blockStyle r declarations _ _ (Style.mem_toList.1 hentry)
    exact ⟨_, Style.put_of_check (hr.check_twin htwin hchecked) acc⟩
  · exact fun t ht node entry hentry => (ht.typed.raw node).exists_put hentry acc

/-- The height of lines. -/
def lineHeight : Registration := ⟨"line-height", true, ⟨.length, false⟩, some (.length (.px 16))⟩

def lowLines : Style := ⟨some ((Style.empty.room 34).set 33 (some (.length (.px 3))))⟩

/-- A paragraph of low lines. -/
def lowParagraph : StyleTree :=
  (StyleTree.empty 1 (.of [lineHeight])).push none (some (.of "p" none none)) lowLines

theorem lowParagraph_madeOn : lowParagraph.MadeOn (.of [lineHeight]) :=
  (StyleTree.MadeOn.empty 1).push none _ (Style.MadeOn.empty.put (Style.put_of_check rfl .empty))

/-- A stylesheet for all lines, in a set. -/
def lineSet : SheetSet :=
  SheetSet.push {} ((StyleSheet.new (.of [lineHeight])).parseString "p \x7b tab-size: 3 \x7d").2

theorem lineSet_madeOn : (Resolver.set lineSet).MadeOn (.of [lineHeight]) :=
  .set (SheetSet.MadeOn.empty.push (StyleSheet.MadeOn.new.parse _))

theorem values_typed_lineHeight :
    lowParagraph.MadeOn (.of [lineHeight]) ∧ (Resolver.set lineSet).MadeOn (.of [lineHeight]) ∧
      (lowParagraph.getValue 0 33 (.set lineSet)).1 = some (.length (.px 3)) ∧
      (lowParagraph.getKind 0 33 ⟨.length, true⟩ (.set lineSet)).1 = some (.length (.px 3)) := by
  have hown : lowParagraph.ownValue (.set lineSet) 33 0 = some (.length (.px 3)) := by
    unfold StyleTree.ownValue
    rfl
  have hline : lowParagraph.registry.get? 33 = some lineHeight.attribute := rfl
  have hset : (lowParagraph.getValue 0 33 (.set lineSet)).1 = some (.length (.px 3)) := by
    have hinherited : lineHeight.attribute.inherited = true := rfl
    rw [(StyleTree.answers_getValue (.set lineSet) hline 0).result, if_pos hinherited,
      StyleTree.source_of_none _ _ rfl, hown]
    rfl
  have hlaw := (values_typed [lineHeight]).2.1 _ lowParagraph_madeOn _ lineSet_madeOn 0 33
  obtain ⟨a, ha, -, hkind⟩ := hlaw.1 _ hset
  obtain rfl := Option.some.inj (hline.symm.trans ha)
  exact ⟨lowParagraph_madeOn, lineSet_madeOn, hset, hkind ⟨.length, true⟩ rfl⟩

end RichText
