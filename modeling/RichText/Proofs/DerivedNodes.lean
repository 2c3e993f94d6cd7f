/-
# Derived nodes differ only where asked

A node that is derived from another stands in the same place: it has the parent and
the key of the other, so the same keys are above it and the rules give it the same
style, although nothing that is remembered is remembered for it. Its values are
therefore those of the other node wherever the same is set on both
(`SamePlace.getValue_eq`). `StyleTree.derived_nodes` says so of both ways to derive a
node, and that the nodes that were there before keep all they have.

A value is looked for on the way up: it is what the node has of its own or, if the
attribute is inherited, what is found at its parent (`found_eq`). This one equation
carries the inductions, and holds for ordinals that the registry does not know, too.

Key definitions: `StyleTree.found`, `StyleTree.SamePlace`, `StyleTree.bare`,
`StyleTree.tryDerive`, `Resolver.Asked`.
Key theorems: `found_eq`, `SamePlace.getValue_eq`, `get?_inheritedPart`,
`StyleTree.derived_nodes`.
-/
import RichText.Proofs.TypedValues

namespace RichText

/-! ### What resolvers look at -/

namespace Resolver

variable {t t' : StyleTree} {i n : Nat}

/-- What is computed for a node depends on the keys upward from it. -/
theorem compute_congr (h : t'.keysAbove n = t.keysAbove i) (r : Resolver) :
    r.compute t' n = r.compute t i := by
  have hsheet : ∀ s : StyleSheet, s.compute t' n = s.compute t i := fun s => by
    unfold StyleSheet.compute StyleSheet.matching
    rw [h]
  cases r with
  | absent => rfl
  | sheet s => exact hsheet s
  | set set =>
    show set.compute t' n = set.compute t i
    simp only [SheetSet.compute, hsheet]

theorem compute_of_forget_eq {r r' : Resolver} (h : r'.forget = r.forget) (t : StyleTree)
    (node : Nat) : r'.compute t node = r.compute t node := by
  cases r <;> cases r' <;> simp only [forget, reduceCtorEq, sheet.injEq, set.injEq] at h
  · rfl
  · next s s' => exact congrFun (congrFun (StyleSheet.compute_of_forget_eq h) t) node
  · next s s' =>
    have hsheets := congrArg SheetSet.sheets h
    exact congrFun (congrFun (SheetSet.compute_of_forget_eq hsheets) t) node

/-- What is answered about a node depends on the name of the tree and on the keys
upward from the node. -/
theorem resolve_congr (hid : t'.id = t.id) (h : t'.keysAbove n = t.keysAbove n) (r : Resolver) :
    (r.resolve t' n).1 = (r.resolve t n).1 := by
  have hsheet : ∀ s : StyleSheet, (s.resolve t' n).1 = (s.resolve t n).1 := fun s => by
    rw [s.resolve_fst, s.resolve_fst, hid]
    exact congrArg _ (compute_congr h (.sheet s))
  cases r with
  | absent => rfl
  | sheet s => exact hsheet s
  | set set =>
    show (set.resolve t' n).1 = (set.resolve t n).1
    rw [set.resolve_fst, set.resolve_fst, hid]
    simp only [hsheet]

/-- A resolver that a program can ask about a tree: none, or one that it holds beside
the tree, in whatever it has done before. -/
inductive Asked (t : StyleTree) : Resolver → Prop
  | absent : Asked t .absent
  | held {w : World} (h : w.Reached) (ht : t ∈ w.trees) {p : Place} {r : Resolver}
    (hr : w.resolver? p = some r) : Asked t r

/-- A stylesheet that has read a text can be asked about any tree. -/
theorem asked_parsed (t : StyleTree) (registry : Registry) (source : ByteSource) :
    (sheet ((StyleSheet.new registry).parse source).2).Asked t := by
  have htree : World.Reached { trees := [t] } := .step .start (.enter t (by simp))
  have hsheet := htree.step (.newSheet registry)
  have hread := hsheet.step (.parse (i := 0) rfl source)
  exact .held (p := .own 0) hread List.mem_cons_self rfl

theorem Asked.honest {r : Resolver} (h : r.Asked t) : r.Honest t := by
  cases h with
  | absent => exact fun _ _ => rfl
  | held h ht hr => exact (h.sound.resolver? hr).honest h.sound.distinct ht

end Resolver

namespace StyleTree

open Resolver (Answers Honest)

variable {t t' : StyleTree} {r r' : Resolver} {o i n : Nat}

/-! ### Looking for a value on the way up -/

/-- The value that is found for a node, before the default counts. -/
def found (t : StyleTree) (r : Resolver) (o node : Nat) : Option Value :=
  t.ownValue r o (if t.registry.isInherited o then t.source r o node else node)

theorem answers_found (t : StyleTree) (r : Resolver) (o node : Nat) :
    Answers t r (t.getValue node o)
      ((t.found r o node).or ((t.registry.get? o).bind (·.default))) := by
  have howner : Answers t r (t.owner node o)
      (if t.registry.isInherited o then t.source r o node else node) := by
    unfold owner
    split
    · exact answers_nearestOwner r o node
    · exact Answers.pure node
  exact howner.bind (answers_valueHere r o _)

theorem getValue_eq_found (t : StyleTree) (r : Resolver) (o node : Nat) :
    (t.getValue node o r).1 =
      (t.found r o node).or ((t.registry.get? o).bind (·.default)) :=
  (answers_found t r o node).result

/-- What is found for a node is its own value, or else, if the attribute is inherited,
what is found for its parent. -/
theorem found_eq (t : StyleTree) (r : Resolver) (o node : Nat) :
    t.found r o node =
      (t.ownValue r o node).or
        (if t.registry.isInherited o then (t.parent? node).bind (t.found r o) else none) := by
  unfold found
  split
  · cases hown : t.ownValue r o node with
    | some v => rw [source_of_own r o (Option.isSome_of_eq_some hown), hown, Option.some_or]
    | none =>
      cases hp : t.parent? node with
      | none => rw [source_of_none r o hp, hown, Option.bind_none, Option.or_none]
      | some p => rw [source_of_some r o hp hown, Option.bind_some, Option.none_or]
  · rw [Option.or_none]

/-! ### Nodes in the same place -/

theorem Grows.parent?_eq (h : t.Grows t') (hi : i < t.size) : t'.parent? i = t.parent? i := by
  simp only [parent?, h.node?_eq i hi]

theorem Grows.key?_eq (h : t.Grows t') (hi : i < t.size) : t'.key? i = t.key? i := by
  simp only [key?, h.node?_eq i hi]

theorem Grows.raw_eq (h : t.Grows t') (hi : i < t.size) : t'.raw i = t.raw i := by
  simp only [raw, h.node?_eq i hi]

/-- Node `n` of a grown tree has the parent and the key that node `i` had before. -/
structure SamePlace (t t' : StyleTree) (i n : Nat) : Prop where
  grows : t.Grows t'
  old_lt : i < t.size
  new_lt : n < t'.size
  parent : t'.parent? n = t.parent? i
  key : t'.key? n = t.key? i

namespace SamePlace

/-- A node stays in its place while the tree grows. -/
theorem refl (h : t.Grows t') (hi : i < t.size) : SamePlace t t' i i :=
  ⟨h, hi, Nat.lt_of_lt_of_le hi h.size_le, h.parent?_eq hi, h.key?_eq hi⟩

/-- Both nodes are in the same place of the grown tree. -/
theorem within (h : SamePlace t t' i n) : SamePlace t' t' i n where
  grows := Grows.refl t'
  old_lt := Nat.lt_of_lt_of_le h.old_lt h.grows.size_le
  new_lt := h.new_lt
  parent := h.parent.trans (h.grows.parent?_eq h.old_lt).symm
  key := h.key.trans (h.grows.key?_eq h.old_lt).symm

/-- The parent is an earlier node, so the filter of `push` keeps it. -/
theorem push (hi : i < t.size) (raw : Style) :
    SamePlace t (t.push (t.parent? i) (t.key? i) raw) i t.size := by
  have hparent : (t.parent? i).filter (· < t.size) = t.parent? i := by
    cases hp : t.parent? i with
    | none => rfl
    | some p =>
      have hlt : p < t.size := Nat.lt_trans (lt_of_parent? hp) hi
      simp [hlt]
  have hnode : (t.push (t.parent? i) (t.key? i) raw).node? t.size =
      some ⟨t.parent? i, t.key? i, raw⟩ := by
    rw [node?_push, if_pos rfl, hparent]
  refine ⟨grows_push t _ _ raw, hi, ?_, congrArg (·.bind (·.parent)) hnode,
    congrArg (·.bind (·.key)) hnode⟩
  simp [StyleTree.push, size]

theorem keysAbove_eq (h : SamePlace t t' i n) : t'.keysAbove n = t.keysAbove i := by
  rw [StyleTree.keysAbove_eq t', StyleTree.keysAbove_eq t, h.parent, h.key]
  cases hp : t.parent? i with
  | none => rfl
  | some p =>
    have hlt := Nat.lt_trans (lt_of_parent? hp) h.old_lt
    simp only [Option.elim_some, h.grows.keysAbove_eq p hlt]

variable (hr : r.Honest t) (hr' : r'.Honest t') (hf : r'.forget = r.forget)
include hr hr' hf

theorem ownValue_eq (h : SamePlace t t' i n) (hraw : (t'.raw n).get? o = (t.raw i).get? o) :
    t'.ownValue r' o n = t.ownValue r o i := by
  have hcompute : r'.compute t' n = r.compute t i :=
    (Resolver.compute_of_forget_eq hf t' n).trans (Resolver.compute_congr h.keysAbove_eq r)
  rw [StyleTree.ownValue_eq hr' h.new_lt, StyleTree.ownValue_eq hr h.old_lt, h.key, hraw,
    hcompute]

theorem found_eq (h : SamePlace t t' i n) (hraw : (t'.raw n).get? o = (t.raw i).get? o) :
    t'.found r' o n = t.found r o i := by
  induction i using Nat.strongRecOn generalizing n with
  | ind i ih =>
    rw [StyleTree.found_eq t', StyleTree.found_eq t, h.ownValue_eq hr hr' hf hraw,
      h.grows.registry_eq, h.parent]
    cases hp : t.parent? i with
    | none => rfl
    | some p =>
      have hlt := lt_of_parent? hp
      have hsize := Nat.lt_trans hlt h.old_lt
      have hsame := ih p hlt (refl h.grows hsize) (by rw [h.grows.raw_eq hsize])
      simp only [Option.bind_some, hsame]

/-- **Where the same is set, the values are the same.** -/
theorem getValue_eq (h : SamePlace t t' i n) (hraw : (t'.raw n).get? o = (t.raw i).get? o) :
    (t'.getValue n o r').1 = (t.getValue i o r).1 := by
  rw [getValue_eq_found, getValue_eq_found, h.found_eq hr hr' hf hraw, h.grows.registry_eq]

end SamePlace

/-- A value that is set on a node is the one it has. -/
theorem getValue_of_raw {v : Value} (h : (t.raw i).get? o = some v) (r : Resolver) :
    (t.getValue i o r).1 = some v := by
  have hown : t.ownValue r o i = some v := by
    unfold ownValue
    rw [h]
  rw [getValue_eq_found, found_eq, hown, Option.some_or, Option.some_or]

/-! ### A node with nothing set on it -/

/-- The tree in which nothing is set on a node. -/
def bare (t : StyleTree) (i : Nat) : StyleTree where
  id := t.id
  registry := t.registry
  nodes := t.nodes.modify i fun node => { node with raw := .empty }
  parent_lt j h p hp := by
    rw [Array.getElem_modify] at hp
    split at hp
    · exact t.parent_lt j _ p hp
    · exact t.parent_lt j _ p hp

theorem node?_bare (t : StyleTree) (i j : Nat) :
    (t.bare i).node? j =
      if i = j then (t.node? j).map fun node => { node with raw := .empty } else t.node? j :=
  Array.getElem?_modify

theorem parent?_bare (t : StyleTree) (i : Nat) : (t.bare i).parent? = t.parent? := by
  funext j
  unfold parent?
  rw [node?_bare]
  split
  · cases t.node? j <;> rfl
  · rfl

theorem key?_bare (t : StyleTree) (i : Nat) : (t.bare i).key? = t.key? := by
  funext j
  unfold key?
  rw [node?_bare]
  split
  · cases t.node? j <;> rfl
  · rfl

theorem raw_bare (t : StyleTree) (i : Nat) : (t.bare i).raw i = .empty := by
  unfold raw
  rw [node?_bare, if_pos rfl]
  cases t.node? i <;> rfl

theorem keysAbove_bare (t : StyleTree) (i : Nat) : (t.bare i).keysAbove = t.keysAbove := by
  funext j
  induction j using Nat.strongRecOn with
  | ind j ih =>
    rw [keysAbove_eq, keysAbove_eq t, key?_bare, parent?_bare]
    cases hp : t.parent? j with
    | none => rfl
    | some p => simp only [Option.elim_some, ih p (lt_of_parent? hp)]

/-- An attribute that is not inherited, and not set on a node, has the value that the
node in the same place has with nothing set on it. -/
theorem SamePlace.getValue_bare (h : SamePlace t t i n) (hr : r.Honest t)
    (ho : t.registry.isInherited o = false) (hraw : (t.raw n).get? o = none) :
    (t.getValue n o r).1 = ((t.bare i).getValue i o r).1 := by
  have hbare : (r.resolve (t.bare i) i).1 = (r.resolve t i).1 :=
    Resolver.resolve_congr (by rfl) (congrFun (keysAbove_bare t i) i) r
  have hanswer : (r.resolve (t.bare i) i).1 = (r.resolve t n).1 := by
    rw [hbare, hr i h.old_lt, hr n h.new_lt]
    exact (r.compute_congr h.keysAbove_eq).symm
  have hown : t.ownValue r o n = (t.bare i).ownValue r o i := by
    unfold ownValue
    rw [hraw, raw_bare, Style.get?_empty, key?_bare, h.key, hanswer]
  have ho' : (t.bare i).registry.isInherited o = false := ho
  rw [getValue_eq_found, getValue_eq_found, StyleTree.found_eq, StyleTree.found_eq (t.bare i), ho,
    ho', hown]
  rfl

/-! ### Deriving nodes -/

/-- A program asks for a derived node: what it is told, and the tree it has then. -/
def tryDerive (t : StyleTree) (i ordinal : Nat) (v : Option Value) :
    Except StyleError Nat × StyleTree :=
  match t.deriveWith i ordinal v with
  | .ok (n, t') => (.ok n, t')
  | .error e => (.error e, t)

theorem tryDerive_eq_ok {ordinal : Nat} {v : Option Value} :
    t.tryDerive i ordinal v = (.ok n, t') ↔ t.deriveWith i ordinal v = .ok (n, t') := by
  unfold tryDerive
  cases t.deriveWith i ordinal v <;> simp [Prod.ext_iff]

theorem tryDerive_eq_error {ordinal : Nat} {v : Option Value} {e : StyleError} :
    t.tryDerive i ordinal v = (.error e, t') ↔
      t' = t ∧ t.deriveWith i ordinal v = .error e := by
  unfold tryDerive
  cases t.deriveWith i ordinal v <;> simp [and_comm, eq_comm]

theorem samePlace_deriveWith {ordinal : Nat} {v : Option Value} (hi : i < t.size)
    (h : t.deriveWith i ordinal v = .ok (n, t')) :
    n = t.size ∧ SamePlace t t' i n ∧
      ∀ o, (t'.raw n).get? o = if o = ordinal then v else (t.raw i).get? o := by
  unfold deriveWith at h
  cases hw : (t.raw i).write t.registry ordinal v with
  | error e =>
    rw [hw] at h
    nomatch h
  | ok raw =>
    rw [hw] at h
    obtain ⟨rfl, rfl⟩ := Prod.mk.inj (Except.ok.inj h)
    refine ⟨rfl, SamePlace.push hi raw, fun o => ?_⟩
    rw [raw_push, if_pos rfl, Style.get?_write hw]

/-- A derivation is refused when its value is not one that the attribute can have. -/
theorem deriveWith_eq_error {ordinal : Nat} {v : Option Value} {e : StyleError} :
    t.deriveWith i ordinal v = .error e ↔
      ∃ x, v = some x ∧ t.registry.check ordinal x = .error e := by
  cases v with
  | none => simp [deriveWith, Style.write, Except.map]
  | some x =>
    cases hc : t.registry.check ordinal x <;>
      simp [deriveWith, Style.write, Style.put, hc, Except.map]

/-- Adds an entry if it is inherited. -/
def putInherited (registry : Registry) (part : Style) (entry : Nat × Value) : Style :=
  if registry.isInherited entry.1 then ((part.put registry entry.1 entry.2).toOption).getD part
  else part

theorem get?_putInherited {registry : Registry} {part : Style} {entry : Nat × Value}
    (h : registry.check entry.1 entry.2 = .ok ()) (o : Nat) :
    (putInherited registry part entry).get? o =
      if registry.isInherited o ∧ o = entry.1 then some entry.2 else part.get? o := by
  unfold putInherited
  split
  · next hinherited =>
    have hput := Style.put_of_check h part
    rw [hput]
    simp only [Except.toOption, Option.getD_some]
    rw [Style.get?_put hput]
    by_cases ho : o = entry.1
    · simp [ho, hinherited]
    · simp [ho]
  · next hinherited =>
    by_cases ho : o = entry.1
    · simp [ho, hinherited]
    · simp [ho]

/-- Behind entries of which no two are for one ordinal stand the inherited ones. -/
theorem get?_foldl_putInherited {registry : Registry} {o : Nat} {v : Value} :
    ∀ {entries : List (Nat × Value)} {part : Style},
      (∀ e ∈ entries, registry.check e.1 e.2 = .ok ()) →
      (∀ e ∈ entries, ∀ e' ∈ entries, e.1 = e'.1 → e.2 = e'.2) →
      ((entries.foldl (putInherited registry) part).get? o = some v ↔
        (registry.isInherited o ∧ (o, v) ∈ entries) ∨
          (¬ (registry.isInherited o ∧ ∃ e ∈ entries, e.1 = o) ∧ part.get? o = some v))
  | [], part, _, _ => by simp
  | e :: entries, part, hcheck, hone => by
    obtain ⟨hv, hothers⟩ := List.forall_mem_cons.1 hcheck
    rw [List.foldl_cons, get?_foldl_putInherited hothers fun e₁ h₁ e₂ h₂ =>
      hone e₁ (.tail _ h₁) e₂ (.tail _ h₂), get?_putInherited hv]
    have hsame := hone e List.mem_cons_self
    by_cases he : registry.isInherited o ∧ o = e.1
    · grind
    · grind

/-- The inherited part has the inherited values and no others. -/
theorem get?_inheritedPart {registry : Registry} {s : Style} (h : s.Typed registry) (o : Nat) :
    (inheritedPart registry s).get? o = if registry.isInherited o then s.get? o else none := by
  have hfold : inheritedPart registry s = s.toList.foldl (putInherited registry) .empty := rfl
  have hcheck : ∀ e ∈ s.toList, registry.check e.1 e.2 = .ok () :=
    fun e he => h _ _ (Style.mem_toList.1 he)
  have hone : ∀ e ∈ s.toList, ∀ e' ∈ s.toList, e.1 = e'.1 → e.2 = e'.2 := by
    rintro ⟨i, v⟩ he ⟨i', v'⟩ he' rfl
    exact Option.some.inj ((Style.mem_toList.1 he).symm.trans (Style.mem_toList.1 he'))
  refine Option.ext fun v => ?_
  rw [hfold, get?_foldl_putInherited hcheck hone, Style.mem_toList, Style.get?_empty]
  split
  · next ho => simp [ho]
  · next ho => simp [ho]

/-- A node keeps its place without what is not inherited, and has the inherited values
that were set on it. -/
theorem samePlace_withoutNonInheritable (hi : i < t.size) (ht : (t.raw i).Typed t.registry) :
    SamePlace t (t.withoutNonInheritable i).2 i (t.withoutNonInheritable i).1 ∧
      ∀ o, ((t.withoutNonInheritable i).2.raw (t.withoutNonInheritable i).1).get? o =
        if t.registry.isInherited o then (t.raw i).get? o else none := by
  unfold withoutNonInheritable
  split
  · next hall =>
    refine ⟨SamePlace.refl (Grows.refl t) hi, fun o => ?_⟩
    split
    · rfl
    · next ho =>
      refine Option.eq_none_iff_forall_ne_some.2 fun v hv => ho ?_
      exact List.all_eq_true.1 hall (o, v) (Style.mem_toList.2 hv)
  · refine ⟨SamePlace.push hi _, fun o => ?_⟩
    rw [raw_push, if_pos rfl, get?_inheritedPart ht]

theorem withoutNonInheritable_fst_eq (hi : i < t.size) :
    (t.withoutNonInheritable i).1 = i ↔
      ∀ o v, (t.raw i).get? o = some v → t.registry.isInherited o = true := by
  have hall : ((t.raw i).toList.all fun entry => t.registry.isInherited entry.1) = true ↔
      ∀ o v, (t.raw i).get? o = some v → t.registry.isInherited o = true := by
    rw [List.all_eq_true]
    exact ⟨fun h o v hv => h (o, v) (Style.mem_toList.2 hv),
      fun h e he => h _ _ (Style.mem_toList.1 he)⟩
  unfold withoutNonInheritable
  split
  · next h => exact iff_of_true rfl (hall.1 h)
  · next h => exact iff_of_false (Nat.ne_of_gt hi) fun h' => h (hall.2 h')

/-- Nodes keep their parents, keys and what is set on them; and what they are resolved to
by rules that stay, whatever is remembered before and after. -/
structure Keeps (t t' : StyleTree) : Prop where
  node?_eq : ∀ m < t.size, t'.node? m = t.node? m
  getValue_eq : ∀ r r' : Resolver, r.Asked t → r'.Asked t' → r'.forget = r.forget →
    ∀ m < t.size, ∀ o, (t'.getValue m o r').1 = (t.getValue m o r).1

theorem Grows.keeps (h : t.Grows t') : t.Keeps t' where
  node?_eq := h.node?_eq
  getValue_eq _ _ hr hr' hf m hm o :=
    (SamePlace.refl h hm).getValue_eq hr.honest hr'.honest hf (by rw [h.raw_eq hm])

/-- **Derived nodes differ only where asked.** A node that is derived with a value for
one attribute has all other values of the node it is derived from, and that value if it
is one; a derivation that is refused, because the attribute cannot have the value, leaves
the tree as it was. Without what is not inherited, a node keeps all inherited values, and
the others are what it would have with nothing set on it; it stays the same node if
nothing else was set on it. Neither changes anything about the nodes that were there. -/
theorem derived_nodes (ht : t.MadeOn t.registry) (hi : i < t.size) :
    (∀ ordinal v,
      (∀ n t', t.tryDerive i ordinal v = (.ok n, t') →
        t.Keeps t' ∧ ∀ r : Resolver, r.Asked t' →
          (∀ o ≠ ordinal, (t'.getValue n o r).1 = (t'.getValue i o r).1) ∧
            ∀ x, v = some x → (t'.getValue n ordinal r).1 = some x) ∧
      ∀ e t', t.tryDerive i ordinal v = (.error e, t') ↔
        t' = t ∧ ∃ x, v = some x ∧ t.registry.check ordinal x = .error e) ∧
    ∀ n t', t.withoutNonInheritable i = (n, t') →
      t.Keeps t' ∧
      (n = i ↔ ∀ o v, (t.raw i).get? o = some v → t.registry.isInherited o = true) ∧
      ∀ r : Resolver, r.Asked t' → ∀ o,
        (t.registry.isInherited o = true → (t'.getValue n o r).1 = (t'.getValue i o r).1) ∧
          (t.registry.isInherited o = false →
            (t'.getValue n o r).1 = ((t'.bare i).getValue i o r).1) := by
  refine ⟨fun ordinal v => ⟨fun n t' h => ?_, fun e t' => ?_⟩, fun n t' h => ?_⟩
  · obtain ⟨-, hplace, hraw⟩ := samePlace_deriveWith hi (tryDerive_eq_ok.1 h)
    refine ⟨hplace.grows.keeps, fun r hr => ⟨fun o ho => ?_, fun x hx => ?_⟩⟩
    · refine hplace.within.getValue_eq hr.honest hr.honest rfl ?_
      rw [hraw, if_neg ho, hplace.grows.raw_eq hi]
    · refine getValue_of_raw ?_ r
      rw [hraw, if_pos rfl, hx]
  · rw [tryDerive_eq_error, deriveWith_eq_error]
  · obtain ⟨hplace, hraw⟩ := samePlace_withoutNonInheritable hi (ht.typed.raw i)
    have hsame := withoutNonInheritable_fst_eq hi
    rw [h] at hplace hraw hsame
    refine ⟨hplace.grows.keeps, hsame, fun r hr o => ⟨fun ho => ?_, fun ho => ?_⟩⟩
    · refine hplace.within.getValue_eq hr.honest hr.honest rfl ?_
      rw [hraw, if_pos ho, hplace.grows.raw_eq hi]
    · refine hplace.within.getValue_bare hr.honest ?_ ?_
      · rw [hplace.grows.registry_eq, ho]
      · rw [hraw, if_neg (by simp [ho])]

/-- A paragraph with a tab size, which is inherited, and a width, which is not. -/
def narrowStyle : Style :=
  let tabbed : Style := ⟨some ((Style.empty.room 33).set Standard.tabSize (some (.integer 7)))⟩
  ⟨some ((tabbed.room 33).set Standard.width (some (.length (.px 4))))⟩

def narrowParagraph : StyleTree :=
  (StyleTree.empty 1 .standard).push none (some (.of "p" none none)) narrowStyle

theorem narrowParagraph_madeOn : narrowParagraph.MadeOn narrowParagraph.registry :=
  (StyleTree.MadeOn.empty 1).push none _
    ((Style.MadeOn.empty.put (Style.put_of_check rfl _)).put (Style.put_of_check rfl _))

theorem derived_nodes_narrow :
    ∃ red other,
      narrowParagraph.tryDerive 0 Standard.color (some (.color ⟨255, 255, 0, 0⟩)) = (.ok 1, red) ∧
      narrowParagraph.withoutNonInheritable 0 = (1, other) ∧
      (red.getValue 1 Standard.color (.sheet paragraphSheet)).1 = some (.color ⟨255, 255, 0, 0⟩) ∧
      (red.getValue 1 Standard.width (.sheet paragraphSheet)).1 = some (.length (.px 4)) ∧
      (other.getValue 1 Standard.tabSize (.sheet paragraphSheet)).1 = some (.integer 7) ∧
      (other.getValue 1 Standard.width (.sheet paragraphSheet)).1 =
        ((other.bare 0).getValue 0 Standard.width (.sheet paragraphSheet)).1 := by
  obtain ⟨hderived, hstripped⟩ := derived_nodes narrowParagraph_madeOn (i := 0) (by decide)
  obtain ⟨-, hred⟩ :=
    (hderived Standard.color (some (.color ⟨255, 255, 0, 0⟩))).1 1 _ rfl
  obtain ⟨-, -, hother⟩ := hstripped 1 _ rfl
  have hasked : ∀ t, (Resolver.sheet paragraphSheet).Asked t :=
    fun t => Resolver.asked_parsed t .standard _
  exact ⟨_, _, rfl, rfl, (hred _ (hasked _)).2 _ rfl,
    ((hred _ (hasked _)).1 Standard.width (by decide)).trans (getValue_of_raw rfl _),
    ((hother _ (hasked _) Standard.tabSize).1 rfl).trans (getValue_of_raw rfl _),
    (hother _ (hasked _) Standard.width).2 rfl⟩

end StyleTree
end RichText
