/-
# Where the value of an attribute comes from

A node has a value of its own for an attribute when one is set on it, or else
when the style that the resolver gives its key has one (`ownValue`). An
attribute that is not inherited is read from the node; an inherited one from
the first node upward that has a value of its own, and from the root if there
is none (`source`). `StyleTree.resolution` says that this is what the two
passes over the tree compute.

Both passes ask the resolver, which remembers what it is asked, so each runs
on another resolver than the one before. But a question about one node changes
no answer about a node of the same tree (`Resolver.resolve_resolve`), whatever
is remembered: all that is asked on the way are the answers of the resolver at
the beginning (`Answers`).

Key definitions: `StyleTree.ownValue`, `StyleTree.root`, `StyleTree.source`,
`Resolver.Answers`.
Key theorems: `Resolver.resolve_resolve`, `StyleTree.answers_owner`,
`StyleTree.answers_getValue`, `StyleTree.resolution`.
-/
import RichText.Resolver

namespace RichText

/-! ### Asking about one node and then about another -/

/-- What is remembered outweighs what would be computed. -/
theorem StyleSheet.resolve_fst (s : StyleSheet) (t : StyleTree) (node : Nat) :
    (s.resolve t node).1 = (s.cache[(t.id, node)]?).getD (s.compute t node) := by
  unfold resolve
  split
  · next h => rw [h, Option.getD_some]
  · next h => rw [h, Option.getD_none]

theorem StyleSheet.resolve_resolve (s : StyleSheet) (t : StyleTree) (m n : Nat) :
    ((s.resolve t m).2.resolve t n).1 = (s.resolve t n).1 := by
  cases hm : s.cache[(t.id, m)]? with
  | some style =>
    have hsame : (s.resolve t m).2 = s := by simp only [resolve, hm]
    rw [hsame]
  | none =>
    have hgrown : (s.resolve t m).2 =
        { s with cache := s.cache.insert (t.id, m) (s.compute t m) } := by
      simp only [resolve, hm]
    have hcompute : ∀ cache : Cache, StyleSheet.compute { s with cache } t n = s.compute t n :=
      fun _ => rfl
    rw [hgrown, resolve_fst, resolve_fst, hcompute, Std.HashMap.getElem?_insert]
    by_cases hmn : m = n
    · subst hmn
      simp [hm]
    · have hne : ¬ (t.id, m) = (t.id, n) := fun h => hmn (Prod.mk.inj h).2
      rw [if_neg (by simpa using hne)]

theorem SheetSet.resolveEach_eq (t : StyleTree) (node : Nat) : ∀ sheets : List StyleSheet,
    resolveEach t node sheets =
      (sheets.flatMap fun s => (s.resolve t node).1.toList,
        sheets.map fun s => (s.resolve t node).2)
  | [] => rfl
  | s :: sheets => by
    simp only [resolveEach, resolveEach_eq t node sheets, List.flatMap_cons, List.map_cons]

theorem SheetSet.resolve_fst (set : SheetSet) (t : StyleTree) (node : Nat) :
    (set.resolve t node).1 =
      (set.cache[(t.id, node)]?).getD
        (mergeAll (set.sheets.flatMap fun s => (s.resolve t node).1.toList)) := by
  unfold resolve
  split
  · next h => rw [h, Option.getD_some]
  · next h => rw [h, Option.getD_none, resolveEach_eq]

theorem SheetSet.resolve_resolve (set : SheetSet) (t : StyleTree) (m n : Nat) :
    ((set.resolve t m).2.resolve t n).1 = (set.resolve t n).1 := by
  cases hm : set.cache[(t.id, m)]? with
  | some style =>
    have hsame : (set.resolve t m).2 = set := by simp only [resolve, hm]
    rw [hsame]
  | none =>
    have hasked : (set.resolve t m).2 =
        ⟨set.sheets.map fun s => (s.resolve t m).2,
          set.cache.insert (t.id, m)
            (mergeAll (set.sheets.flatMap fun s => (s.resolve t m).1.toList))⟩ := by
      simp only [resolve, hm, resolveEach_eq]
    rw [hasked, resolve_fst, resolve_fst, Std.HashMap.getElem?_insert, List.flatMap_map]
    simp only [StyleSheet.resolve_resolve]
    by_cases hmn : m = n
    · subst hmn
      simp [hm]
    · have hne : ¬ (t.id, m) = (t.id, n) := fun h => hmn (Prod.mk.inj h).2
      rw [if_neg (by simpa using hne)]

/-- **Questions do not disturb one another.** Asked about one node of a tree, a
resolver answers about every node of it as before. -/
theorem Resolver.resolve_resolve (r : Resolver) (t : StyleTree) (m n : Nat) :
    ((r.resolve t m).2.resolve t n).1 = (r.resolve t n).1 := by
  cases r with
  | absent => rfl
  | sheet s => exact s.resolve_resolve t m n
  | set s => exact s.resolve_resolve t m n

/-! ### Computations that ask -/

/-- The resolver `r'` answers as `r` does about every node of a tree. -/
def Resolver.Alike (t : StyleTree) (r r' : Resolver) : Prop :=
  ∀ node, (r'.resolve t node).1 = (r.resolve t node).1

/-- A computation has the result `a` whenever the resolver answers as `r` does,
and leaves a resolver that answers so. -/
def Resolver.Answers {α : Type} (t : StyleTree) (r : Resolver) (x : StateM Resolver α) (a : α) :
    Prop :=
  ∀ r', Alike t r r' → (x r').1 = a ∧ Alike t r (x r').2

namespace Resolver.Answers

variable {α β : Type} {t : StyleTree} {r : Resolver}

theorem result {x : StateM Resolver α} {a : α} (h : Answers t r x a) : (x r).1 = a :=
  (h r fun _ => rfl).1

theorem pure (a : α) : Answers t r (Pure.pure a) a := fun _ h => ⟨rfl, h⟩

theorem bind {x : StateM Resolver α} {f : α → StateM Resolver β} {a : α} {b : β}
    (hx : Answers t r x a) (hf : Answers t r (f a) b) : Answers t r (x >>= f) b := by
  intro r' hr'
  obtain ⟨hres, halike⟩ := hx r' hr'
  have hrun : (x >>= f) r' = f a (x r').2 := by rw [← hres]; rfl
  rw [hrun]
  exact hf _ halike

theorem resolve (t : StyleTree) (r : Resolver) (node : Nat) :
    Answers t r (Resolver.resolve t node) (r.resolve t node).1 :=
  fun r' hr' => ⟨hr' node, fun n => by rw [resolve_resolve, hr' n]⟩

end Resolver.Answers

/-! ### The rule of inheritance -/

namespace StyleTree

open Resolver (Answers)

/-- The value that a node has of its own: the one set on it, or else the one in
the style that the resolver gives its key. -/
def ownValue (t : StyleTree) (r : Resolver) (ordinal node : Nat) : Option Value :=
  match (t.raw node).get? ordinal, t.key? node with
  | some v, _ => some v
  | none, some _ => (r.resolve t node).1.bind (·.get? ordinal)
  | none, none => none

theorem ancestors_ne_nil (t : StyleTree) (node : Nat) : t.ancestors node ≠ [] := by
  rw [ancestors]
  split <;> simp

/-- The last node on the way up. -/
def root (t : StyleTree) (node : Nat) : Nat := (t.ancestors node).getLast (t.ancestors_ne_nil node)

/-- The first node on the way up that has a value of its own, or the root. -/
def source (t : StyleTree) (r : Resolver) (ordinal node : Nat) : Nat :=
  ((t.ancestors node).find? fun n => (t.ownValue r ordinal n).isSome).getD (t.root node)

variable {t : StyleTree}

theorem ancestors_of_none {node : Nat} (h : t.parent? node = none) : t.ancestors node = [node] := by
  rw [ancestors]
  split
  · rfl
  · next hp => rw [h] at hp; contradiction

theorem ancestors_of_some {node p : Nat} (h : t.parent? node = some p) :
    t.ancestors node = node :: t.ancestors p := by
  rw [ancestors]
  split
  · next hp => rw [h] at hp; contradiction
  · next q hq =>
    rw [h] at hq
    rw [Option.some.inj hq]

theorem root_of_some {node p : Nat} (h : t.parent? node = some p) : t.root node = t.root p := by
  simp only [root, ancestors_of_some h, List.getLast_cons (t.ancestors_ne_nil p)]

variable (r : Resolver) (ordinal : Nat)

theorem source_of_none {node : Nat} (h : t.parent? node = none) :
    t.source r ordinal node = node := by
  simp only [source, root, ancestors_of_none h, List.getLast_singleton, List.find?_singleton]
  split <;> rfl

theorem source_of_own {node : Nat} (h : (t.ownValue r ordinal node).isSome) :
    t.source r ordinal node = node := by
  have hfirst : (t.ancestors node).head? = some node := by
    rw [ancestors]
    split <;> rfl
  obtain ⟨rest, hrest⟩ := List.head?_eq_some_iff.1 hfirst
  simp only [source, hrest, List.find?_cons, h, Option.getD_some]

/-- A node without a value of its own has the source of its parent. -/
theorem source_of_some {node p : Nat} (h : t.parent? node = some p)
    (hown : t.ownValue r ordinal node = none) : t.source r ordinal node = t.source r ordinal p := by
  simp only [source, root_of_some h, ancestors_of_some h, List.find?_cons, hown, Option.isSome_none]

/-! ### What the passes compute -/

/-- Where nothing is set on a node, its own value is what the rules give. -/
theorem answers_cascaded {node : Nat} (hraw : (t.raw node).get? ordinal = none) :
    Answers t r (t.cascaded node ordinal) (t.ownValue r ordinal node) := by
  unfold cascaded ownValue
  rw [hraw]
  cases hkey : t.key? node with
  | none => exact Answers.pure none
  | some key => exact (Answers.resolve t r node).bind (Answers.pure _)

theorem answers_nearestOwner (node : Nat) :
    Answers t r (t.nearestOwner node ordinal) (t.source r ordinal node) := by
  induction node using Nat.strongRecOn with
  | ind node ih =>
    rw [nearestOwner]
    split
    · next h =>
      rw [source_of_none r ordinal h]
      exact Answers.pure node
    · next p h =>
      split
      · next hraw =>
        obtain ⟨v, hv⟩ := Option.isSome_iff_exists.1 hraw
        have hown : (t.ownValue r ordinal node).isSome := by simp [ownValue, hv]
        rw [source_of_own r ordinal hown]
        exact Answers.pure node
      · next hraw =>
        -- The question leaves another resolver, but one that answers the parent as this one.
        have hnone := Option.not_isSome_iff_eq_none.1 hraw
        refine (answers_cascaded r ordinal hnone).bind ?_
        cases hown : t.ownValue r ordinal node with
        | some v =>
          rw [source_of_own r ordinal (Option.isSome_of_eq_some hown)]
          exact Answers.pure node
        | none =>
          rw [source_of_some r ordinal h hown]
          exact ih p (lt_of_parent? h)

theorem answers_valueHere (node : Nat) :
    Answers t r (t.valueHere node ordinal)
      ((t.ownValue r ordinal node).or ((t.registry.get? ordinal).bind (·.default))) := by
  unfold valueHere
  cases hraw : (t.raw node).get? ordinal with
  | some v =>
    have hown : t.ownValue r ordinal node = some v := by simp [ownValue, hraw]
    rw [hown]
    exact Answers.pure _
  | none => exact (answers_cascaded r ordinal hraw).bind (Answers.pure _)

variable {ordinal} {a : Attribute} (ha : t.registry.get? ordinal = some a)
include ha

theorem answers_owner (node : Nat) :
    Answers t r (t.owner node ordinal) (if a.inherited then t.source r ordinal node else node) := by
  have hinherited : t.registry.isInherited ordinal = a.inherited := by
    simp [Registry.isInherited, ha]
  unfold owner
  rw [hinherited]
  split
  · exact answers_nearestOwner r ordinal node
  · exact Answers.pure node

theorem answers_getValue (node : Nat) :
    Answers t r (t.getValue node ordinal)
      ((t.ownValue r ordinal (if a.inherited then t.source r ordinal node else node)).or
        a.default) := by
  have hvalue := answers_valueHere (t := t) r ordinal
    (if a.inherited then t.source r ordinal node else node)
  rw [ha, Option.bind_some] at hvalue
  exact (answers_owner r ha node).bind hvalue

/-- **The rule of inheritance.** An attribute that is not inherited belongs to
the node itself, an inherited one to the first node upward that has a value of
its own, or to the root; and its value is the own value there, or the default.
So a node that has a parent but no value of its own inherits what its parent
has. -/
theorem resolution (node : Nat) :
    (a.inherited = false →
      (t.owner node ordinal r).1 = node ∧
        (t.getValue node ordinal r).1 = (t.ownValue r ordinal node).or a.default) ∧
    (a.inherited = true →
      (t.owner node ordinal r).1 = t.source r ordinal node ∧
        (t.getValue node ordinal r).1 =
          (t.ownValue r ordinal (t.source r ordinal node)).or a.default ∧
        ∀ p, t.parent? node = some p → t.ownValue r ordinal node = none →
          (t.owner node ordinal r).1 = (t.owner p ordinal r).1 ∧
            (t.getValue node ordinal r).1 = (t.getValue p ordinal r).1) := by
  have howner := fun n => (answers_owner r ha n).result
  have hvalue := fun n => (answers_getValue r ha n).result
  refine ⟨fun hi => ?_, fun hi => ?_⟩
  · rw [howner, hvalue, hi]
    exact ⟨rfl, rfl⟩
  · simp only [howner, hvalue, hi, if_true, true_and]
    intro p hp hown
    rw [source_of_some r ordinal hp hown]
    exact ⟨rfl, rfl⟩

end StyleTree

/-- A paragraph, a node without a key in it, and an emphasis in that. -/
def emphasis : StyleTree :=
  (((StyleTree.empty 1 .standard).push none (some (.of "p" none none)) .empty).push
    (some 0) none .empty).push (some 1) (some (.of "em" none none)) .empty

/-- A stylesheet that has not been asked yet. -/
def tabStops : StyleSheet :=
  ((StyleSheet.new .standard).parse (.ofString "p \x7b tab-size: 3 \x7d")).2.forget

namespace StyleTree

theorem resolution_emphasis :
    ∃ a, emphasis.registry.get? Standard.tabSize = some a ∧ a.inherited = true ∧
      emphasis.parent? 2 = some 1 ∧
      emphasis.ownValue (.sheet tabStops) Standard.tabSize 2 = none ∧
      (emphasis.owner 2 Standard.tabSize (.sheet tabStops)).1 =
        (emphasis.owner 1 Standard.tabSize (.sheet tabStops)).1 ∧
      (emphasis.getValue 2 Standard.tabSize (.sheet tabStops)).1 = some (.integer 3) := by
  have hown : ∀ node, emphasis.ownValue (.sheet tabStops) Standard.tabSize node =
      match (emphasis.raw node).get? Standard.tabSize, emphasis.key? node with
      | some v, _ => some v
      | none, some _ => (tabStops.compute emphasis node).bind (·.get? Standard.tabSize)
      | none, none => none := by
    intro node
    have hanswer : ((Resolver.sheet tabStops).resolve emphasis node).1 =
        tabStops.compute emphasis node := by
      refine (tabStops.resolve_fst emphasis node).trans ?_
      rw [show tabStops.cache = ∅ from rfl, Std.HashMap.getElem?_empty, Option.getD_none]
    simp only [ownValue, hanswer]
  have h0 : emphasis.ownValue (.sheet tabStops) Standard.tabSize 0 = some (.integer 3) := by
    rw [hown]
    decide +kernel
  have h1 : emphasis.ownValue (.sheet tabStops) Standard.tabSize 1 = none := by
    rw [hown]
    decide +kernel
  have h2 : emphasis.ownValue (.sheet tabStops) Standard.tabSize 2 = none := by
    rw [hown]
    decide +kernel
  have law := fun node =>
    (@resolution emphasis (.sheet tabStops) Standard.tabSize _ rfl node).2 rfl
  have hup := (law 2).2.2 1 rfl h2
  have hsource : emphasis.source (.sheet tabStops) Standard.tabSize 1 = 0 := by
    rw [source_of_some _ _ rfl h1, source_of_own _ _ (by rw [h0]; rfl)]
  refine ⟨_, rfl, rfl, rfl, h2, hup.1, ?_⟩
  rw [hup.2, (law 1).2.1, hsource, h0]
  rfl

end StyleTree

end RichText
