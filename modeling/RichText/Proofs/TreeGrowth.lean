/-
# Trees grow behind their nodes

All that is ever done to a tree is to add nodes to it, so a node keeps its
parent, its key and its values (`StyleTree.Grows`). The keys upward from a node
are therefore settled once the node is there (`Grows.keysAbove_eq`), and so is
whatever is computed from them.

Key definitions: `StyleTree.Grows`.
Key theorems: `grows_push`, `grows_deriveWith`, `grows_withoutNonInheritable`,
`Grows.keysAbove_eq`.
-/
import RichText.StyleTree

namespace RichText
namespace StyleTree

/-- A later state of a tree. -/
structure Grows (t t' : StyleTree) : Prop where
  id_eq : t'.id = t.id
  registry_eq : t'.registry = t.registry
  size_le : t.size ≤ t'.size
  node?_eq : ∀ i, i < t.size → t'.node? i = t.node? i

theorem Grows.refl (t : StyleTree) : Grows t t := ⟨rfl, rfl, Nat.le_refl _, fun _ _ => rfl⟩

theorem grows_push (t : StyleTree) (parent : Option Nat) (key : Option Key) (raw : Style) :
    Grows t (t.push parent key raw) := by
  refine ⟨rfl, rfl, ?_, fun i hi => ?_⟩
  · simp [push, size]
  · rw [node?_push, if_neg (Nat.ne_of_lt hi)]

theorem grows_deriveWith {t t' : StyleTree} {i ordinal n : Nat} {v : Option Value}
    (h : t.deriveWith i ordinal v = .ok (n, t')) : Grows t t' := by
  unfold deriveWith at h
  cases hw : (t.raw i).write t.registry ordinal v with
  | error e => simp [hw, Except.map] at h
  | ok raw =>
    simp only [hw, Except.map, Except.ok.injEq, Prod.mk.injEq] at h
    rw [← h.2]
    exact grows_push t _ _ _

theorem grows_withoutNonInheritable (t : StyleTree) (i : Nat) :
    Grows t (t.withoutNonInheritable i).2 := by
  unfold withoutNonInheritable
  split
  · exact Grows.refl t
  · exact grows_push t _ _ _

/-- The keys from a node upward, by its parent. -/
theorem keysAbove_eq (t : StyleTree) (i : Nat) :
    t.keysAbove i = (t.key? i).toList ++ (t.parent? i).elim [] t.keysAbove := by
  unfold keysAbove
  rw [ancestors]
  split
  · next h => cases hk : t.key? i <;> simp [h, hk]
  · next p h => cases hk : t.key? i <;> simp [h, hk]

/-- What grows above a node leaves the keys upward from it alone. -/
theorem Grows.keysAbove_eq {t t' : StyleTree} (h : Grows t t') (i : Nat) (hi : i < t.size) :
    t'.keysAbove i = t.keysAbove i := by
  induction i using Nat.strongRecOn with
  | ind i ih =>
    have hkey : t'.key? i = t.key? i := by simp only [key?, h.node?_eq i hi]
    have hparent : t'.parent? i = t.parent? i := by simp only [parent?, h.node?_eq i hi]
    rw [StyleTree.keysAbove_eq t', StyleTree.keysAbove_eq t, hkey, hparent]
    cases hp : t.parent? i with
    | none => rfl
    | some p =>
      have hlt := lt_of_parent? hp
      simp only [Option.elim_some, ih p hlt (Nat.lt_trans hlt hi)]

end StyleTree
end RichText
