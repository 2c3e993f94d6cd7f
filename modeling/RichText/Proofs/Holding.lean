/-
# What holds an element

An element is a root, or it is a part of another one: a child, or a cell of a table.
If every element of a store is held once in this way, or else is one of a few that are
held by nothing (`Document.Once`), and if the parts of an element have later nodes
than it has (`Document.Rises`), then the store is a forest: going down from the roots
and from those few reaches every element once (`Document.Once.perm_reach`). An
element is reached as soon as the one that holds it is; how deep that is, is bounded by
the number of elements with earlier nodes.

Key definitions: `Document.held`, `Document.Rises`, `Document.rank`, `Document.Once`,
`Document.reachAll`.
Key theorems: `Document.held_push`, `Document.held_append`,
`Document.Once.perm_reach`, `Document.Once.mem_traverse`,
`Document.Once.depth_traverse`.
-/
import Mathlib
import RichText.Proofs.ElementText

namespace RichText
namespace Document

variable {d d' : Document} {i j : Nat} {tops : List Nat}

/-- The roots, and the parts of all elements. -/
def held (d : Document) : List Nat := d.roots ++ d.elements.toList.flatMap Element.parts

/-- The node of an element. -/
def styleOf (d : Document) (i : Nat) : Nat := ((d.element? i).map (·.style)).getD 0

theorem styleOf_eq {e : Element} (h : d.element? i = some e) : d.styleOf i = e.style := by
  rw [styleOf, h]
  rfl

theorem partsOf_eq {e : Element} (h : d.element? i = some e) : d.partsOf i = e.parts := by
  rw [partsOf, h]
  rfl

theorem lt_size_of_mem_partsOf (h : j ∈ d.partsOf i) : i < d.size := by
  by_contra hi
  rw [partsOf_of_size_le (Nat.le_of_not_lt hi)] at h
  cases h

theorem held_eq (d : Document) : d.held = d.roots ++ (List.range d.size).flatMap d.partsOf := by
  have hparts : (List.range d.size).map d.partsOf = d.elements.toList.map Element.parts := by
    refine List.ext_getElem (by simp [size]) fun i hi hi' => ?_
    have hlt : i < d.elements.size := by simpa using hi'
    simp only [List.getElem_map, List.getElem_range, Array.getElem_toList]
    exact partsOf_eq (Array.getElem?_eq_getElem hlt)
  rw [held, List.flatMap_def, List.flatMap_def, hparts]

/-! ### What changes a store -/

/-- A new element holds its parts. -/
theorem held_push (d : Document) (e : Element) : (d.push e).held = d.held ++ e.parts := by
  simp [held, push, List.flatMap_append]

theorem held_addRoot (d : Document) (i : Nat) : (d.addRoot i).held.Perm (i :: d.held) := by
  show ((d.roots ++ [i]) ++ _).Perm (i :: (d.roots ++ _))
  rw [List.append_assoc]
  exact List.perm_middle

theorem partsOf_append_self {c : Nat} (hc : Holds c d) (i : Nat) :
    (d.append c i).partsOf c = d.partsOf c ++ [i] := by
  obtain ⟨e, he, hchildren⟩ := hc
  have hnew : (d.append c i).element? c = some { e with children := e.children ++ [i] } := by
    rw [element?_append, if_pos rfl, he, Option.map_some, if_pos hchildren]
  rw [partsOf_eq hnew, partsOf_eq he, parts_eq_children hchildren]
  exact parts_eq_children hchildren

/-- An element that can have children gets a part. -/
theorem held_append {c : Nat} (hc : Holds c d) (i : Nat) :
    (d.append c i).held.Perm (i :: d.held) := by
  obtain ⟨e, he, hchildren⟩ := hc
  have hlt : c < d.elements.toList.length := by simpa [size] using lt_size he
  have helement : d.elements.toList[c] = e := by
    rw [Array.getElem_toList]
    exact (Array.getElem?_eq_some_iff.1 he).2
  have hold : d.elements.toList =
      d.elements.toList.take c ++ e :: d.elements.toList.drop (c + 1) := by
    rw [← helement, ← List.drop_eq_getElem_cons hlt, List.take_append_drop]
  have hnew : (d.append c i).elements.toList = d.elements.toList.take c ++
      { e with children := e.children ++ [i] } :: d.elements.toList.drop (c + 1) := by
    rw [append, Array.toList_modify, List.modify_eq_take_cons_drop hlt, helement, if_pos hchildren]
  have hparts : ({ e with children := e.children ++ [i] } : Element).parts = e.parts ++ [i] := by
    rw [parts_eq_children hchildren]
    exact parts_eq_children hchildren
  have hheld := congrArg (List.flatMap Element.parts) hold
  rw [held, held, hheld, hnew, List.perm_iff_count]
  intro x
  simp only [append, List.flatMap_append, List.flatMap_cons, hparts, List.count_append,
    List.count_cons, List.count_nil]
  omega

/-! ### Later nodes -/

/-- Parts have later nodes than what they are parts of. -/
structure Rises (d : Document) : Prop where
  styled : ∀ i e, d.element? i = some e → e.style < d.styles.size
  parts : ∀ i, ∀ part ∈ d.partsOf i, d.styleOf i < d.styleOf part

theorem lt_size_of_styleOf {n : Nat} (h : n < d.styleOf i) : i < d.size := by
  by_contra hi
  rw [styleOf, element?_of_size_le (Nat.le_of_not_lt hi)] at h
  exact Nat.not_lt_zero _ h

theorem styleOf_congr (h : d'.element? i = d.element? i) : d'.styleOf i = d.styleOf i := by
  rw [styleOf, styleOf, h]

theorem Rises.congr (hd : d.Rises) (helements : d'.elements = d.elements)
    (hstyles : d.styles.size ≤ d'.styles.size) : d'.Rises := by
  have hsame (i : Nat) : d'.element? i = d.element? i := by rw [element?, helements]; rfl
  refine ⟨fun i e he => ?_, fun i part hpart => ?_⟩
  · exact Nat.lt_of_lt_of_le (hd.styled i e (hsame i ▸ he)) hstyles
  · rw [partsOf_congr (hsame i)] at hpart
    rw [styleOf_congr (hsame i), styleOf_congr (hsame part)]
    exact hd.parts i part hpart

theorem Rises.push (hd : d.Rises) {e : Element} (hstyle : e.style < d.styles.size)
    (hparts : ∀ part ∈ e.parts, e.style < d.styleOf part) : (d.push e).Rises := by
  have hself : (d.push e).element? d.size = some e := by rw [element?_push, if_pos rfl]
  have hother {i : Nat} (hi : i < d.size) : (d.push e).element? i = d.element? i := by
    rw [element?_push, if_neg (Nat.ne_of_lt hi)]
  refine ⟨fun i e' he => ?_, fun i part hpart => ?_⟩
  · rw [element?_push] at he
    split at he
    · exact Option.some.inj he ▸ hstyle
    · exact hd.styled i e' he
  · have hi := lt_size_of_mem_partsOf hpart
    rw [size_push] at hi
    rcases Nat.lt_succ_iff_lt_or_eq.1 hi with hi | rfl
    · rw [partsOf_congr (hother hi)] at hpart
      have hlt := hd.parts i part hpart
      rwa [styleOf_congr (hother hi), styleOf_congr (hother (lt_size_of_styleOf hlt))]
    · rw [partsOf_eq hself] at hpart
      have hlt := hparts part hpart
      rwa [styleOf_eq hself, styleOf_congr (hother (lt_size_of_styleOf hlt))]

theorem styleOf_append (d : Document) (parent child i : Nat) :
    (d.append parent child).styleOf i = d.styleOf i := by
  rw [styleOf, element?_append]
  split
  · rw [styleOf, Option.map_map]
    congr 2
    funext e
    simp only [Function.comp_apply]
    split <;> rfl
  · rfl

theorem Rises.append (hd : d.Rises) {c : Nat} (hc : Holds c d)
    (hlt : d.styleOf c < d.styleOf i) : (d.append c i).Rises := by
  refine ⟨fun j e he => ?_, fun j part hpart => ?_⟩
  · have hj : j < d.size := size_append d c i ▸ lt_size he
    have he' : d.element? j = some d.elements[j] := Array.getElem?_eq_getElem hj
    rw [← styleOf_eq he, styleOf_append, styleOf_eq he']
    exact hd.styled j _ he'
  · rw [styleOf_append, styleOf_append]
    by_cases hj : j = c
    · subst hj
      rw [partsOf_append_self hc] at hpart
      rcases List.mem_append.1 hpart with hpart | hpart
      · exact hd.parts j part hpart
      · exact List.mem_singleton.1 hpart ▸ hlt
    · rw [partsOf_congr (element?_append_of_ne d hj)] at hpart
      exact hd.parts j part hpart

/-- The number of elements with earlier nodes. -/
def rank (d : Document) (i : Nat) : Nat :=
  ((Finset.range d.size).filter fun j => d.styleOf j < d.styleOf i).card

theorem rank_lt_size (hi : i < d.size) : d.rank i < d.size := by
  have hproper : (Finset.range d.size).filter (fun j => d.styleOf j < d.styleOf i) ⊂
      Finset.range d.size :=
    Finset.filter_ssubset.2 ⟨i, Finset.mem_range.2 hi, Nat.lt_irrefl _⟩
  simpa [rank] using Finset.card_lt_card hproper

theorem rank_lt_rank (hi : i < d.size) (hlt : d.styleOf i < d.styleOf j) : d.rank i < d.rank j := by
  refine Finset.card_lt_card ((Finset.ssubset_iff_of_subset ?_).2 ⟨i, ?_, ?_⟩)
  · exact Finset.monotone_filter_right _ fun k _ hk => Nat.lt_trans hk hlt
  · exact Finset.mem_filter.2 ⟨Finset.mem_range.2 hi, hlt⟩
  · exact fun hmem => Nat.lt_irrefl _ (Finset.mem_filter.1 hmem).2

/-! ### Going down -/

/-- If nothing comes twice, it comes from one place. -/
theorem eq_of_mem_flatMap {f : Nat → List Nat} {l : List Nat} (h : (l.flatMap f).Nodup) {k : Nat}
    (hi : i ∈ l) (hj : j ∈ l) (hki : k ∈ f i) (hkj : k ∈ f j) : i = j := by
  have hpairs := (List.nodup_flatMap.1 h).2
  have : Std.Symm (Function.onFun List.Disjoint f) := ⟨fun _ _ hd => hd.symm⟩
  by_contra hne
  exact hpairs.forall hi hj hne hki hkj

/-- Each element is one of the roots and of `free`, or else a part of one other. -/
def Once (d : Document) (free : List Nat) : Prop := (d.held ++ free).Perm (List.range d.size)

theorem flatMap_cons_perm (l : List Nat) (f : Nat → List Nat) :
    (l.flatMap fun x => x :: f x).Perm (l ++ l.flatMap f) := by
  simpa using (List.flatMap_append_perm l (fun x => [x]) f).symm

/-- What is one step deeper are the parts of what is reached. -/
theorem reach_succ (d : Document) : ∀ (height i : Nat),
    (d.reach (height + 1) i).Perm (i :: (d.reach height i).flatMap d.partsOf)
  | 0, i => by
    have hnil : (d.partsOf i).flatMap (d.reach 0) = [] :=
      List.flatMap_eq_nil_iff.2 fun _ _ => rfl
    show (i :: (d.partsOf i).flatMap (d.reach 0)).Perm [i]
    rw [hnil]
  | height + 1, i => by
    have hparts : ((d.partsOf i).flatMap (d.reach (height + 1))).Perm
        (d.partsOf i ++ (d.partsOf i).flatMap fun part =>
          (d.reach height part).flatMap d.partsOf) := by
      refine (List.Perm.flatMap_left _ fun part _ => d.reach_succ height part).trans ?_
      exact flatMap_cons_perm _ _
    have hdeeper : (d.reach (height + 1) i).flatMap d.partsOf = d.partsOf i ++
        (d.partsOf i).flatMap fun part => (d.reach height part).flatMap d.partsOf := by
      rw [reach, List.flatMap_cons, List.flatMap_assoc]
    rw [hdeeper]
    exact hparts.cons i

/-- The elements reached from `tops`. -/
def reachAll (d : Document) (height : Nat) (tops : List Nat) : List Nat :=
  tops.flatMap (d.reach height)

theorem reachAll_succ (d : Document) (height : Nat) (tops : List Nat) :
    (d.reachAll (height + 1) tops).Perm (tops ++ (d.reachAll height tops).flatMap d.partsOf) := by
  refine (List.Perm.flatMap_left _ fun top _ => d.reach_succ height top).trans ?_
  rw [reachAll, List.flatMap_assoc]
  exact flatMap_cons_perm _ _

namespace Once

variable {free : List Nat} (h : d.Once free)

include h

theorem perm_tops : ((d.roots ++ free) ++ (List.range d.size).flatMap d.partsOf).Perm
    (List.range d.size) := by
  refine List.Perm.trans ?_ h
  rw [held_eq, List.append_assoc, List.append_assoc]
  exact List.perm_append_comm.append_left _

theorem nodup : ((d.roots ++ free) ++ (List.range d.size).flatMap d.partsOf).Nodup :=
  h.perm_tops.nodup_iff.2 List.nodup_range

theorem lt_of_mem_partsOf (hpart : j ∈ d.partsOf i) : j < d.size := by
  have hi := lt_size_of_mem_partsOf hpart
  refine List.mem_range.1 (h.perm_tops.subset (List.mem_append_right _ ?_))
  exact List.mem_flatMap.2 ⟨i, List.mem_range.2 hi, hpart⟩

theorem lt_of_mem_tops (htop : i ∈ d.roots ++ free) : i < d.size :=
  List.mem_range.1 (h.perm_tops.subset (List.mem_append_left _ htop))

/-- What is a part of something is neither a root nor free. -/
theorem not_mem_tops (hpart : j ∈ d.partsOf i) : j ∉ d.roots ++ free := by
  intro htop
  have hi := List.mem_range.2 (lt_size_of_mem_partsOf hpart)
  exact (List.nodup_append.1 h.nodup).2.2 j htop j (List.mem_flatMap.2 ⟨i, hi, hpart⟩) rfl

/-- No element is a part of two. -/
theorem holder_unique {k : Nat} (hi : k ∈ d.partsOf i) (hj : k ∈ d.partsOf j) : i = j := by
  have hri := List.mem_range.2 (lt_size_of_mem_partsOf hi)
  have hrj := List.mem_range.2 (lt_size_of_mem_partsOf hj)
  exact eq_of_mem_flatMap (List.nodup_append.1 h.nodup).2.1 hri hrj hi hj

theorem nodup_partsOf (i : Nat) : (d.partsOf i).Nodup := by
  by_cases hi : i < d.size
  · exact (List.nodup_flatMap.1 (List.nodup_append.1 h.nodup).2.1).1 i (List.mem_range.2 hi)
  · rw [partsOf_of_size_le (Nat.le_of_not_lt hi)]
    exact List.nodup_nil

theorem top_or_part (hi : i < d.size) : i ∈ d.roots ++ free ∨ ∃ j, i ∈ d.partsOf j := by
  have hmem := h.perm_tops.symm.subset (List.mem_range.2 hi)
  rcases List.mem_append.1 hmem with htop | hpart
  · exact .inl htop
  · obtain ⟨j, -, hpart⟩ := List.mem_flatMap.1 hpart
    exact .inr ⟨j, hpart⟩

theorem lt_of_mem_reachAll : ∀ {height : Nat}, i ∈ d.reachAll height (d.roots ++ free) → i < d.size
  | 0, hi => by
    obtain ⟨_, _, hi⟩ := List.mem_flatMap.1 hi
    cases hi
  | height + 1, hi => by
    rcases List.mem_append.1 ((d.reachAll_succ height _).subset hi) with htop | hpart
    · exact h.lt_of_mem_tops htop
    · obtain ⟨j, -, hpart⟩ := List.mem_flatMap.1 hpart
      exact h.lt_of_mem_partsOf hpart

/-- An element is reached as often as the one that it is a part of. -/
theorem count_flatMap_partsOf (hpart : j ∈ d.partsOf i) : ∀ l : List Nat,
    (l.flatMap d.partsOf).count j = l.count i
  | [] => rfl
  | k :: l => by
    rw [List.flatMap_cons, List.count_append, count_flatMap_partsOf hpart l, List.count_cons]
    by_cases hk : k = i
    · subst hk
      simp [List.count_eq_one_of_mem (h.nodup_partsOf k) hpart, Nat.add_comm]
    · have hnot : j ∉ d.partsOf k := fun hmem => hk (h.holder_unique hmem hpart)
      simp [List.count_eq_zero_of_not_mem hnot, hk]

/-- An element is reached once, if one goes down deep enough for it. -/
theorem count_reachAll (hd : d.Rises) : ∀ {height i : Nat}, i < d.size → d.rank i < height →
    (d.reachAll height (d.roots ++ free)).count i = 1
  | height + 1, i, hi, hrank => by
    rw [(d.reachAll_succ height _).count_eq, List.count_append]
    rcases h.top_or_part hi with htop | ⟨j, hpart⟩
    · have hnone : i ∉ (d.reachAll height (d.roots ++ free)).flatMap d.partsOf := by
        intro hmem
        obtain ⟨j, -, hpart⟩ := List.mem_flatMap.1 hmem
        exact h.not_mem_tops hpart htop
      rw [List.count_eq_one_of_mem (List.nodup_append.1 h.nodup).1 htop,
        List.count_eq_zero_of_not_mem hnone]
    · have hj := lt_size_of_mem_partsOf hpart
      have hlt := rank_lt_rank hj (hd.parts j i hpart)
      rw [List.count_eq_zero_of_not_mem (h.not_mem_tops hpart), h.count_flatMap_partsOf hpart,
        count_reachAll hd hj (by omega)]

/-- From the roots and the free elements every element is reached once. -/
theorem perm_reach (hd : d.Rises) :
    (d.reachAll d.size (d.roots ++ free)).Perm (List.range d.size) := by
  rw [List.perm_iff_count]
  intro i
  by_cases hi : i < d.size
  · rw [h.count_reachAll hd hi (rank_lt_size hi),
      List.count_eq_one_of_mem List.nodup_range (List.mem_range.2 hi)]
  · rw [List.count_eq_zero_of_not_mem fun hmem => hi (h.lt_of_mem_reachAll hmem),
      List.count_eq_zero_of_not_mem fun hmem => hi (List.mem_range.1 hmem)]

end Once

/-! ### Depths -/

/-- What is visited is the first element, or a part of one visited less deep. -/
theorem visit_holder (d : Document) : ∀ (height depth : Nat) {i j k : Nat},
    (j, k) ∈ d.visit height depth i → (j = i ∧ k = depth) ∨
      ∃ p k', (p, k') ∈ d.visit height depth i ∧ j ∈ d.partsOf p ∧ k = k' + 1
  | 0, _, _, _, _, h => by cases h
  | height + 1, depth, i, j, k, h => by
    rcases List.mem_cons.1 h with heq | h
    · obtain ⟨rfl, rfl⟩ := Prod.mk.inj heq
      exact .inl ⟨rfl, rfl⟩
    · right
      obtain ⟨part, hpart, h⟩ := List.mem_flatMap.1 h
      rcases d.visit_holder height (depth + 1) h with ⟨rfl, rfl⟩ | ⟨p, k', hp, hj, hk⟩
      · exact ⟨i, depth, List.mem_cons_self, hpart, rfl⟩
      · exact ⟨p, k', List.mem_cons_of_mem _ (List.mem_flatMap.2 ⟨part, hpart, hp⟩), hj, hk⟩

theorem fst_traverse (d : Document) : d.traverse.map (·.1) = d.reachAll d.size d.roots := by
  simp only [traverse, reachAll, subtree, List.map_flatMap, visit_fst]

namespace Once

variable {free : List Nat} (h : d.Once free)

include h

theorem perm_traverse (hd : d.Rises) :
    (d.traverse.map (·.1) ++ d.reachAll d.size free).Perm (List.range d.size) := by
  rw [fst_traverse, reachAll, reachAll, ← List.flatMap_append]
  exact h.perm_reach hd

theorem nodup_traverse (hd : d.Rises) : (d.traverse.map (·.1)).Nodup :=
  (List.nodup_append.1 ((h.perm_traverse hd).nodup_iff.2 List.nodup_range)).1

/-- All is visited but what is below the elements that nothing holds. -/
theorem mem_traverse (hd : d.Rises) : i ∈ d.traverse.map (·.1) ↔
    i < d.size ∧ ∀ c ∈ free, i ∉ (d.subtree c).map (·.1) := by
  have hperm := h.perm_traverse hd
  have hapart := (List.nodup_append.1 (hperm.nodup_iff.2 List.nodup_range)).2.2
  have hbelow : i ∈ d.reachAll d.size free ↔ ∃ c ∈ free, i ∈ (d.subtree c).map (·.1) := by
    simp only [reachAll, List.mem_flatMap, subtree, visit_fst]
  constructor
  · intro hi
    refine ⟨List.mem_range.1 (hperm.subset (List.mem_append_left _ hi)), fun c hc hmem => ?_⟩
    exact hapart i hi i (hbelow.2 ⟨c, hc, hmem⟩) rfl
  · rintro ⟨hlt, hnone⟩
    refine (List.mem_append.1 (hperm.symm.subset (List.mem_range.2 hlt))).resolve_right ?_
    intro hi
    obtain ⟨c, hc, hmem⟩ := hbelow.1 hi
    exact hnone c hc hmem

/-- Roots are visited at depth 0, other elements one deeper than what holds them. -/
theorem depth_traverse {k : Nat} (hk : (i, k) ∈ d.traverse) : (i ∈ d.roots → k = 0) ∧
    (∀ p, i ∈ d.partsOf p → ∃ k', (p, k') ∈ d.traverse ∧ k = k' + 1) ∧
      (i ∈ d.roots ∨ ∃ p, i ∈ d.partsOf p) := by
  obtain ⟨r, hr, hmem⟩ := List.mem_flatMap.1 hk
  rcases d.visit_holder d.size 0 hmem with ⟨rfl, rfl⟩ | ⟨p, k', hp, hpart, hdepth⟩
  · exact ⟨fun _ => rfl, fun p hpart => absurd (List.mem_append_left _ hr) (h.not_mem_tops hpart),
      .inl hr⟩
  · refine ⟨fun hroot => absurd (List.mem_append_left _ hroot) (h.not_mem_tops hpart),
      fun q hq => ?_, .inr ⟨p, hpart⟩⟩
    obtain rfl := h.holder_unique hpart hq
    exact ⟨k', List.mem_flatMap.2 ⟨r, hr, hp⟩, hdepth⟩

/-- Nothing below a root or a free element is out of reach. -/
theorem subtree_parts (hd : d.Rises) {top p k : Nat} (htop : top ∈ d.roots ++ free)
    (hp : (p, k) ∈ d.subtree top) (hi : i ∈ d.partsOf p) : (i, k + 1) ∈ d.subtree top := by
  have hnodup : (d.reachAll d.size (d.roots ++ free)).Nodup :=
    (h.perm_reach hd).nodup_iff.2 List.nodup_range
  have hmem := (h.perm_reach hd).symm.subset (List.mem_range.2 (h.lt_of_mem_partsOf hi))
  obtain ⟨other, hother, hreach⟩ := List.mem_flatMap.1 hmem
  rw [← d.visit_fst d.size 0 other] at hreach
  obtain ⟨⟨_, k'⟩, hvisit, rfl⟩ := List.mem_map.1 hreach
  rcases d.visit_holder d.size 0 hvisit with ⟨rfl, -⟩ | ⟨q, k'', hq, hpart, rfl⟩
  · exact absurd hother (h.not_mem_tops hi)
  · -- It is visited below what holds it, which is visited once.
    obtain rfl := h.holder_unique hi hpart
    have reached {t k : Nat} (hmem : (p, k) ∈ d.visit d.size 0 t) : p ∈ d.reach d.size t := by
      rw [← d.visit_fst d.size 0 t]
      exact List.mem_map_of_mem hmem
    obtain rfl := eq_of_mem_flatMap hnodup htop hother (reached hp) (reached hq)
    have hone : ((d.visit d.size 0 top).map (·.1)).Nodup := by
      rw [d.visit_fst]
      exact (List.nodup_flatMap.1 hnodup).1 top htop
    obtain rfl : k = k'' := congrArg Prod.snd (List.inj_on_of_nodup_map hone hp hq rfl)
    exact hvisit

/-- Below what is visited everything is visited. -/
theorem parts_traverse (hd : d.Rises) {p k : Nat} (hp : (p, k) ∈ d.traverse)
    (hi : i ∈ d.partsOf p) : (i, k + 1) ∈ d.traverse := by
  obtain ⟨root, hroot, hp⟩ := List.mem_flatMap.1 hp
  exact List.mem_flatMap.2
    ⟨root, hroot, h.subtree_parts hd (List.mem_append_left _ hroot) hp hi⟩

end Once

end Document
end RichText
