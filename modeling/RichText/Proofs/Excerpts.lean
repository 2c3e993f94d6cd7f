/-
# Excerpts of documents

An excerpt is shown by going through the whole document, and keeping what is visited
between the element with the id and the next element that is not deeper (`excerpted_eq_below`).
What is visited there is the element and all inside it, in the order of the text
(`Once.below_traverse`): deep enough, going down from an element says the same wherever
one comes from (`Rises.visit_eq`).

But an id leads to every element that has one, and a traversal does not visit the cells
that are cut off at the end of a row. So the excerpt for an id in such a cell is empty,
and the element is not shown at all (`excerpt_of_ofString`).

Asking about one element of an excerpt does not change what is shown of another
(`answers_collectAll`).

Key definitions: `Document.later`, `Document.excerpted`, `Resolver.Settled`.
Key theorems: `Rises.subtree_eq`, `Document.excerpted_eq_below`, `Once.below_traverse`,
`answers_collectAll`, `Document.excerpt_of_ofString`.
-/
import RichText.Dump.Document
import RichText.Proofs.DerivedNodes
import RichText.Proofs.IdIndex
import RichText.Proofs.Traversal

namespace RichText
namespace Document

variable {d : Document} {e i j k : Nat}

/-! ### Going down deep enough -/

/-- The number of elements with later nodes. -/
def later (d : Document) (i : Nat) : Nat :=
  ((Finset.range d.size).filter fun j => d.styleOf i < d.styleOf j).card

theorem later_lt_size (hi : i < d.size) : d.later i < d.size := by
  have hproper : (Finset.range d.size).filter (fun j => d.styleOf i < d.styleOf j) ⊂
      Finset.range d.size :=
    Finset.filter_ssubset.2 ⟨i, Finset.mem_range.2 hi, Nat.lt_irrefl _⟩
  simpa [later] using Finset.card_lt_card hproper

namespace Rises

variable (hd : d.Rises)
include hd

/-- Fewer elements come after a part than after what it is a part of. -/
theorem later_lt (hpart : j ∈ d.partsOf i) : d.later j < d.later i := by
  have hlt := hd.parts i j hpart
  refine Finset.card_lt_card ((Finset.ssubset_iff_of_subset ?_).2 ⟨j, ?_, ?_⟩)
  · exact Finset.monotone_filter_right _ fun k _ hk => Nat.lt_trans hlt hk
  · exact Finset.mem_filter.2 ⟨Finset.mem_range.2 (lt_size_of_styleOf hlt), hlt⟩
  · exact fun hmem => Nat.lt_irrefl _ (Finset.mem_filter.1 hmem).2

/-- How deep one may go does not matter if it is deep enough. -/
theorem visit_eq : ∀ {height height' : Nat} (depth : Nat) {i : Nat}, d.later i < height →
    d.later i < height' → d.visit height' depth i = d.visit height depth i
  | height + 1, height' + 1, depth, i, h, h' => by
    have hparts : ∀ part ∈ d.partsOf i,
        d.visit height' (depth + 1) part = d.visit height (depth + 1) part := fun part hpart => by
      have hlt := hd.later_lt hpart
      exact visit_eq (depth + 1) (by omega) (by omega)
    rw [visit, visit, List.flatMap_def, List.flatMap_def, List.map_congr_left hparts]

end Rises

/-- Depths count from where one begins. -/
theorem visit_add (d : Document) (k : Nat) : ∀ height depth i : Nat,
    d.visit height (depth + k) i = (d.visit height depth i).map fun v => (v.1, v.2 + k)
  | 0, _, _ => rfl
  | height + 1, depth, i => by
    simp only [visit, List.map_cons, List.map_flatMap, ← d.visit_add k height,
      Nat.add_right_comm depth k 1]

theorem le_of_mem_visit {height depth : Nat} {v : Nat × Nat} (h : v ∈ d.visit height depth i) :
    depth ≤ v.2 := by
  rw [← Nat.zero_add depth, d.visit_add depth height 0 i] at h
  obtain ⟨w, -, rfl⟩ := List.mem_map.1 h
  exact Nat.le_add_left depth w.2

/-- **Preorder.** An element comes before its parts, which are one deeper, each with all
inside it. -/
theorem Rises.subtree_eq (hd : d.Rises) (hi : i < d.size) :
    d.subtree i =
      (i, 0) :: (d.partsOf i).flatMap fun part => (d.subtree part).map fun v => (v.1, v.2 + 1) := by
  have hlater := later_lt_size hi
  have hdeeper : d.subtree i = d.visit (d.size + 1) 0 i :=
    hd.visit_eq 0 (Nat.lt_succ_of_lt hlater) hlater
  rw [hdeeper, visit]
  simp only [d.visit_add 1 d.size 0, subtree]

/-! ### What is kept of a traversal -/

theorem head?_flatMap_visit (d : Document) (height depth : Nat) (tops : List Nat) :
    ∀ v ∈ (tops.flatMap (d.visit height depth)).head?, v.2 = depth := by
  intro v hv
  cases height with
  | zero =>
    have hnone : tops.flatMap (d.visit 0 depth) = [] := List.flatMap_eq_nil_iff.2 fun _ _ => rfl
    rw [hnone] at hv
    nomatch hv
  | succ height =>
    cases tops with
    | nil => nomatch hv
    | cons top tops =>
      obtain rfl : (top, depth) = v := by simpa [visit] using hv
      rfl

/-- Somewhere in what is visited stands all inside of an element, whose depth is `k`, and what
comes behind it does not begin deeper. -/
def Shows (d : Document) (e k : Nat) (visited : List (Nat × Nat)) : Prop :=
  ∃ before after, visited = before ++ d.visit d.size k e ++ after ∧ ∀ v ∈ after.head?, v.2 ≤ k

/-- It stands in what is visited of several elements if it does in that of each of them. -/
theorem Shows.flatMap {height depth : Nat} {tops : List Nat}
    (hone : ∀ top ∈ tops, (e, k) ∈ d.visit height depth top →
      d.Shows e k (d.visit height depth top))
    (h : (e, k) ∈ tops.flatMap (d.visit height depth)) :
    d.Shows e k (tops.flatMap (d.visit height depth)) := by
  obtain ⟨top, htop, hmem⟩ := List.mem_flatMap.1 h
  obtain ⟨before, after, hvisit, hafter⟩ := hone top htop hmem
  obtain ⟨left, right, rfl⟩ := List.append_of_mem htop
  refine ⟨left.flatMap (d.visit height depth) ++ before,
    after ++ right.flatMap (d.visit height depth), ?_, fun v hv => ?_⟩
  · simp only [List.flatMap_append, List.flatMap_cons, hvisit, List.append_assoc]
  · rw [List.head?_append] at hv
    rcases Option.or_eq_some_iff.1 hv with hv | ⟨-, hv⟩
    · exact hafter v hv
    · rw [d.head?_flatMap_visit height depth right v hv]
      exact le_of_mem_visit hmem

theorem Rises.shows_visit (hd : d.Rises) (he : e < d.size) : ∀ {height depth i : Nat},
    d.later i < height → (e, k) ∈ d.visit height depth i → d.Shows e k (d.visit height depth i)
  | height + 1, depth, i, hlater, hmem => by
    rcases List.mem_cons.1 hmem with heq | hmem
    · obtain ⟨rfl, rfl⟩ := Prod.mk.inj heq
      refine ⟨[], [], ?_, fun v hv => nomatch hv⟩
      rw [List.nil_append, List.append_nil, hd.visit_eq k hlater (later_lt_size he)]
    · have hparts := Shows.flatMap (fun part hpart hmem => by
        have hlt := hd.later_lt hpart
        exact hd.shows_visit he (by omega) hmem) hmem
      obtain ⟨before, after, hvisit, hafter⟩ := hparts
      exact ⟨(i, depth) :: before, after, by rw [visit, hvisit]; rfl, hafter⟩

theorem below_of_not_mem {visited : List (Nat × Nat)} (h : e ∉ visited.map (·.1)) :
    below e visited = [] := by
  have hnone : visited.dropWhile (·.1 ≠ e) = [] :=
    List.dropWhile_eq_nil_iff.2 fun v hv => by
      simpa using fun heq : v.1 = e => h (List.mem_map.2 ⟨v, hv, heq⟩)
  unfold below
  rw [hnone]

/-- The depth of the element as long as one is inside of it, behind a visit: it is left with
the next visit that is not deeper, and entered with its own. -/
def insideBehind (e : Nat) (inside : Option Nat) (v : Nat × Nat) : Option Nat :=
  let still := inside.filter (· < v.2)
  if still = none ∧ v.1 = e then some v.2 else still

/-- What is kept, visit by visit: those inside of the element, with their depths below it. -/
def excerpted (e : Nat) : (inside : Option Nat) → List (Nat × Nat) → List (Nat × Nat)
  | _, [] => []
  | inside, v :: visited =>
    let inside := insideBehind e inside v
    (inside.toList.map fun depth => (v.1, v.2 - depth)) ++ excerpted e inside visited

/-- Nothing is kept without the element. -/
theorem excerpted_none {visited : List (Nat × Nat)} (h : e ∉ visited.map (·.1)) :
    excerpted e none visited = [] := by
  induction visited with
  | nil => rfl
  | cons v visited ih =>
    rw [List.map_cons, List.mem_cons, not_or] at h
    have hstill : insideBehind e none v = none := if_neg fun hv => h.1 hv.2.symm
    rw [excerpted, hstill]
    exact ih h.2

/-- Inside of the element all is kept up to the next visit that is not deeper. -/
theorem excerpted_some {visited : List (Nat × Nat)} (h : e ∉ visited.map (·.1)) :
    excerpted e (some k) visited = (visited.takeWhile (k < ·.2)).map fun v => (v.1, v.2 - k) := by
  induction visited with
  | nil => rfl
  | cons v visited ih =>
    have hv : v.1 ≠ e := fun heq => h (List.mem_map.2 ⟨v, List.mem_cons_self, heq⟩)
    rw [List.map_cons, List.mem_cons, not_or] at h
    by_cases hdeeper : k < v.2
    · have hstill : insideBehind e (some k) v = some k := by
        simp [insideBehind, Option.filter, hdeeper]
      rw [excerpted, hstill, List.takeWhile_cons_of_pos (by simpa using hdeeper), ih h.2]
      rfl
    · have hleft : insideBehind e (some k) v = none := by
        simp [insideBehind, Option.filter, hdeeper, hv]
      rw [excerpted, hleft, List.takeWhile_cons_of_neg (by simpa using hdeeper)]
      exact excerpted_none h.2

/-- Where nothing is visited twice, what is kept visit by visit is what comes behind the
element up to the next visit that is not deeper. -/
theorem excerpted_eq_below {visited : List (Nat × Nat)} (hnodup : (visited.map (·.1)).Nodup) :
    excerpted e none visited = below e visited := by
  induction visited with
  | nil => rfl
  | cons v visited ih =>
    rw [List.map_cons, List.nodup_cons] at hnodup
    by_cases hv : v.1 = e
    · have hentered : insideBehind e none v = some v.2 := if_pos ⟨rfl, hv⟩
      rw [excerpted, hentered, excerpted_some (hv ▸ hnodup.1), below,
        List.dropWhile_cons_of_neg (by simpa using hv)]
      simp
    · have hstill : insideBehind e none v = none := if_neg fun h => hv h.2
      rw [excerpted, hstill, below, List.dropWhile_cons_of_pos (by simpa using hv)]
      exact ih hnodup.2

/-- What is kept begins at the element and ends before what is not deeper. -/
theorem below_append {before inside after : List (Nat × Nat)} (hbefore : ∀ v ∈ before, v.1 ≠ e)
    (hinside : ∀ v ∈ inside, k < v.2) (hafter : ∀ v ∈ after.head?, v.2 ≤ k) :
    below e (before ++ ((e, k) :: inside) ++ after) =
      ((e, k) :: inside).map fun v => (v.1, v.2 - k) := by
  have hdrop : (before ++ ((e, k) :: inside) ++ after).dropWhile (·.1 ≠ e) =
      (e, k) :: (inside ++ after) := by
    rw [List.append_assoc, List.dropWhile_append_of_pos (by simpa using hbefore)]
    exact List.dropWhile_cons_of_neg (by simp)
  have htake : (inside ++ after).takeWhile (k < ·.2) = inside := by
    have hnone : after.takeWhile (k < ·.2) = [] := by
      cases after with
      | nil => rfl
      | cons v after => exact List.takeWhile_cons_of_neg (by simpa using hafter v rfl)
    rw [List.takeWhile_append_of_pos (by simpa using hinside), hnone, List.append_nil]
  unfold below
  rw [hdrop]
  simp only [htake, List.map_cons, Nat.sub_self]

/-- All inside of an element comes after it, and is deeper. -/
theorem exists_visit_eq_cons (he : e < d.size) (k : Nat) : ∃ inside,
    d.visit d.size k e = (e, k) :: inside ∧ ∀ v ∈ inside, k < v.2 := by
  obtain ⟨height, hheight⟩ : ∃ height, d.size = height + 1 := ⟨d.size - 1, by omega⟩
  refine ⟨(d.partsOf e).flatMap (d.visit height (k + 1)), by rw [hheight]; rfl, fun v hv => ?_⟩
  obtain ⟨part, -, hv⟩ := List.mem_flatMap.1 hv
  exact le_of_mem_visit hv

theorem subtree_eq_map (d : Document) (k i : Nat) :
    d.subtree i = (d.visit d.size k i).map fun v => (v.1, v.2 - k) := by
  have hdeeper := d.visit_add k d.size 0 i
  rw [Nat.zero_add] at hdeeper
  rw [hdeeper, List.map_map]
  exact (List.map_id' _).symm.trans (List.map_congr_left fun v _ => by simp)

/-- What is kept is what is inside of the element, with depths below it. -/
theorem Shows.below_eq {visited : List (Nat × Nat)} (h : d.Shows e k visited) (he : e < d.size)
    (hnodup : (visited.map (·.1)).Nodup) : below e visited = d.subtree e := by
  obtain ⟨before, after, rfl, hafter⟩ := h
  obtain ⟨inside, hvisit, hinside⟩ := exists_visit_eq_cons he k
  rw [d.subtree_eq_map k e, hvisit]
  rw [hvisit] at hnodup
  refine below_append (fun v hv heq => ?_) hinside hafter
  rw [List.append_assoc, List.map_append] at hnodup
  exact (List.nodup_append.1 hnodup).2.2 _ (List.mem_map_of_mem hv) _ List.mem_cons_self heq

/-- **What is kept of a traversal is all inside of the element**, if the traversal visits
it. -/
theorem Once.below_traverse {free : List Nat} (h : d.Once free) (hd : d.Rises)
    (he : e ∈ d.traverse.map (·.1)) : below e d.traverse = d.subtree e := by
  have hlt := ((h.mem_traverse hd).1 he).1
  obtain ⟨⟨i, k⟩, hmem, heq⟩ := List.mem_map.1 he
  obtain rfl : i = e := heq
  have hshows : d.Shows i k d.traverse := Shows.flatMap (fun root hroot hmem => by
    have hroot := h.lt_of_mem_tops (List.mem_append_left _ hroot)
    exact hd.shows_visit hlt (later_lt_size hroot) hmem) hmem
  exact hshows.below_eq hlt (h.nodup_traverse hd)

/-- An id leads to an element. -/
theorem lt_size_of_elementById? {number : Nat} {registry : Registry} {source id : String}
    (h : ofString number registry source = .ok d) (hid : d.elementById? id = some e) :
    e < d.size := by
  obtain ⟨b, hrun, -, -, rfl⟩ := exists_of_ofString h
  have hindex := (Builder.indexed_run (Builder.indexed_start number registry) hrun).index
  have hentry := hindex.elementById?_eq_some_iff.1 hid
  exact lt_size_of_idOf? (mem_entries.1 (hindex.entries.subset (List.mem_append_left _ hentry)))

end Document

/-! ### What is shown of the elements -/

theorem Resolver.run_bind {α β : Type} (x : StateM Resolver α) (f : α → StateM Resolver β)
    (r : Resolver) : (x >>= f) r = f (x r).1 (x r).2 := rfl

/-- A computation has one result, whatever is asked about the tree before it. -/
def Resolver.Settled {α : Type} (t : StyleTree) (r : Resolver) (x : StateM Resolver α) : Prop :=
  ∃ a, Answers t r x a

namespace Resolver.Settled

variable {α β : Type} {t : StyleTree} {r : Resolver}

theorem answers {x : StateM Resolver α} (h : Settled t r x) : Answers t r x (x r).1 := by
  obtain ⟨a, ha⟩ := h
  rwa [ha.result]

theorem pure (a : α) : Settled t r (Pure.pure a) := ⟨a, Answers.pure a⟩

theorem bind {x : StateM Resolver α} {f : α → StateM Resolver β} (hx : Settled t r x)
    (hf : ∀ a, Settled t r (f a)) : Settled t r (x >>= f) := by
  obtain ⟨a, ha⟩ := hx
  obtain ⟨b, hb⟩ := hf a
  exact ⟨b, ha.bind hb⟩

end Resolver.Settled

open Resolver (Answers Settled)

namespace ElementDump

variable (o : DumpOptions) (d : Document) (r : Resolver)

theorem settled_attributesFrom (t : StyleTree) (node : Nat) :
    ∀ (attributes : List Attribute) (ordinal : Nat),
      Settled t r (attributesFrom o t node ordinal attributes)
  | [], _ => Settled.pure []
  | a :: attributes, ordinal => by
    refine Settled.bind ⟨_, t.answers_found r ordinal node⟩ fun value => ?_
    refine Settled.bind (settled_attributesFrom t node attributes (ordinal + 1)) fun others => ?_
    cases value with
    | some v => exact Settled.pure _
    | none => exact Settled.pure _

theorem settled_collect (visited : Nat × Nat) : Settled d.styles r (collect o d visited) := by
  unfold collect
  cases d.element? visited.1 with
  | none => exact Settled.pure none
  | some e =>
    exact Settled.bind (settled_attributesFrom o r d.styles e.style _ 0) fun _ => Settled.pure _

/-- Something is shown of every element. -/
theorem isSome_collect {visited : Nat × Nat} (h : visited.1 < d.size) :
    (collect o d visited r).1.isSome := by
  have he : d.element? visited.1 = some d.elements[visited.1] := Array.getElem?_eq_getElem h
  unfold collect
  rw [he]
  dsimp only
  rw [Resolver.run_bind]
  rfl

end ElementDump

namespace DocumentDump

variable (o : DumpOptions) (d : Document) (r : Resolver)

/-- Every element is shown as if it alone were. -/
theorem answers_collectAll : ∀ visited : List (Nat × Nat),
    Answers d.styles r (collectAll o d visited)
      (visited.flatMap fun v => (ElementDump.collect o d v r).1.toList)
  | [] => Answers.pure []
  | v :: visited =>
    (ElementDump.settled_collect o d r v).answers.bind
      ((answers_collectAll visited).bind (Answers.pure _))

theorem collect_eq {visited : List (Nat × Nat)} (h : d.selected o.id = .ok visited) :
    (collect o d r).1 = .ok {
      title := d.title
      stylesheets := d.links
      elements := visited.flatMap fun v => (ElementDump.collect o d v r).1.toList } := by
  unfold collect
  rw [h]
  dsimp only
  rw [Resolver.run_bind, (answers_collectAll o d r visited).result]
  rfl

end DocumentDump

/-- Where everything has an image, all images are kept. -/
theorem map_some_flatMap_toList {α β : Type} {f : α → Option β} : ∀ {l : List α},
    (∀ a ∈ l, (f a).isSome) → (l.flatMap fun a => (f a).toList).map some = l.map f
  | [], _ => rfl
  | a :: l, h => by
    obtain ⟨ha, hl⟩ := List.forall_mem_cons.1 h
    obtain ⟨b, hb⟩ := Option.isSome_iff_exists.1 ha
    simp only [List.flatMap_cons, List.map_cons, hb, Option.toList_some, List.singleton_append,
      map_some_flatMap_toList hl]

namespace Document

variable {number : Nat} {registry : Registry} {source id : String} {d : Document} {e i : Nat}

theorem Once.lt_of_mem_subtree {free : List Nat} (h : d.Once free) (hd : d.Rises) (he : e < d.size)
    {v : Nat × Nat} (hv : v ∈ d.subtree e) : v.1 < d.size := by
  induction hlater : d.later e using Nat.strongRecOn generalizing e v with
  | ind n ih =>
    subst hlater
    rw [hd.subtree_eq he] at hv
    rcases List.mem_cons.1 hv with rfl | hv
    · exact he
    · obtain ⟨part, hpart, hv⟩ := List.mem_flatMap.1 hv
      obtain ⟨w, hw, rfl⟩ := List.mem_map.1 hv
      have hlt := ih _ (hd.later_lt hpart) (h.lt_of_mem_partsOf hpart) hw rfl
      exact hlt

/-- With an id that is known, what is inside of its element is kept. -/
theorem selected_eq {o : DumpOptions} (ho : o.id = some id) (hid : d.elementById? id = some e) :
    d.selected o.id = .ok (below e d.traverse) := by
  rw [ho, selected, hid]
  rfl

/-- The element is a cell that a table has lost, or inside of one. -/
def IsLost (d : Document) (f : Forest) (e : Nat) : Prop :=
  ∃ c, (∃ t ∈ tablesOf f, t.Loses d c) ∧ e ∈ (d.subtree c).map (·.1)

/-- A traversal visits an element that is not lost. -/
theorem mem_traverse_of_ofString (h : ofString number registry source = .ok d) {f : Forest}
    (hf : (EventStream.ofString source).items = f.events) (he : e < d.size) :
    e ∈ d.traverse.map (·.1) ↔ ¬ d.IsLost f e := by
  obtain ⟨hrises, drafts, hlaid, honce⟩ := once_of_ofString h hf
  have hlost (c : Nat) : c ∈ drafts.flatMap TableDraft.cut ↔ ∃ t ∈ tablesOf f, t.Loses d c := by
    rw [List.mem_flatMap]
    exact exists_mem_congr hlaid fun draft t ht => ht.mem_cut (sized_of_ofString h hf) c
  rw [honce.mem_traverse hrises]
  simp only [hlost, he, true_and, IsLost, not_exists, not_and]

/-- **An excerpt is all inside of the element, or nothing.** In a document, all inside an
element is the element and then, one deeper, all inside each of its parts. When an element
is shown by its id, the document is gone through and the visits inside of the element are
kept; so exactly this is shown, each element as if it alone were, unless the element is lost
with a cell of a table: then nothing is shown. -/
theorem excerpt_of_ofString (h : ofString number registry source = .ok d) {o : DumpOptions}
    (ho : o.id = some id) (hid : d.elementById? id = some e) (r : Resolver) :
    (∀ i < d.size, d.subtree i = (i, 0) ::
      (d.partsOf i).flatMap fun part => (d.subtree part).map fun v => (v.1, v.2 + 1)) ∧
    d.selected o.id = .ok (excerpted e none d.traverse) ∧
    ∃ dump, (DocumentDump.collect o d r).1 = .ok dump ∧
      (∃ f : Forest, (EventStream.ofString source).items = f.events) ∧
      ∀ f : Forest, (EventStream.ofString source).items = f.events →
        (¬ d.IsLost f e → dump.elements.map some =
          (d.subtree e).map fun v => (ElementDump.collect o d v r).1) ∧
        (d.IsLost f e → dump.elements = []) := by
  obtain ⟨f₀, hf₀⟩ : ∃ f : Forest, (EventStream.ofString source).items = f.events := by
    obtain ⟨_, -, hend, -⟩ := exists_of_ofString h
    exact EventStream.exists_forest hend
  obtain ⟨hrises, drafts, -, honce⟩ := once_of_ofString h hf₀
  have he := lt_size_of_elementById? h hid
  refine ⟨fun i => hrises.subtree_eq, ?_, _, DocumentDump.collect_eq o d r (selected_eq ho hid),
    ⟨f₀, hf₀⟩, fun f hf => ⟨fun hkept => ?_, fun hlost => ?_⟩⟩
  · rw [excerpted_eq_below (honce.nodup_traverse hrises)]
    exact selected_eq ho hid
  · have hvisited := (mem_traverse_of_ofString h hf he).2 hkept
    rw [honce.below_traverse hrises hvisited]
    exact map_some_flatMap_toList fun v hv =>
      ElementDump.isSome_collect o d r (honce.lt_of_mem_subtree hrises he hv)
  · have hnot : e ∉ d.traverse.map (·.1) :=
      fun hmem => (mem_traverse_of_ofString h hf he).1 hmem hlost
    rw [below_of_not_mem hnot]
    rfl

/-- A table whose second row is longer than the first. -/
def longRow : String :=
  "<html><body><table id=t><tr><td>a</td></tr><tr><td>b</td><td id=x>c</td></tr></table></body>" ++
    "</html>"

theorem ofString_longRow : EventStream.ofString longRow =
    ⟨[(⟨1, 1⟩, .opened "html" []), (⟨1, 7⟩, .opened "body" []),
      (⟨1, 13⟩, .opened "table" [("id", "t")]), (⟨1, 25⟩, .opened "tr" []),
      (⟨1, 29⟩, .opened "td" []), (⟨1, 33⟩, .text "a"), (⟨1, 34⟩, .closed "td"),
      (⟨1, 39⟩, .closed "tr"), (⟨1, 44⟩, .opened "tr" []), (⟨1, 48⟩, .opened "td" []),
      (⟨1, 52⟩, .text "b"), (⟨1, 53⟩, .closed "td"), (⟨1, 58⟩, .opened "td" [("id", "x")]),
      (⟨1, 67⟩, .text "c"), (⟨1, 68⟩, .closed "td"), (⟨1, 73⟩, .closed "tr"),
      (⟨1, 78⟩, .closed "table"), (⟨1, 86⟩, .closed "body"), (⟨1, 93⟩, .closed "html")], none⟩ := by
  decide +kernel

/-- The table is shown with the two cells that it has, and their texts. -/
theorem excerpt_of_ofString_longRow : ∃ (d : Document) (f : Forest) (dump : DocumentDump),
    ofString 0 .standard longRow = .ok d ∧
    (EventStream.ofString longRow).items = f.events ∧ d.elementById? "t" = some 7 ∧
    (DocumentDump.collect { document := "a.html", id := some "t" } d .absent).1 = .ok dump ∧
    dump.elements.length = 5 := by
  obtain ⟨d, hd, hid, hmem, hsize, hlength⟩ : ∃ d, ofString 0 .standard longRow = .ok d ∧
      d.elementById? "t" = some 7 ∧ 7 ∈ d.traverse.map (·.1) ∧ 7 < d.size ∧
      (d.subtree 7).length = 5 :=
    ⟨_, (congrArg (ofEvents 0 .standard) ofString_longRow).trans rfl, by rfl, by decide +kernel,
      by decide +kernel, by rfl⟩
  obtain ⟨-, -, dump, hdump, ⟨f, hf⟩, hshown⟩ := excerpt_of_ofString hd
    (o := { document := "a.html", id := some "t" }) rfl hid .absent
  have hkept := (mem_traverse_of_ofString hd hf hsize).1 hmem
  refine ⟨d, f, dump, hd, hf, hid, hdump, ?_⟩
  have hsame := congrArg List.length ((hshown f hf).1 hkept)
  rwa [List.length_map, List.length_map, hlength] at hsame

/-- The last cell of the table has an id, and a text is in it, but nothing is shown of
them. -/
theorem empty_excerpt_of_id : ∃ d e, ofString 0 .standard longRow = .ok d ∧
    d.elementById? "x" = some e ∧ d.subtree e = [(e, 0), (e + 1, 1)] ∧
    ∀ r : Resolver, ∃ dump,
      (DocumentDump.collect { document := "a.html", id := some "x" } d r).1 = .ok dump ∧
        dump.elements = [] := by
  obtain ⟨d, hd, hid, hsubtree, hnone⟩ : ∃ d, ofString 0 .standard longRow = .ok d ∧
      d.elementById? "x" = some 5 ∧ d.subtree 5 = [(5, 0), (6, 1)] ∧ below 5 d.traverse = [] :=
    ⟨_, (congrArg (ofEvents 0 .standard) ofString_longRow).trans rfl, rfl, rfl, rfl⟩
  refine ⟨d, 5, hd, hid, hsubtree, fun r => ⟨_, DocumentDump.collect_eq _ d r
    (selected_eq (o := { document := "a.html", id := some "x" }) rfl hid), ?_⟩⟩
  rw [hnone]
  rfl

end Document
end RichText
