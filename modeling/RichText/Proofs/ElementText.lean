/-
# The text of elements

Elements name the ones inside them by numbers. As long as these come later in the
store (`Ascends`), going down ends, and the text of an element is its own, and
then the texts of the elements directly inside, one after another
(`textContent_eq`). Elements that are made later do not change it
(`textContent_stable`).

When a container is read, elements are added to the store and some of them to the
container; those that were there before stay as they were, but for the container.
`Document.Says` is that, with the text that the container gains.

Key definitions: `Document.Ascends`, `Document.Says`.
Key theorems: `Document.textContent_eq`, `Document.textContent_stable`,
`Document.Says.trans`, `Document.Says.enclose`.
-/
import RichText.Document.Basic

namespace RichText
namespace Document

variable {d d' d'' : Document} {n i : Nat}

/-- From the number `n` on, what is inside an element has a greater number, and is
in the store. -/
def Ascends (d : Document) (n : Nat) : Prop :=
  ∀ i, n ≤ i → ∀ part ∈ d.partsOf i, i < part ∧ part < d.size

/-- An element and all inside it, at most `height` deep, without the depths. -/
def reach (d : Document) : (height i : Nat) → List Nat
  | 0, _ => []
  | height + 1, i => i :: (d.partsOf i).flatMap (d.reach height)

theorem visit_fst (d : Document) : ∀ height depth i : Nat,
    (d.visit height depth i).map (·.1) = d.reach height i
  | 0, _, _ => rfl
  | height + 1, depth, i => by
    simp only [visit, reach, List.map_cons, List.map_flatMap, d.visit_fst height]

/-- What one element adds to the text. -/
def wordOf (d : Document) (i : Nat) : String := ((d.element? i).map (·.ownText)).getD ""

theorem textContent_reach (d : Document) (i : Nat) :
    d.textContent i = String.join ((d.reach d.size i).map d.wordOf) := by
  rw [← d.visit_fst d.size 0 i, List.map_map]
  rfl

/-- How deep one may go does not matter if it is deep enough; neither do other
elements of the store. -/
theorem reach_eq (hd : Ascends d n) (hold : ∀ j, n ≤ j → j < d.size → d'.partsOf j = d.partsOf j) :
    ∀ (height height' : Nat) {i : Nat}, n ≤ i → i < d.size → d.size - i ≤ height →
      d.size - i ≤ height' → d'.reach height' i = d.reach height i
  | 0, _, i, _, hi, hheight, _ => by omega
  | _, 0, i, _, hi, _, hheight => by omega
  | height + 1, height' + 1, i, hn, hi, hheight, hheight' => by
    have hparts : ∀ part ∈ d.partsOf i, d'.reach height' part = d.reach height part := by
      intro part hpart
      obtain ⟨hlt, hsize⟩ := hd i hn part hpart
      exact reach_eq hd hold height height' (by omega) hsize (by omega) (by omega)
    rw [reach, reach, hold i hn hi, List.flatMap_def, List.flatMap_def,
      List.map_congr_left hparts]

/-- All that is inside an element comes later and is in the store. -/
theorem mem_reach (hd : Ascends d n) : ∀ (height : Nat) {i : Nat}, n ≤ i → i < d.size →
    ∀ j ∈ d.reach height i, n ≤ j ∧ j < d.size
  | 0, _, _, _, j, hj => nomatch hj
  | height + 1, i, hn, hi, j, hj => by
    rcases List.mem_cons.1 hj with rfl | hj
    · exact ⟨hn, hi⟩
    · obtain ⟨part, hpart, hj⟩ := List.mem_flatMap.1 hj
      obtain ⟨hlt, hsize⟩ := hd i hn part hpart
      exact mem_reach hd height (by omega) hsize j hj

theorem join_flatMap {α : Type} (f : α → List String) (l : List α) :
    String.join (l.flatMap f) = String.join (l.map fun a => String.join (f a)) := by
  induction l with
  | nil => rfl
  | cons a l ih => rw [List.flatMap_cons, String.join_append, ih, List.map_cons, String.join_cons]

/-- The text of an element is its own, and then the texts of what is inside. -/
theorem textContent_eq (hd : Ascends d n) (hn : n ≤ i) (hi : i < d.size) :
    d.textContent i = d.wordOf i ++ String.join ((d.partsOf i).map d.textContent) := by
  have hsize : d.size = (d.size - 1) + 1 := by omega
  have hparts : ∀ part ∈ d.partsOf i, String.join ((d.reach (d.size - 1) part).map d.wordOf) =
      d.textContent part := by
    intro part hpart
    obtain ⟨hlt, hpartSize⟩ := hd i hn part hpart
    rw [textContent_reach, reach_eq hd (fun _ _ _ => rfl) d.size (d.size - 1) (by omega) hpartSize
      (by omega) (by omega)]
  rw [textContent_reach, hsize, reach, List.map_cons, String.join_cons, List.map_flatMap,
    join_flatMap, List.map_congr_left hparts]

/-- Elements made later do not change the text of an element. -/
theorem textContent_stable (hd : Ascends d n) (hsize : d.size ≤ d'.size)
    (hold : ∀ j, n ≤ j → j < d.size → d'.element? j = d.element? j) (hn : n ≤ i) (hi : i < d.size) :
    d'.textContent i = d.textContent i := by
  have hparts : ∀ j, n ≤ j → j < d.size → d'.partsOf j = d.partsOf j :=
    fun j hj hlt => by rw [partsOf, partsOf, hold j hj hlt]
  rw [textContent_reach, textContent_reach,
    reach_eq hd hparts d.size d'.size hn hi (by omega) (by omega)]
  congr 1
  refine List.map_congr_left fun j hj => ?_
  obtain ⟨hnj, hj⟩ := mem_reach hd _ hn hi j hj
  rw [wordOf, wordOf, hold j hnj hj]

/-! ### Elements of a store -/

theorem element?_of_size_le (h : d.size ≤ i) : d.element? i = none :=
  Array.getElem?_eq_none_iff.2 h

theorem lt_size {e : Element} (h : d.element? i = some e) : i < d.size :=
  (Array.getElem?_eq_some_iff.1 h).1

theorem partsOf_congr (h : d'.element? i = d.element? i) : d'.partsOf i = d.partsOf i := by
  rw [partsOf, partsOf, h]

theorem partsOf_of_size_le (h : d.size ≤ i) : d.partsOf i = [] := by
  rw [partsOf, element?_of_size_le h]
  rfl

/-- From the end of the store on there is nothing. -/
theorem ascends_size (d : Document) : Ascends d d.size := by
  intro i hi part hpart
  rw [partsOf_of_size_le hi] at hpart
  nomatch hpart

theorem Ascends.mono (hd : Ascends d n) (hsize : d.size ≤ d'.size)
    (hold : ∀ j, n ≤ j → d'.element? j = d.element? j) : Ascends d' n := by
  intro i hi part hpart
  rw [partsOf_congr (hold i hi)] at hpart
  obtain ⟨hlt, hpartSize⟩ := hd i hi part hpart
  exact ⟨hlt, Nat.lt_of_lt_of_le hpartSize hsize⟩

theorem parts_eq_children {e : Element} (h : e.kind.hasChildren = true) : e.parts = e.children := by
  unfold Element.parts
  split
  · next hkind => simp [hkind, ElementKind.hasChildren] at h
  · rfl

theorem ownText_of_hasChildren {e : Element} (h : e.kind.hasChildren = true) : e.ownText = "" := by
  unfold Element.ownText
  split
  · next hkind => simp [hkind, ElementKind.hasChildren] at h
  · next hkind => simp [hkind, ElementKind.hasChildren] at h
  · rfl

/-! ### Reading into a container -/

/-- The element can have children. -/
def Holds (c : Nat) (d : Document) : Prop := ∃ e, d.element? c = some e ∧ e.kind.hasChildren = true

/-- The container `c` has gained elements with the text `said`; what else was there
has not changed, and all that is inside new elements comes behind them. -/
structure Says (c : Nat) (d d' : Document) (said : String) : Prop where
  size : d.size ≤ d'.size
  old : ∀ i, i < d.size → i ≠ c → d'.element? i = d.element? i
  ascends : Ascends d' d.size
  roots : d'.roots = d.roots
  gains : ∃ (e : Element) (gained : List Nat), d.element? c = some e ∧
    e.kind.hasChildren = true ∧
    d'.element? c = some { e with children := e.children ++ gained } ∧
    (∀ i ∈ gained, d.size ≤ i ∧ i < d'.size) ∧ String.join (gained.map d'.textContent) = said

variable {c : Nat} {said said' : String}

theorem Says.lt (h : Says c d d' said) : c < d.size := by
  obtain ⟨e, _, he, _⟩ := h.gains
  exact lt_size he

theorem Says.holds (h : Says c d d' said) : Holds c d' := by
  obtain ⟨e, _, _, hchildren, he', _⟩ := h.gains
  exact ⟨_, he', hchildren⟩

/-- Only elements and roots count. -/
theorem says_of_eq (hc : Holds c d) (helements : d'.elements = d.elements)
    (hroots : d'.roots = d.roots) : Says c d d' "" := by
  have hsize : d'.size = d.size := by rw [Document.size, helements]; rfl
  have hold (i : Nat) : d'.element? i = d.element? i := by rw [element?, helements]; rfl
  obtain ⟨e, he, hchildren⟩ := hc
  refine ⟨Nat.le_of_eq hsize.symm, fun i _ _ => hold i, hsize ▸ d'.ascends_size, hroots,
    e, [], he, hchildren, ?_, nofun, rfl⟩
  rw [hold, he, List.append_nil]

theorem Says.trans (h : Says c d d' said) (h' : Says c d' d'' said') :
    Says c d d'' (said ++ said') := by
  have hc := h.lt
  have hnew (i : Nat) (hi : d.size ≤ i) (hlt : i < d'.size) : d''.element? i = d'.element? i :=
    h'.old i hlt (by omega)
  refine ⟨Nat.le_trans h.size h'.size, fun i hi hne => ?_, fun i hi part hpart => ?_,
    h'.roots.trans h.roots, ?_⟩
  · rw [h'.old i (Nat.lt_of_lt_of_le hi h.size) hne, h.old i hi hne]
  · by_cases hlt : i < d'.size
    · rw [partsOf_congr (hnew i hi hlt)] at hpart
      obtain ⟨hpart, hsize⟩ := h.ascends i hi part hpart
      exact ⟨hpart, Nat.lt_of_lt_of_le hsize h'.size⟩
    · exact h'.ascends i (Nat.le_of_not_lt hlt) part hpart
  · obtain ⟨e, gained, he, hchildren, he', hgained, rfl⟩ := h.gains
    obtain ⟨_, gained', hsame, -, he'', hgained', rfl⟩ := h'.gains
    obtain rfl := Option.some.inj (he'.symm.trans hsame)
    have hstable : gained.map d''.textContent = gained.map d'.textContent :=
      List.map_congr_left fun i hi =>
        textContent_stable h.ascends h'.size hnew (hgained i hi).1 (hgained i hi).2
    refine ⟨e, gained ++ gained', he, hchildren, ?_, fun i hi => ?_, ?_⟩
    · rw [he'']
      simp
    · rcases List.mem_append.1 hi with hi | hi
      · exact ⟨(hgained i hi).1, Nat.lt_of_lt_of_le (hgained i hi).2 h'.size⟩
      · exact ⟨Nat.le_trans h.size (hgained' i hi).1, (hgained' i hi).2⟩
    · rw [List.map_append, String.join_append, hstable]

theorem element?_append_of_ne (d : Document) {parent child : Nat} (h : i ≠ parent) :
    (d.append parent child).element? i = d.element? i := by
  rw [element?_append, if_neg h]

theorem size_append (d : Document) (parent child : Nat) :
    (d.append parent child).size = d.size := by
  simp [size, append]

theorem size_push (d : Document) (e : Element) : (d.push e).size = d.size + 1 := by
  simp [size, push]

theorem element?_of_push {e : Element} (h : d'.elements = d.elements.push e) (i : Nat) :
    d'.element? i = if i = d.size then some e else d.element? i := by
  rw [element?, h]
  exact d.element?_push e i

theorem size_of_push {e : Element} (h : d'.elements = d.elements.push e) : d'.size = d.size + 1 := by
  rw [size, h]
  exact d.size_push e

/-- A new element without parts goes into a container. -/
theorem says_push {e : Element} (hc : Holds c d) (hparts : e.parts = []) :
    Says c d ((d.push e).append c d.size) e.ownText := by
  obtain ⟨holder, hholder, hchildren⟩ := hc
  have hlt := lt_size hholder
  have hsize : ((d.push e).append c d.size).size = d.size + 1 := by rw [size_append, size_push]
  have hnew : ((d.push e).append c d.size).element? d.size = some e := by
    rw [element?_append_of_ne _ (Nat.ne_of_gt hlt), element?_push, if_pos rfl]
  have hempty : ((d.push e).append c d.size).partsOf d.size = [] := by rw [partsOf, hnew]; exact hparts
  have hascends : Ascends ((d.push e).append c d.size) d.size := by
    intro i hi part hpart
    rcases Nat.eq_or_lt_of_le hi with rfl | hi
    · rw [hempty] at hpart
      nomatch hpart
    · rw [partsOf_of_size_le (hsize ▸ hi)] at hpart
      nomatch hpart
  refine ⟨by omega, fun i hi hne => ?_, hascends, rfl, holder, [d.size], hholder, hchildren, ?_,
    by simp [hsize], ?_⟩
  · rw [element?_append_of_ne _ hne, element?_push, if_neg (Nat.ne_of_lt hi)]
  · rw [element?_append, if_pos rfl, element?_push, if_neg (Nat.ne_of_lt hlt), hholder]
    simp [hchildren]
  · have htext := textContent_eq hascends (Nat.le_refl d.size) (by omega)
    rw [hempty, wordOf, hnew] at htext
    simpa [String.join] using htext

/-- A new element that can have children has the text that has been read into it. -/
theorem Says.whole {d₁ : Document} {e : Element} (he : d₁.elements = d.elements.push e)
    (hchildren : e.children = []) (h : Says d.size d₁ d' said) :
    Ascends d' d.size ∧ d'.textContent d.size = said := by
  have hsize := size_of_push he
  have hself : d₁.element? d.size = some e := by rw [element?_of_push he, if_pos rfl]
  obtain ⟨e', gained, he', hholds, hafter, hgained, rfl⟩ := h.gains
  obtain rfl := Option.some.inj (hself.symm.trans he')
  have hparts : d'.partsOf d.size = gained := by
    rw [partsOf, hafter, hchildren]
    exact parts_eq_children hholds
  have hlt := lt_size hafter
  have hascends : Ascends d' d.size := by
    intro i hi part hpart
    rcases Nat.eq_or_lt_of_le hi with rfl | hi
    · rw [hparts] at hpart
      exact ⟨by have := (hgained part hpart).1; omega, (hgained part hpart).2⟩
    · exact h.ascends i (by omega) part hpart
  refine ⟨hascends, ?_⟩
  rw [textContent_eq hascends (Nat.le_refl _) hlt, hparts, wordOf, hafter]
  simp [ownText_of_hasChildren, hholds]

/-- What has been read into a new element goes into a container with it. -/
theorem Says.enclose {d₁ : Document} {e : Element} (hc : Holds c d)
    (he : d₁.elements = d.elements.push e) (hroots : d₁.roots = d.roots)
    (hchildren : e.children = []) (h : Says d.size d₁ d' said) :
    Says c d (d'.append c d.size) said := by
  obtain ⟨holder, hholder, hholds⟩ := hc
  obtain ⟨hascends, htext⟩ := h.whole he hchildren
  have hlt := lt_size hholder
  have hsize₁ := size_of_push he
  have hsize : (d'.append c d.size).size = d'.size := size_append _ _ _
  have hsize' := h.size
  have hbefore (i : Nat) (hi : i < d.size) : d'.element? i = d.element? i := by
    rw [h.old i (by omega) (by omega), element?_of_push he, if_neg (by omega)]
  have hafter (i : Nat) (hi : d.size ≤ i) : (d'.append c d.size).element? i = d'.element? i :=
    element?_append_of_ne _ (by omega)
  have hascends' : Ascends (d'.append c d.size) d.size := hascends.mono (Nat.le_of_eq hsize.symm) hafter
  refine ⟨by omega, fun i hi hne => ?_, hascends', h.roots.trans hroots, holder, [d.size], hholder,
    hholds, ?_, by simp [hsize]; omega, ?_⟩
  · rw [element?_append_of_ne _ hne, hbefore i hi]
  · rw [element?_append, if_pos rfl, hbefore c hlt, hholder]
    simp [hholds]
  · have hstable := textContent_stable hascends (Nat.le_of_eq hsize.symm) (fun j hj _ => hafter j hj)
      (Nat.le_refl d.size) (by omega)
    simpa [String.join, htext] using hstable

end Document
end RichText
