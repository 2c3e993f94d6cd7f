/-
# A style is a finite map

What can be seen of a style, its values one by one, their list and whether there are
any, is what can be seen of a partial map from ordinals to values (`Style.Shows`). The
operations on styles are those on maps, in whatever order they come, on however many
styles, with registries of whatever sizes (`finite_map`): so how much room there is and
who has made it does not show, and `putAll` has the laws of putting one map over
another.

A style is changed in place. A value goes to the cell of its ordinal, which must exist,
and the values of another style go over its cells one by one, as many as both have. The
operations in place say so: they have no result where a cell is missing
(`Style.putInPlace`, `Style.putAllInPlace`). It never is, as room has been made before
(`length_room`).

Key definitions: `Style.Shows`, `Style.SameObservations`, `Style.putInPlace`,
`Style.putAllInPlace`, `Style.Operation`, `Style.performAll`, `StyleMaps.performAll`.
Key theorems: `Style.shows_iff`, `Style.putInPlace_eq`, `Style.putAllInPlace_eq`,
`Style.perform_shows`, `finite_map`.
-/
import Mathlib.Logic.Function.Basic
import RichText.Proofs.TypedValues

namespace RichText

namespace Style

variable {r : Registry} {s t : Style}

/-! ### What is seen of a style -/

/-- The style is seen as the map. -/
structure Shows (s : Style) (m : Nat → Option Value) : Prop where
  get : ∀ i, s.get? i = m i
  listed : ∀ i v, (i, v) ∈ s.toList ↔ m i = some v
  ordered : s.toList.Pairwise fun a b => a.1 < b.1
  isEmpty : s.isEmpty = true ↔ ∀ i, m i = none

/-- Ordinals are listed in increasing order, each once. -/
theorem pairwise_toList (s : Style) : s.toList.Pairwise fun a b => a.1 < b.1 := by
  have hplaces : (s.cells.getD []).zipIdx.Pairwise fun a b => a.2 < b.2 := by
    rw [← List.pairwise_map (f := Prod.snd) (R := (· < ·)), List.zipIdx_map_snd]
    exact List.pairwise_lt_range'
  refine hplaces.filterMap _ fun a b hlt x hx y hy => ?_
  obtain ⟨v, -, rfl⟩ := Option.map_eq_some_iff.1 hx
  obtain ⟨w, -, rfl⟩ := Option.map_eq_some_iff.1 hy
  exact hlt

theorem isEmpty_iff : s.isEmpty = true ↔ ∀ i, s.get? i = none := by
  rw [isEmpty, List.all_eq_true]
  constructor
  · intro h i
    by_cases hi : i < (s.cells.getD []).length
    · have hcell := h _ (List.getElem_mem hi)
      rw [get?, List.getElem?_eq_getElem hi]
      simpa using hcell
    · rw [get?, List.getElem?_eq_none (Nat.le_of_not_lt hi)]
      rfl
  · intro h cell hmem
    obtain ⟨i, hi, rfl⟩ := List.mem_iff_getElem.1 hmem
    have hcell := h i
    rw [get?, List.getElem?_eq_getElem hi] at hcell
    simpa using hcell

/-- All that is seen is decided by the values. -/
theorem shows_iff {m : Nat → Option Value} : s.Shows m ↔ ∀ i, s.get? i = m i where
  mp h := h.get
  mpr h := by
    obtain rfl : s.get? = m := funext h
    exact ⟨h, fun i v => mem_toList, s.pairwise_toList, isEmpty_iff⟩

/-- Nothing that is seen tells the two apart. -/
structure SameObservations (s t : Style) : Prop where
  get : ∀ i, s.get? i = t.get? i
  toList : s.toList = t.toList
  isEmpty : s.isEmpty = t.isEmpty

theorem sameObservations_of_get? (h : ∀ i, s.get? i = t.get? i) : SameObservations s t where
  get := h
  toList := by
    have distinct (s : Style) : s.toList.Nodup :=
      s.pairwise_toList.imp fun hlt heq => Nat.ne_of_lt hlt (congrArg Prod.fst heq)
    have hperm : s.toList.Perm t.toList := by
      refine (List.perm_ext_iff_of_nodup (distinct s) (distinct t)).2 fun ⟨i, v⟩ => ?_
      rw [mem_toList, mem_toList, h]
    refine hperm.eq_of_pairwise (fun a b _ _ hab hba => ?_) s.pairwise_toList t.pairwise_toList
    exact absurd hab (Nat.lt_asymm hba)
  isEmpty := by
    rw [Bool.eq_iff_iff, isEmpty_iff, isEmpty_iff]
    simp only [h]

/-! ### Room -/

theorem length_room (s : Style) (n : Nat) :
    (s.room n).length = max (s.cells.getD []).length n := by
  simp only [room, List.length_append, List.length_replicate]
  omega

theorem lt_size_of_check {i : Nat} {v : Value} (h : r.check i v = .ok ()) : i < r.size := by
  obtain ⟨a, ha, -⟩ := Registry.exists_of_check h
  exact (List.getElem?_eq_some_iff.1 ha).1

/-! ### Operations in place -/

/-- The cells with another value in one of them, which has to exist. -/
def setAt? (cells : List (Option Value)) (i : Nat) (cell : Option Value) :
    Option (List (Option Value)) :=
  if i < cells.length then some (cells.set i cell) else none

/-- The cells with the values that are set put over them, cell by cell. Each needs a cell. -/
def copyOver? : (cells values : List (Option Value)) → Option (List (Option Value))
  | cells, [] => some cells
  | [], _ :: _ => none
  | cell :: cells, value :: values => (copyOver? cells values).map (value.or cell :: ·)

theorem copyOver?_eq : ∀ {cells values : List (Option Value)}, values.length ≤ cells.length →
    copyOver? cells values = some (cells.mapIdx fun i old => (values[i]?.join).or old)
  | cells, [], _ => by
    have hsame : cells = cells.mapIdx fun _ old => old := by
      refine List.ext_getElem? fun i => ?_
      simp [List.getElem?_mapIdx]
    simpa [copyOver?] using hsame
  | [], value :: values, h => absurd h (by simp)
  | cell :: cells, value :: values, h => by
    rw [copyOver?, copyOver?_eq (Nat.le_of_succ_le_succ h), List.mapIdx_cons]
    simp

/-- A value is put into the cell of its ordinal, once there is room for the registry. -/
def putInPlace (r : Registry) (ordinal : Nat) (v : Value) (s : Style) :
    Option (Except StyleError Unit × Style) :=
  match r.check ordinal v with
  | .error e => some (.error e, s)
  | .ok () => (setAt? (s.room r.size) ordinal (some v)).map fun cells => (.ok (), ⟨some cells⟩)

/-- The values of another style are put over the cells, once there is room for them. -/
def putAllInPlace (s other : Style) : Option Style :=
  match other.cells with
  | none => some s
  | some values => (copyOver? (s.room values.length) values).map fun cells => ⟨some cells⟩

/-- What a change to a style answers, and the style then: the old one if the change has
failed. -/
@[simp]
def changedTo (s : Style) : Except StyleError Style → Except StyleError Unit × Style
  | .ok t => (.ok (), t)
  | .error e => (.error e, s)

/-- The cell of an ordinal that is accepted exists. -/
theorem putInPlace_eq (r : Registry) (i : Nat) (v : Value) (s : Style) :
    s.putInPlace r i v = some (s.changedTo (s.put r i v)) := by
  unfold putInPlace put
  cases hcheck : r.check i v with
  | error e => rfl
  | ok _ =>
    have hroom : i < (s.room r.size).length := by
      have hlt := lt_size_of_check hcheck
      have hlength := s.length_room r.size
      omega
    simp only [setAt?, if_pos hroom, Option.map_some, changedTo]

/-- No value is without a cell. -/
theorem putAllInPlace_eq (s other : Style) : s.putAllInPlace other = some (s.putAll other) := by
  unfold putAllInPlace putAll
  cases other.cells with
  | none => rfl
  | some values =>
    have hroom : values.length ≤ (s.room values.length).length := by
      have hlength := s.length_room values.length
      omega
    simp only [copyOver?_eq hroom, Option.map_some]

/-! ### Runs -/

/-- What is done to one of several styles. -/
inductive Operation where
  | put (k : Nat) (r : Registry) (ordinal : Nat) (v : Value)
  /-- A write of an attribute that may have no value. -/
  | set (k : Nat) (r : Registry) (ordinal : Nat) (v : Option Value)
  | remove (k : Nat) (ordinal : Nat)
  | putAll (k source : Nat)

/-- What an operation answers: the value removed, if there was one, or why it failed. -/
abbrev Answer := Except StyleError (Option Value)

/-- One operation on numbered styles, unless a cell is missing. -/
def perform (styles : Nat → Style) : Operation → Option (Answer × (Nat → Style))
  | .put k r i v | .set k r i (some v) =>
    ((styles k).putInPlace r i v).map fun done =>
      (done.1.map fun _ => none, Function.update styles k done.2)
  | .set k _ i none => some (.ok none, Function.update styles k ((styles k).clear i))
  | .remove k i => some (.ok ((styles k).get? i), Function.update styles k ((styles k).clear i))
  | .putAll k source =>
    ((styles k).putAllInPlace (styles source)).map fun s =>
      (.ok none, Function.update styles k s)

/-- Operations one after another, and their answers. -/
def performAll (styles : Nat → Style) : List Operation → Option (List Answer × (Nat → Style))
  | [] => some ([], styles)
  | op :: ops =>
    (perform styles op).bind fun first =>
      (performAll first.2 ops).map fun more => (first.1 :: more.1, more.2)

end Style

/-! ### Maps -/

namespace StyleMaps

open Style (Operation Answer)

/-- The operation on numbered maps from ordinals to values. -/
def perform (maps : Nat → Nat → Option Value) : Operation → Answer × (Nat → Nat → Option Value)
  | .put k r i v | .set k r i (some v) =>
    match r.check i v with
    | .ok () => (.ok none, Function.update maps k (Function.update (maps k) i (some v)))
    | .error e => (.error e, maps)
  | .set k _ i none => (.ok none, Function.update maps k (Function.update (maps k) i none))
  | .remove k i => (.ok (maps k i), Function.update maps k (Function.update (maps k) i none))
  | .putAll k source =>
    (.ok none, Function.update maps k fun i => (maps source i).or (maps k i))

def performAll (maps : Nat → Nat → Option Value) :
    List Operation → List Answer × (Nat → Nat → Option Value)
  | [] => ([], maps)
  | op :: ops =>
    let first := perform maps op
    let more := performAll first.2 ops
    (first.1 :: more.1, more.2)

end StyleMaps

namespace Style

variable {s t : Style} {styles styles' : Nat → Style} {maps : Nat → Nat → Option Value}

theorem Shows.update (h : ∀ k, (styles k).Shows (maps k)) (k : Nat) {s : Style}
    {m : Nat → Option Value} (hs : s.Shows m) (j : Nat) :
    (Function.update styles k s j).Shows (Function.update maps k m j) := by
  by_cases hj : j = k
  · subst hj
    rwa [Function.update_self, Function.update_self]
  · rw [Function.update_of_ne hj, Function.update_of_ne hj]
    exact h j

theorem Shows.clear {m : Nat → Option Value} (h : s.Shows m) (i : Nat) :
    (s.clear i).Shows (Function.update m i none) := by
  refine shows_iff.2 fun j => ?_
  rw [get?_clear, Function.update_apply, h.get]

theorem Shows.putAll {m m' : Nat → Option Value} (h : s.Shows m) (h' : t.Shows m') :
    (s.putAll t).Shows fun i => (m' i).or (m i) :=
  shows_iff.2 fun i => by rw [get?_putAll, h.get, h'.get]

/-- A write that is checked does to the map what it does to the style. -/
theorem Shows.put (h : ∀ k, (styles k).Shows (maps k)) (k : Nat) (r : Registry) (i : Nat)
    (v : Value) : ∃ styles',
      perform styles (.put k r i v) = some ((StyleMaps.perform maps (.put k r i v)).1, styles') ∧
        ∀ j, (styles' j).Shows ((StyleMaps.perform maps (.put k r i v)).2 j) := by
  cases hcheck : r.check i v with
  | error e =>
    refine ⟨styles, ?_, ?_⟩
    · simp [perform, StyleMaps.perform, putInPlace, hcheck, Except.map]
    · simpa [StyleMaps.perform, hcheck] using h
  | ok _ =>
    have hput := put_of_check hcheck (styles k)
    refine ⟨Function.update styles k ⟨some (((styles k).room r.size).set i (some v))⟩, ?_, ?_⟩
    · simp [perform, StyleMaps.perform, putInPlace_eq, hput, hcheck, Except.map]
    · simp only [StyleMaps.perform, hcheck]
      refine Shows.update h k (shows_iff.2 fun j => ?_)
      rw [get?_put hput, Function.update_apply, (h k).get]

/-- What an operation does to a style it does to the map that is seen, and no cell is missing. -/
theorem perform_shows (h : ∀ k, (styles k).Shows (maps k)) (op : Operation) : ∃ styles',
    perform styles op = some ((StyleMaps.perform maps op).1, styles') ∧
      ∀ k, (styles' k).Shows ((StyleMaps.perform maps op).2 k) := by
  cases op with
  | put k r i v => exact Shows.put h k r i v
  | set k r i v =>
    cases v with
    | some v => exact Shows.put h k r i v
    | none => exact ⟨_, rfl, Shows.update h k ((h k).clear i)⟩
  | remove k i =>
    refine ⟨_, ?_, Shows.update h k ((h k).clear i)⟩
    simp only [perform, StyleMaps.perform, (h k).get]
  | putAll k source =>
    refine ⟨_, ?_, Shows.update h k ((h k).putAll (h source))⟩
    simp only [perform, StyleMaps.perform, putAllInPlace_eq, Option.map_some]

theorem performAll_shows : ∀ (ops : List Operation) {styles : Nat → Style}
    {maps : Nat → Nat → Option Value}, (∀ k, (styles k).Shows (maps k)) → ∃ styles',
    performAll styles ops = some ((StyleMaps.performAll maps ops).1, styles') ∧
      ∀ k, (styles' k).Shows ((StyleMaps.performAll maps ops).2 k)
  | [], styles, _, h => ⟨styles, rfl, h⟩
  | op :: ops, styles, maps, h => by
    obtain ⟨styles₁, hfirst, h₁⟩ := perform_shows h op
    obtain ⟨styles₂, hmore, h₂⟩ := performAll_shows ops h₁
    refine ⟨styles₂, ?_, h₂⟩
    rw [performAll, hfirst, Option.bind_some, hmore]
    rfl

/-- An operation that fails changes no style, not even its room. -/
theorem perform_error {op : Operation} {e : StyleError}
    (h : perform styles op = some (.error e, styles')) : styles' = styles := by
  have written {k i : Nat} {r : Registry} {v : Value}
      (h : perform styles (.put k r i v) = some (.error e, styles')) : styles' = styles := by
    simp only [perform, putInPlace_eq, Option.map_some, Option.some.injEq, Prod.mk.injEq] at h
    obtain ⟨hanswer, rfl⟩ := h
    cases hput : (styles k).put r i v with
    | ok t => simp [hput, Except.map] at hanswer
    | error e => exact Function.update_eq_self k styles
  cases op with
  | put k r i v => exact written h
  | set k r i v =>
    cases v with
    | some v => exact written (k := k) (r := r) (i := i) (v := v) h
    | none => simp [perform] at h
  | remove k i => simp [perform] at h
  | putAll k source => simp [perform, putAllInPlace_eq] at h

end Style

open Style in
/-- **A style is a finite map.** Whatever is done to however many styles, with whatever
registries, no cell is ever missing, and the answers and all that is seen of the styles
are those of maps from ordinals to values. What fails changes nothing. What is done in
place is what `put` and `putAll` return, so one style put over another has the laws of
maps put over one another. -/
theorem finite_map :
    (∀ ops : List Operation, ∃ styles,
      performAll (fun _ => .empty) ops =
          some ((StyleMaps.performAll (fun _ _ => none) ops).1, styles) ∧
        ∀ k, (styles k).Shows ((StyleMaps.performAll (fun _ _ => none) ops).2 k)) ∧
    (∀ (styles styles' : Nat → Style) (op : Operation) (e : StyleError),
      perform styles op = some (.error e, styles') → styles' = styles) ∧
    (∀ (r : Registry) (i : Nat) (v : Value) (s : Style),
      s.putInPlace r i v = some (s.changedTo (s.put r i v))) ∧
    (∀ s other : Style, s.putAllInPlace other = some (s.putAll other)) ∧
    ∀ a b c : Style,
      SameObservations ((a.putAll b).putAll c) (a.putAll (b.putAll c)) ∧
        SameObservations (a.putAll a) a ∧ SameObservations (a.putAll .empty) a ∧
        SameObservations (Style.empty.putAll a) a := by
  refine ⟨fun ops => ?_, fun _ _ _ _ h => perform_error h, putInPlace_eq, putAllInPlace_eq,
    fun a b c => ?_⟩
  · exact performAll_shows ops fun _ => shows_iff.2 fun i => get?_empty i
  · refine ⟨?_, ?_, ?_, ?_⟩ <;> refine sameObservations_of_get? fun i => ?_
    · simp only [get?_putAll, Option.or_assoc]
    · rw [get?_putAll, Option.or_self]
    · rw [get?_putAll, get?_empty, Option.none_or]
    · rw [get?_putAll, get?_empty, Option.or_none]

open Style in
/-- A standard registry has no attribute 33, so the room of the styles stays as it is. -/
theorem finite_map_refused : ∃ styles,
    perform (fun _ => ⟨some [none]⟩) (.put 3 .standard 33 (.flag true)) =
        some (.error (.outOfRange 33), styles) ∧
      styles = fun _ => ⟨some [none]⟩ :=
  ⟨_, rfl, finite_map.2.1 _ _ (.put 3 .standard 33 (.flag true)) (.outOfRange 33) rfl⟩

open Style in
/-- What a larger registry has written reaches a style with less room. -/
example : (performAll (fun _ => .empty)
      [.put 0 .standard Standard.preformatted (.flag true),
        .put 1 (Registry.standard.register "spread" false ⟨.integer, false⟩ none) 33 (.integer 2),
        .putAll 0 1, .remove 1 33]).map (fun run => (run.2 0).toList) =
    some [(Standard.preformatted, .flag true), (33, .integer 2)] := by
  rfl

end RichText
