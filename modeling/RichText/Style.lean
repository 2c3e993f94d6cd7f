/-
# Styles

A style sets some attributes. It is seen through `get?`: a partial map from
ordinals to values. Room for the values is made at the first write, for as
many attributes as the registry in use knows, and a later write with a larger
registry makes more.

Key definitions: `Style`, `Style.get?`, `Style.put`, `Style.clear`,
`Style.putAll`, `Style.toList`, `Style.read`, `Style.write`.
Key theorems: `Style.get?_put`, `Style.get?_clear`, `Style.get?_putAll`.
-/
import RichText.Attribute

namespace RichText

structure Style where
  /-- The room for values, once there is any. -/
  cells : Option (List (Option Value)) := none
deriving DecidableEq, Repr

namespace Style

def empty : Style := {}

/-- Whether room for values has been made. -/
def isAllocated (s : Style) : Bool := s.cells.isSome

/-- The value set for an ordinal. -/
def get? (s : Style) (ordinal : Nat) : Option Value := (s.cells.getD [])[ordinal]?.join

/-- The ordinals set and their values, in order. -/
def toList (s : Style) : List (Nat × Value) :=
  (s.cells.getD []).zipIdx.filterMap fun cell => cell.1.map fun v => (cell.2, v)

/-- Whether nothing is set. -/
def isEmpty (s : Style) : Bool := (s.cells.getD []).all (·.isNone)

/-- The cells of a style with room for at least `n` values. -/
def room (s : Style) (n : Nat) : List (Option Value) :=
  let cells := s.cells.getD []
  cells ++ List.replicate (n - cells.length) none

/-- Sets the value of an ordinal, if it fits the attribute. -/
def put (r : Registry) (ordinal : Nat) (v : Value) (s : Style) : Except StyleError Style :=
  match r.check ordinal v with
  | .error e => .error e
  | .ok () => .ok ⟨some ((s.room r.size).set ordinal (some v))⟩

/-- The style without a value for an ordinal. -/
def clear (ordinal : Nat) (s : Style) : Style := ⟨s.cells.map fun cells => cells.set ordinal none⟩

/-- Sets the value of an ordinal, or clears it if there is none. -/
def write (r : Registry) (ordinal : Nat) (v : Option Value) (s : Style) : Except StyleError Style :=
  match v with
  | some v => s.put r ordinal v
  | none => .ok (s.clear ordinal)

/-- The value of an ordinal as one of a kind; nothing if it is unset or of
another type. -/
def read (k : Kind) (ordinal : Nat) (s : Style) : Option Value :=
  (s.get? ordinal).bind fun v => (k.read (some v)).join

/-- The style with the values of `other` put over its own. -/
def putAll (s other : Style) : Style :=
  match other.cells with
  | none => s
  | some cells =>
    let room := s.room cells.length
    ⟨some (room.mapIdx fun i old => (cells[i]?.join).or old)⟩

/-- Whether two styles have the same room and the same values. -/
def same (s t : Style) : Bool :=
  match s.cells, t.cells with
  | none, none => true
  | some a, some b =>
    a.length = b.length &&
      (a.zip b).all fun pair =>
        match pair.1, pair.2 with
        | none, none => true
        | some v, some w => v.same w
        | _, _ => false
  | _, _ => false

theorem join_getElem?_room (s : Style) (n i : Nat) : (s.room n)[i]?.join = s.get? i := by
  simp only [room, get?, List.getElem?_append]
  split
  · rfl
  · next h =>
    rw [List.getElem?_eq_none (Nat.le_of_not_lt h)]
    simp only [List.getElem?_replicate]
    split <;> rfl

@[simp]
theorem get?_empty (i : Nat) : empty.get? i = none := by
  simp [get?, empty]

/-- A write sets its ordinal and leaves the others alone. -/
theorem get?_put {r : Registry} {ordinal : Nat} {v : Value} {s t : Style}
    (h : s.put r ordinal v = .ok t) (i : Nat) :
    t.get? i = if i = ordinal then some v else s.get? i := by
  unfold put at h
  split at h
  · simp at h
  · next hc =>
    obtain rfl : _ = t := by simpa using h
    have hlt : ordinal < (s.room r.size).length := by
      have : ordinal < r.size := by
        unfold Registry.check Registry.get? at hc
        split at hc
        · simp at hc
        · next ha => exact (List.getElem?_eq_some_iff.1 ha).1
      simp only [room, List.length_append, List.length_replicate]
      omega
    rw [← join_getElem?_room s r.size i]
    simp only [get?, Option.getD_some, List.getElem?_set]
    by_cases hi : i = ordinal
    · simp [hi, hlt]
    · simp [hi, Ne.symm hi]

/-- A clearing unsets its ordinal and leaves the others alone. -/
theorem get?_clear (ordinal i : Nat) (s : Style) :
    (s.clear ordinal).get? i = if i = ordinal then none else s.get? i := by
  cases hs : s.cells with
  | none => simp [clear, get?, hs]
  | some cells =>
    simp only [clear, get?, hs, Option.map_some, Option.getD_some, List.getElem?_set]
    by_cases hi : i = ordinal
    · subst hi
      by_cases hl : i < cells.length <;> simp [hl]
    · simp [hi, Ne.symm hi]

/-- Where the other style has a value it prevails. -/
theorem get?_putAll (s other : Style) (i : Nat) :
    (s.putAll other).get? i = (other.get? i).or (s.get? i) := by
  cases ho : other.cells with
  | none => simp [putAll, get?, ho]
  | some cells =>
    have hroom := join_getElem?_room s cells.length i
    have hother : other.get? i = cells[i]?.join := by simp [get?, ho]
    rw [hother, ← hroom]
    simp only [putAll, ho]
    simp only [get?, Option.getD_some, List.getElem?_mapIdx]
    cases hr : (s.room cells.length)[i]? with
    | some old => simp
    | none =>
      have : cells.length ≤ i := by
        have := List.getElem?_eq_none_iff.1 hr
        simp only [room, List.length_append, List.length_replicate] at this
        omega
      simp [List.getElem?_eq_none this]

end Style

end RichText
