/-
# Lengths

A number with a unit. Em, ex and percent are relative to the font and the
container, and `auto` leaves the choice to the layout.

Key definitions: `LengthUnit`, `Length`, `Length.toPx`, `Length.text`.
-/
import RichText.Number.Shortest

namespace RichText

inductive LengthUnit where
  | px
  | pt
  /-- Relative to the font size. -/
  | em
  /-- Relative to the height of a small x. -/
  | ex
  | percent
  | auto
deriving DecidableEq, Repr

namespace LengthUnit

/-- Whether only the font decides what the unit is worth. -/
def isFontBased : LengthUnit → Bool
  | em | ex => true
  | _ => false

/-- What is written behind the number. -/
def suffix : LengthUnit → String
  | px => "px"
  | pt => "pt"
  | em => "em"
  | ex => "ex"
  | percent => "%"
  | auto => "auto"

end LengthUnit

structure Length where
  number : Float32
  unit : LengthUnit
deriving DecidableEq, Repr

namespace Length

def px (n : Nat) : Length := ⟨Number.float32OfNat n, .px⟩

def auto : Length := ⟨Number.float32OfNat 0, .auto⟩

/-- The length in pixels. -/
def toPx (l : Length) (fontSize xHeight containerSize : Float32) : Float32 :=
  match l.unit with
  | .px => l.number
  | .pt => l.number * Number.float32OfNat 4 / Number.float32OfNat 3
  | .em => l.number * fontSize
  | .ex => l.number * xHeight
  | .percent => l.number / Number.float32OfNat 100 * containerSize
  | .auto => Number.float32OfNat 0

/-- The number and its unit; `auto` has no number. -/
def text (l : Length) : String :=
  if l.unit = .auto then l.unit.suffix else Number.float32Text l.number ++ l.unit.suffix

/-- Whether two lengths are the same amount of the same unit. As for numbers,
the two zeros are one and a length without a value is unlike itself. -/
def same (l m : Length) : Bool := l.number == m.number && l.unit = m.unit

end Length

end RichText
