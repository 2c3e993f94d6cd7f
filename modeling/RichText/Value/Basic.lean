/-
# Attribute values

The values that a style attribute may have, the type of each, and what a
reader who expects a kind of value makes of one. A kind is a type, either
plain or optional; an optional one has room for no value.

Key definitions: `ValueType`, `Value`, `Value.render`, `Value.same`, `Kind`,
`Kind.read`, `Kind.initial`.
Key theorems: `ValueType.type_initial`, `Kind.type_of_read`,
`Kind.type_of_readOrInitial`.
-/
import RichText.Value.Color
import RichText.Value.Keyword
import RichText.Value.Length
import RichText.Value.Numbering

namespace RichText

inductive ValueType where
  | horizontalAlignment
  | verticalAlignment
  | length
  | textDecoration
  | fontFamilies
  | integer
  | flag
  | text
  | numbering
  | color
  | clear
  | display
  | floatPosition
deriving DecidableEq, Repr

/-- The name of a type in messages. -/
def ValueType.name : ValueType → String
  | horizontalAlignment => "HAlignment"
  | verticalAlignment => "VAlignment"
  | length => "Value"
  | textDecoration => "TextDecoration"
  | fontFamilies => "FontFamilies"
  | integer => "Integer"
  | flag => "Bool"
  | text => "String"
  | numbering => "OrderedListType"
  | color => "Color"
  | clear => "Clear"
  | display => "Display"
  | floatPosition => "FloatPosition"

inductive Value where
  | horizontalAlignment (v : HorizontalAlignment)
  | verticalAlignment (v : VerticalAlignment)
  | length (v : Length)
  | textDecoration (v : TextDecoration)
  | fontFamilies (v : List String)
  | integer (v : Int)
  | flag (v : Bool)
  | text (v : String)
  | numbering (v : Numbering)
  | color (v : Color)
  | clear (v : Clear)
  | display (v : Display)
  | floatPosition (v : FloatPosition)
deriving DecidableEq, Repr

namespace Value

def type : Value → ValueType
  | horizontalAlignment _ => .horizontalAlignment
  | verticalAlignment _ => .verticalAlignment
  | length _ => .length
  | textDecoration _ => .textDecoration
  | fontFamilies _ => .fontFamilies
  | integer _ => .integer
  | flag _ => .flag
  | text _ => .text
  | numbering _ => .numbering
  | color _ => .color
  | clear _ => .clear
  | display _ => .display
  | floatPosition _ => .floatPosition

/-- How a value is written. -/
def render : Value → String
  | horizontalAlignment v => Keyword.keyword v
  | verticalAlignment v => Keyword.keyword v
  | length v => v.text
  | textDecoration v => Keyword.keyword v
  | fontFamilies v => ", ".intercalate v
  | integer v => String.ofList (Number.integer v)
  | flag v => if v then "true" else "false"
  | text v => v
  | numbering v => v.text
  | color v => v.text
  | clear v => Keyword.keyword v
  | display v => Keyword.keyword v
  | floatPosition v => Keyword.keyword v

/-- Whether two values are the same; lengths are compared as numbers are. -/
def same : Value → Value → Bool
  | length v, length w => v.same w
  | v, w => v = w

end Value

/-- The value that stands for a type when nothing else is given. -/
def ValueType.initial : ValueType → Value
  | horizontalAlignment => .horizontalAlignment .left
  | verticalAlignment => .verticalAlignment .bottom
  | length => .length (.px 0)
  | textDecoration => .textDecoration .none
  | fontFamilies => .fontFamilies []
  | integer => .integer 0
  | flag => .flag false
  | text => .text ""
  | numbering => .numbering .decimal
  | color => .color .black
  | clear => .clear .none
  | display => .display .inline
  | floatPosition => .floatPosition .none

theorem ValueType.type_initial (t : ValueType) : t.initial.type = t := by
  cases t <;> rfl

/-- What a reader expects: a value of a type, or, if it is optional, perhaps
none. -/
structure Kind where
  type : ValueType
  optional : Bool
deriving DecidableEq, Repr

namespace Kind

/-- What a reader gets from a value, or from there being none; nothing if that
is not of the kind. -/
def read (k : Kind) : Option Value → Option (Option Value)
  | some v => if v.type = k.type then some (some v) else none
  | none => if k.optional then some none else none

/-- What a reader gets when there is nothing of the kind. -/
def initial (k : Kind) : Option Value := if k.optional then none else some k.type.initial

/-- What a reader gets in any case. -/
def readOrInitial (k : Kind) (v : Option Value) : Option Value := (k.read v).getD k.initial

/-- A value of the type is read as it is. -/
@[simp]
theorem read_some {k : Kind} {v : Value} (h : v.type = k.type) : k.read (some v) = some (some v) := by
  simp [read, h]

/-- Whatever is read is of the type. -/
theorem type_of_read {k : Kind} {v w : Option Value} (h : k.read v = some w) :
    ∀ x ∈ w, x.type = k.type := by
  cases v with
  | none =>
    simp only [read] at h
    split at h
    · obtain rfl : none = w := by simpa using h
      simp
    · simp at h
  | some v =>
    simp only [read] at h
    split at h
    · next ht =>
      intro x hx
      obtain rfl : some v = w := by simpa using h
      obtain rfl : v = x := by simpa using hx
      exact ht
    · simp at h

/-- What a reader gets in any case is of the type. -/
theorem type_of_readOrInitial (k : Kind) (v : Option Value) :
    ∀ x ∈ k.readOrInitial v, x.type = k.type := by
  cases h : k.read v with
  | some w => simpa [readOrInitial, h] using type_of_read h
  | none =>
    intro x hx
    simp only [readOrInitial, h, Option.getD_none, initial] at hx
    split at hx
    · simp at hx
    · obtain rfl : k.type.initial = x := by simpa using hx
      exact k.type.type_initial

end Kind

end RichText
