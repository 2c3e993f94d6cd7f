/-
# Style attributes

Each attribute has a name, a type, a default and a rule of inheritance, and is
addressed by its ordinal. The standard attributes come first in every
registry; attributes registered later follow them. Some standard attributes
have a twin that holds while the pointer hovers over the element.

Key definitions: `Attribute`, `Registry`, `Registry.register`,
`Registry.get`, `Registry.ofName`, `Registry.check`, `Standard`.
Key theorems: `Registry.get?_register`, `Registry.standard_length`.
-/
import RichText.StyleError

namespace RichText

/-- When an attribute holds. -/
inductive Variant where
  | base
  /-- While the pointer is over the element. -/
  | hover
deriving DecidableEq, Repr

structure Attribute where
  name : String
  /-- Whether a node without a value of its own takes its parent's. -/
  inherited : Bool
  type : ValueType
  default : Option Value
  variant : Variant := .base
  /-- The ordinal of the twin for hovering. -/
  hover : Option Nat := none
  default_type : ∀ v ∈ default, v.type = type

namespace Attribute

/-- An attribute that has a default. -/
def of (name : String) (inherited : Bool) (default : Value) (hover : Option Nat) : Attribute where
  name
  inherited
  type := default.type
  default := some default
  hover
  default_type := by simp

/-- An attribute for hovering. -/
def twin (name : String) (inherited : Bool) (type : ValueType) (default : Option Value)
    (h : ∀ v ∈ default, v.type = type) : Attribute where
  name
  inherited
  type
  default
  variant := .hover
  default_type := h

/-- An attribute of a kind. A default that is not of the kind gives way to the
one of the type. -/
def ofKind (name : String) (inherited : Bool) (kind : Kind) (default : Option Value) :
    Attribute where
  name
  inherited
  type := kind.type
  default := kind.readOrInitial default
  default_type := kind.type_of_readOrInitial default

end Attribute

-- the ordinals of the standard attributes
namespace Standard

def horizontalAlignment : Nat := 0
def verticalAlignment : Nat := 1
def textIndent : Nat := 2
def textDecoration : Nat := 3
def textDecorationHover : Nat := 4
def fontFamilies : Nat := 5
def fontSize : Nat := 6
def fontWeight : Nat := 7
def fontItalic : Nat := 8
def tabSize : Nat := 9
def listStyleImage : Nat := 10
def listStyleType : Nat := 11
def preformatted : Nat := 12
def breakWord : Nat := 13
def color : Nat := 14
def colorHover : Nat := 15
def inheritHover : Nat := 16
def clear : Nat := 17
def display : Nat := 18
def floatPosition : Nat := 19
def width : Nat := 20
def height : Nat := 21
def backgroundImage : Nat := 22
def backgroundColor : Nat := 23
def backgroundColorHover : Nat := 24
def marginTop : Nat := 25
def marginLeft : Nat := 26
def marginRight : Nat := 27
def marginBottom : Nat := 28
def paddingTop : Nat := 29
def paddingLeft : Nat := 30
def paddingRight : Nat := 31
def paddingBottom : Nat := 32

/-- The standard attributes in the order of their ordinals. -/
def attributes : List Attribute := [
  .of "horizontal-alignment" true (.horizontalAlignment .left) none,
  .of "vertical-alignment" true (.verticalAlignment .bottom) none,
  .of "text-indent" true (.length (.px 0)) none,
  .of "text-decoration" true (.textDecoration .none) (some textDecorationHover),
  .twin "text-decoration-hover" true .textDecoration (some (.textDecoration .none)) (by simp [Value.type]),
  .of "font-families" true (.fontFamilies ["default"]) none,
  .of "font-size" true (.length (.px 14)) none,
  .of "font-weight" true (.integer 400) none,
  .of "font-italic" true (.flag false) none,
  .of "tab-size" true (.integer 8) none,
  .of "list-style-image" true (.text "ul-bullet") none,
  .of "list-style-type" true (.numbering .decimal) none,
  .of "preformatted" true (.flag false) none,
  .of "break-word" true (.flag false) none,
  .of "color" true (.color .white) (some colorHover),
  .twin "color-hover" true .color none (by simp),
  .of "inherit-hover" true (.flag false) none,
  .of "clear" false (.clear .none) none,
  .of "display" false (.display .inline) none,
  .of "float-position" false (.floatPosition .none) none,
  .of "width" false (.length .auto) none,
  .of "height" false (.length .auto) none,
  .ofKind "background-image" false ⟨.text, true⟩ none,
  .of "background-color" false (.color .transparent) (some backgroundColorHover),
  .twin "background-color-hover" false .color (some (.color .transparent)) (by simp [Value.type]),
  .of "margin-top" false (.length (.px 0)) none,
  .of "margin-left" false (.length (.px 0)) none,
  .of "margin-right" false (.length (.px 0)) none,
  .of "margin-bottom" false (.length (.px 0)) none,
  .of "padding-top" false (.length (.px 0)) none,
  .of "padding-left" false (.length (.px 0)) none,
  .of "padding-right" false (.length (.px 0)) none,
  .of "padding-bottom" false (.length (.px 0)) none]

end Standard

/-- The standard attributes and those registered after them. -/
structure Registry where
  custom : List Attribute

namespace Registry

/-- The registry of the standard attributes alone. -/
def standard : Registry := ⟨[]⟩

/-- All attributes in the order of their ordinals. -/
def attributes (r : Registry) : List Attribute := Standard.attributes ++ r.custom

def size (r : Registry) : Nat := r.attributes.length

/-- The registry with one attribute more. -/
def register (r : Registry) (name : String) (inherited : Bool) (kind : Kind)
    (default : Option Value) : Registry :=
  ⟨r.custom ++ [.ofKind name inherited kind default]⟩

/-- The attribute of an ordinal, if there is one. -/
def get? (r : Registry) (ordinal : Nat) : Option Attribute := r.attributes[ordinal]?

/-- The attribute of an ordinal. -/
def get (r : Registry) (ordinal : Nat) : Except StyleError Attribute :=
  match r.get? ordinal with
  | some a => .ok a
  | none => .error (.outOfRange ordinal)

/-- The ordinal of a name; of several attributes with it the last one's. -/
def ofName (r : Registry) (name : String) : Except StyleError Nat :=
  match r.attributes.reverse.findIdx? fun a => a.name == name with
  | some i => .ok (r.size - 1 - i)
  | none => .error (.unknownAttribute name)

/-- The ordinal of the twin for hovering. -/
def hover? (r : Registry) (ordinal : Nat) : Option Nat := (r.get? ordinal).bind (·.hover)

/-- Whether the attribute of an ordinal is inherited; one that does not exist
is not. -/
def isInherited (r : Registry) (ordinal : Nat) : Bool :=
  (r.get? ordinal).any (·.inherited)

/-- Refuses a value that the attribute of an ordinal cannot have. -/
def check (r : Registry) (ordinal : Nat) (value : Value) : Except StyleError Unit :=
  match r.get? ordinal with
  | none => .error (.outOfRange ordinal)
  | some a => if a.type = value.type then .ok () else .error (.typeMismatch a.name a.type value.type)

@[simp]
theorem standard_length : Standard.attributes.length = 33 := rfl

theorem attributes_register (r : Registry) (name : String) (inherited : Bool) (kind : Kind)
    (default : Option Value) :
    (r.register name inherited kind default).attributes =
      r.attributes ++ [.ofKind name inherited kind default] := by
  simp [attributes, register]

/-- Registering an attribute changes no other. -/
theorem get?_register (r : Registry) (name : String) (inherited : Bool) (kind : Kind)
    (default : Option Value) (ordinal : Nat) :
    (r.register name inherited kind default).get? ordinal =
      if ordinal = r.size then some (.ofKind name inherited kind default)
      else r.get? ordinal := by
  unfold get? size
  rw [attributes_register]
  generalize r.attributes = known
  rcases Nat.lt_trichotomy ordinal known.length with h | rfl | h
  · rw [List.getElem?_append_left h, if_neg (Nat.ne_of_lt h)]
  · simp
  · rw [List.getElem?_eq_none (by simp; omega), List.getElem?_eq_none (by omega),
      if_neg (Nat.ne_of_gt h)]

end Registry

end RichText
