/-
# Keywords

The values that are one of a few words. A keyword is read in any case and
written in small letters.

Key definitions: `Keyword`, `ofKeyword?`, and the enumerations.
-/
import RichText.Text.Cut

namespace RichText

/-- A type whose values are keywords. -/
class Keyword (α : Type) where
  /-- The values, in the order in which their keywords are tried. -/
  all : List α
  keyword : α → String

/-- The value of a keyword in any case. -/
def ofKeyword? (α : Type) [Keyword α] (s : String) : Option α :=
  Keyword.all.find? fun a : α => Text.sameLetters s (Keyword.keyword a)

/-- The values of `text-align`. -/
inductive HorizontalAlignment where
  | left
  | right
  | center
  | justify
deriving DecidableEq, Repr

instance : Keyword HorizontalAlignment where
  all := [.left, .right, .center, .justify]
  keyword
    | .left => "left"
    | .right => "right"
    | .center => "center"
    | .justify => "justify"

/-- The values of `vertical-align`. -/
inductive VerticalAlignment where
  | top
  | middle
  | bottom
  | fill
deriving DecidableEq, Repr

instance : Keyword VerticalAlignment where
  all := [.top, .middle, .bottom, .fill]
  keyword
    | .top => "top"
    | .middle => "middle"
    | .bottom => "bottom"
    | .fill => "fill"

/-- The values of `display`. -/
inductive Display where
  | inline
  | block
deriving DecidableEq, Repr

instance : Keyword Display where
  all := [.inline, .block]
  keyword
    | .inline => "inline"
    | .block => "block"

/-- The values of `clear`. -/
inductive Clear where
  | none
  | left
  | right
  | both
deriving DecidableEq, Repr

instance : Keyword Clear where
  all := [.none, .left, .right, .both]
  keyword
    | .none => "none"
    | .left => "left"
    | .right => "right"
    | .both => "both"

/-- The values of `float`. -/
inductive FloatPosition where
  | none
  | left
  | right
deriving DecidableEq, Repr

instance : Keyword FloatPosition where
  all := [.none, .left, .right]
  keyword
    | .none => "none"
    | .left => "left"
    | .right => "right"

/-- The values of `text-decoration`. -/
inductive TextDecoration where
  | none
  | underline
  | lineThrough
deriving DecidableEq, Repr

instance : Keyword TextDecoration where
  all := [.none, .underline, .lineThrough]
  keyword
    | .none => "none"
    | .underline => "underline"
    | .lineThrough => "line-through"

end RichText
