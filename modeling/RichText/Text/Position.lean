/-
# Lines and columns

A place in a text as it is reported: the line and the column, both counted
from one. A newline starts a line; every other character is one column.

Key definitions: `Position`, `Position.next`, `Position.after`.
Key theorems: `Position.after_append`.
-/

namespace RichText.Text

structure Position where
  line : Nat
  column : Nat
deriving DecidableEq, Repr

namespace Position

def start : Position := ⟨1, 1⟩

/-- The place behind `c`. -/
def next (p : Position) (c : Char) : Position :=
  if c = '\n' then ⟨p.line + 1, 1⟩ else ⟨p.line, p.column + 1⟩

/-- The place behind a text. -/
def after (p : Position) (s : List Char) : Position := s.foldl next p

theorem after_append (p : Position) (s t : List Char) :
    p.after (s ++ t) = (p.after s).after t := by
  simp [after]

end Position

end RichText.Text
