/-
# Sets of characters given by ranges

A property of characters outside ASCII is a list of code point ranges, each
with both its ends in it.

Key definitions: `Ranges.contains`.
-/

namespace RichText.Text

/-- A set of code points: closed ranges in ascending order. -/
abbrev Ranges := List (Nat × Nat)

/-- Whether the code point of `c` lies in one of the ranges. -/
def Ranges.contains (ranges : Ranges) (c : Char) : Bool :=
  ranges.any fun range => range.1 ≤ c.toNat && c.toNat ≤ range.2

end RichText.Text
