/-
# Columns of text

Texts filled up with spaces to the width of a column, which counts characters.
A longer text is left as it is.

Key definitions: `leftAligned`, `rightAligned`.
-/

namespace RichText.Text

/-- The spaces that fill a text up to `width` characters. -/
def filling (width : Nat) (s : String) : String := "".pushn ' ' (width - s.length)

def leftAligned (width : Nat) (s : String) : String := s ++ filling width s

def rightAligned (width : Nat) (s : String) : String := filling width s ++ s

end RichText.Text
