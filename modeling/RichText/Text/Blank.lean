/-
# Blank characters

The characters with the Unicode property `White_Space`, and the cutting of
texts at them: trimming both ends, and splitting into words.

Key definitions: `isBlank`, `trim`, `words`.
Key theorems: `trimStart_of_not_blank`.
-/

namespace RichText.Text

/-- Whether `c` has the property `White_Space`. -/
def isBlank (c : Char) : Bool :=
  c == ' ' || ('\t' ≤ c && c ≤ '\x0d') || c == '\u0085' || c == '\u00a0' || c == '\u1680' ||
    ('\u2000' ≤ c && c ≤ '\u200a') || c == '\u2028' || c == '\u2029' || c == '\u202f' ||
    c == '\u205f' || c == '\u3000'

def trimStart (s : List Char) : List Char := s.dropWhile isBlank

def trimEnd (s : List Char) : List Char := (s.reverse.dropWhile isBlank).reverse

/-- The text without the blanks at both ends. -/
def trim (s : List Char) : List Char := trimEnd (trimStart s)

/-- A text that starts with no blank is left alone. -/
theorem trimStart_of_not_blank {c : Char} {s : List Char} (h : isBlank c = false) :
    trimStart (c :: s) = c :: s := by
  simp [trimStart, h]

/-- The words of a text, with the word begun before it in `word`. -/
def wordsFrom (word : List Char) : List Char → List (List Char)
  | [] => if word = [] then [] else [word]
  | c :: s =>
    if isBlank c then
      if word = [] then wordsFrom [] s else word :: wordsFrom [] s
    else wordsFrom (word ++ [c]) s

/-- The maximal runs of characters that are not blank. -/
def words (s : List Char) : List (List Char) := wordsFrom [] s

/-- Whether nothing but blanks is there. -/
def allBlank (s : List Char) : Bool := s.all isBlank

end RichText.Text
