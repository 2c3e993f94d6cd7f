/-
# Printing JSON

Every item of an array and every field of an object has a line of its own,
two spaces further in than the brackets around it. Of the characters in a text
the quote, the backslash and the control characters of ASCII are escaped.

Key definitions: `Json.escape`, `Json.quoted`, `Json.render`.
-/
import RichText.Json.Basic

namespace RichText.Json

/-- A character in a text. -/
def escape (c : Char) : List Char :=
  match c with
  | '"' => ['\\', '"']
  | '\\' => ['\\', '\\']
  | '\n' => ['\\', 'n']
  | '\x0d' => ['\\', 'r']
  | '\t' => ['\\', 't']
  | '\x08' => ['\\', 'b']
  | '\x0c' => ['\\', 'f']
  | c => if c < ' ' then ['\\', 'u'] ++ Number.zeroPadded 4 (Number.hexadecimal c.toNat) else [c]

/-- A text between quotes. -/
def quoted (s : String) : List Char := '"' :: s.toList.flatMap escape ++ ['"']

/-- A line break and the indentation of the line behind it. -/
def newline (depth : Nat) : List Char := '\n' :: List.replicate (2 * depth) ' '

/-- Parts between brackets, each on a line of its own. -/
def bracketed (depth : Nat) (first last : Char) : List (List Char) → List Char
  | [] => [first, last]
  | parts =>
    first :: [','].intercalate (parts.map fun part => newline (depth + 1) ++ part) ++
      newline depth ++ [last]

mutual

/-- The lines of a value that begins `depth` steps in. -/
def lines (depth : Nat) : Json → List Char
  | null => "null".toList
  | bool b => (if b then "true" else "false").toList
  | number written => written.toList
  | text s => quoted s
  | array items => bracketed depth '[' ']' (linesOfItems (depth + 1) items)
  | object fields => bracketed depth '\x7b' '\x7d' (linesOfFields (depth + 1) fields)
  | unpaired => "null".toList

def linesOfItems (depth : Nat) : List Json → List (List Char)
  | [] => []
  | item :: items => lines depth item :: linesOfItems depth items

def linesOfFields (depth : Nat) : List (String × Json) → List (List Char)
  | [] => []
  | (name, value) :: fields =>
    (quoted name ++ [':', ' '] ++ lines depth value) :: linesOfFields depth fields

end

/-- The text of a value. -/
def render (j : Json) : String := String.ofList (j.lines 0)

end RichText.Json
