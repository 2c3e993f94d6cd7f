/-
# Quoted texts

How a text is shown in a message: between double quotes, with an escape for
the quote and the backslash, for the usual controls, and for every character
that does not show. A single quote stands as it is.

Key definitions: `escape`, `quoted`.
-/
import RichText.Number.Digits
import RichText.Text.Hidden

namespace RichText.Text

/-- How a character is written between double quotes. -/
def escape (c : Char) : List Char :=
  if c = '\x00' then ['\\', '0']
  else if c = '\t' then ['\\', 't']
  else if c = '\x0d' then ['\\', 'r']
  else if c = '\n' then ['\\', 'n']
  else if c = '"' then ['\\', '"']
  else if c = '\\' then ['\\', '\\']
  else if isHidden c then ['\\', 'u', '{'] ++ Number.hexadecimal c.toNat ++ ['}']
  else [c]

/-- The text between double quotes. -/
def quoted (s : String) : String :=
  String.ofList ('"' :: s.toList.flatMap escape ++ ['"'])

end RichText.Text
