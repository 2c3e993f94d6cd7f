/-
# Tokens of a stylesheet

The tokens, the modes that decide which characters form them, and the errors
of reading a stylesheet.

Key definitions: `Token`, `Mode`, `ParseError`, `isNameStart`, `isNameChar`,
`isSpace`.
-/
import RichText.Input
import RichText.Text.Letter
import RichText.Text.Position
import RichText.Text.Quoted

namespace RichText.Sheet

open RichText.Text

inductive Token where
  | identifier
  | star
  | dot
  | hash
  | greater
  | comma
  | blockOpen
  | blockClose
  | colon
  | semicolon
  | atSign
  | endOfInput
deriving DecidableEq, Repr

/-- How a token is named in an error. -/
def Token.describe : Token → String
  | .identifier => "identifier"
  | .star => "'*'"
  | .dot => "'.'"
  | .hash => "'#'"
  | .greater => "'>'"
  | .comma => "','"
  | .blockOpen => "'\x7b'"
  | .blockClose => "'\x7d'"
  | .colon => "':'"
  | .semicolon => "';'"
  | .atSign => "'@'"
  | .endOfInput => "end of input"

/-- Where in a stylesheet a scanner is. -/
inductive Mode where
  /-- Among selectors and the names of at-rules. -/
  | selectors
  /-- In a block, where a property name may come. -/
  | block
  /-- In the value of a declaration. -/
  | value
  /-- In a single-quoted string of a value. -/
  | singleQuoted
  /-- In a double-quoted string of a value. -/
  | doubleQuoted
deriving DecidableEq, Repr

/-- Why a stylesheet cannot be read. -/
inductive ParseError where
  /-- A text at `position` that no token begins with. -/
  | lexical (position : Position) (text : String)
  /-- A token that does not fit. -/
  | unexpected (position : Position) (found : String)
  | read (fault : ReadFault)
deriving DecidableEq, Repr

def ParseError.message : ParseError → String
  | .lexical p text => s!"Lexical error at line {p.line}, column {p.column}: unexpected {quoted text}"
  | .unexpected p found => s!"Unexpected {found} at line {p.line}, column {p.column}"
  | .read fault => s!"IO error: {fault.message}"

/-- A character that a name may begin with. -/
def isNameStart (c : Char) : Bool := isAlphabetic c || c == '_' || c == '-'

/-- A character that a name may go on with. -/
def isNameChar (c : Char) : Bool := isAlphanumeric c || c == '_' || c == '-'

/-- The blanks of a stylesheet: those of ASCII. -/
def isSpace (c : Char) : Bool :=
  c == ' ' || c == '\t' || c == '\x0d' || c == '\n' || c == '\x0b' || c == '\x0c'

end RichText.Sheet
