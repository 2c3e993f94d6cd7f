/-
# Tokens of markup

Tags, texts and comments, and the errors of reading markup.

Key definitions: `Token`, `Token.attr?`, `Token.name?`, `ParseError`,
`isNameStart`, `isNameChar`.
-/
import RichText.Input
import RichText.Text.Letter
import RichText.Text.Position

namespace RichText.Markup

open RichText.Text

/-- Names and values of attributes, in the order in which they are written. -/
abbrev Attributes := List (String × String)

/-- The value of the attribute `name`. -/
def Attributes.get? (attributes : Attributes) (name : String) : Option String :=
  attributes.lookup name

inductive Token where
  | startTag (name : String) (attributes : Attributes) (selfClosing : Bool)
  | endTag (name : String)
  /-- Character data in which references are replaced. -/
  | text (s : String)
  | comment (s : String)
deriving DecidableEq, Repr

namespace Token

/-- The value of an attribute of a start tag. -/
def attr? : Token → String → Option String
  | startTag _ attributes _, name => attributes.get? name
  | _, _ => none

/-- The name of a tag. -/
def name? : Token → Option String
  | startTag name _ _ => some name
  | endTag name => some name
  | _ => none

end Token

/-- What was being read when the input ended. -/
inductive Unfinished where
  | tag
  | startTag
  | endTag
  | attributeValue
  | comment
  | cdata
  | declaration
  | instruction
deriving DecidableEq, Repr

def Unfinished.describe : Unfinished → String
  | tag => "tag"
  | startTag => "start tag"
  | endTag => "end tag"
  | attributeValue => "attribute value"
  | comment => "comment"
  | cdata => "CDATA section"
  | declaration => "declaration"
  | instruction => "processing instruction"

/-- What is wrong with a tag. -/
inductive Fault where
  | unexpected (c : Char)
  | unexpectedInTag (c : Char) (name : String)
  | unexpectedInEndTag (c : Char) (name : String)
  | slashAlone
  | missingValue
  | duplicateAttribute (name : String)
deriving DecidableEq, Repr

def Fault.message : Fault → String
  | unexpected c => s!"unexpected character '{c}'"
  | unexpectedInTag c name => s!"unexpected character '{c}' in <{name}>"
  | unexpectedInEndTag c name => s!"unexpected character '{c}' in </{name}>"
  | slashAlone => "expected '>' after '/'"
  | missingValue => "missing attribute value"
  | duplicateAttribute name => s!"duplicate attribute '{name}'"

/-- Why markup cannot be read. -/
inductive ParseError where
  | malformed (position : Position) (fault : Fault)
  | unfinished (what : Unfinished)
  | read (fault : ReadFault)
deriving DecidableEq, Repr

def ParseError.message : ParseError → String
  | malformed p fault => s!"Syntax error at {p.line}:{p.column}: {fault.message}"
  | unfinished what => s!"Unexpected end of input in {what.describe}"
  | read fault => s!"IO error: {fault.message}"

/-- A character that a name may begin with. -/
def isNameStart (c : Char) : Bool := isAlphabetic c || c == '_' || c == ':'

/-- A character that a name may go on with. -/
def isNameChar (c : Char) : Bool :=
  isAlphanumeric c || c == '_' || c == ':' || c == '-' || c == '.'

end RichText.Markup
