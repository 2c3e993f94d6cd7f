/-
# Errors of styles

Why a declaration, an access to an attribute or a stylesheet is refused.

Key definitions: `Malformed`, `StyleError`, `StyleError.message`,
`StyleError.isRecoverable`.
-/
import RichText.Sheet.Token
import RichText.Value.Basic

namespace RichText

/-- What is wrong with the value of a declaration. -/
inductive Malformed where
  | unknownKeyword (value : String)
  | unknownUnit (value : String)
  | notANumber (value : String)
  | componentCount (required found : Nat)
  | badComponent (component : String)
  | unknownColor (value : String)
  | unterminatedString (list : String)
  | commaExpected (list : String)
  | boxCount (found : Nat)
  | noFontFamily
  | badFontWeight (value : String)
  | badTabSize (value : String)
  | emptyValue (property : String)
  | missingColon (segment : String)
deriving DecidableEq, Repr

def Malformed.message : Malformed → String
  | unknownKeyword value => s!"unknown keyword '{value}'"
  | unknownUnit value => s!"unknown numeric suffix: {value}"
  | notANumber value => s!"not a number: {value}"
  | componentCount required found => s!"{required} color components required, got {found}"
  | badComponent component => s!"bad color component: {component}"
  | unknownColor value => s!"unknown color: {value}"
  | unterminatedString list => s!"unterminated string in list: {list}"
  | commaExpected list => s!"',' expected in list: {list}"
  | boxCount found => s!"invalid number of box values: {found}"
  | noFontFamily => "empty font family list"
  | badFontWeight value => s!"bad font weight: {value}"
  | badTabSize value => s!"bad tab size: {value}"
  | emptyValue property => s!"empty value for '{property}'"
  | missingColon segment => s!"missing ':' in '{segment}'"

inductive StyleError where
  | unknownProperty (property : String)
  | malformed (what : Malformed)
  | unknownAttribute (name : String)
  | outOfRange (ordinal : Nat)
  | typeMismatch (name : String) (expected found : ValueType)
  | parse (error : Sheet.ParseError)
deriving DecidableEq, Repr

namespace StyleError

def message : StyleError → String
  | unknownProperty property => s!"Unknown property: {property}"
  | malformed what => s!"Malformed value: {what.message}"
  | unknownAttribute name => s!"Unknown attribute: {name}"
  | outOfRange ordinal => s!"Attribute ordinal out of range: {ordinal}"
  | typeMismatch name expected found =>
    s!"Type mismatch for {name}: expected {expected.name}, found {found.name}"
  | parse error => error.message

/-- Whether the error spoils no more than one declaration. -/
def isRecoverable : StyleError → Bool
  | unknownProperty _ | malformed _ => true
  | _ => false

end StyleError

end RichText
