/-
# Errors of documents

Why markup makes no document.

Key definitions: `Misplaced`, `DocumentError`, `DocumentError.message`.
-/
import RichText.Markup.Token
import RichText.StyleError

namespace RichText

open RichText.Text

/-- What is wrong with a tag, or with a text, in the place where it stands. -/
inductive Misplaced where
  | doesNotClose (name opened : String)
  | nothingToClose (name : String)
  | notAnInteger (name value : String)
  | cellOutsideRow (name : String)
  | beforeRoot
  | afterRoot
deriving DecidableEq, Repr

def Misplaced.message : Misplaced → String
  | doesNotClose name opened => s!"</{name}> does not close <{opened}>"
  | nothingToClose name => s!"unexpected </{name}>"
  | notAnInteger name value => s!"attribute {name}=\"{value}\" is not an integer"
  | cellOutsideRow name => s!"<{name}> outside of <tr>"
  | beforeRoot => "content before the root element"
  | afterRoot => "content after the root element"

inductive DocumentError where
  | duplicateId (id : String)
  /-- The root is the element `found`, or there is no element at all. -/
  | missingHtml (found : Option String)
  | malformed (position : Position) (fault : Misplaced)
  | unfinished (element : String)
  | markup (error : Markup.ParseError)
  | style (error : StyleError)
deriving DecidableEq, Repr

def DocumentError.message : DocumentError → String
  | duplicateId id => s!"Duplicate element id: {id}"
  | missingHtml none => "Document root must be <html>, found an empty document"
  | missingHtml (some name) => s!"Document root must be <html>, found <{name}>"
  | malformed p fault => s!"Malformed document at {p.line}:{p.column}: {fault.message}"
  | unfinished element => s!"Unexpected end of document inside <{element}>"
  | markup error => error.message
  | style error => error.message

end RichText
