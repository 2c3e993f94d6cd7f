/-
# JSON

A number is kept as it is written, and an object in the order in which it is
written.

Key definitions: `Json`, `Json.natural`, `Json.natural?`, `Json.text?`.
-/
import RichText.Number.Digits

namespace RichText

inductive Json where
  | null
  | bool (b : Bool)
  | number (written : String)
  | text (s : String)
  | array (items : List Json)
  | object (fields : List (String × Json))
  /-- A text with half a surrogate pair, or an object with such a name: it may
  stand in an input, and stands for nothing. -/
  | unpaired

namespace Json

def natural (n : Nat) : Json := .number (String.ofList (Number.decimal n))

/-- The natural number of 64 bits, if that is what is written. -/
def natural? : Json → Option Nat
  | number written => (Number.readDecimal? written.toList).filter (· < Nat.pow 2 64)
  | _ => none

def text? : Json → Option String
  | text s => some s
  | _ => none

def array? : Json → Option (List Json)
  | array items => some items
  | _ => none

end Json

end RichText
