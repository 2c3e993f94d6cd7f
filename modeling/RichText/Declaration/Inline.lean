/-
# Inline styles

The text of a `style` attribute: declarations with semicolons between them. A
separator between quotes separates nothing. A declaration that is refused is
skipped and reported, and the others still count.

Key definitions: `segments`, `inlinePairs`, `applyAll`, `applyInline`.
-/
import RichText.Declaration.Writes

namespace RichText.Declaration

open RichText.Text

/-- The parts of a text between semicolons that are outside quotes, where
`quote` is the quote that is open and `part` has been read of the first. -/
def segments (quote : Option Char) (part : List Char) : List Char → List (List Char)
  | [] => [part]
  | c :: s =>
    match quote with
    | some q => segments (if c = q then none else some q) (part ++ [c]) s
    | none =>
      if c = '"' ∨ c = '\'' then segments (some c) (part ++ [c]) s
      else if c = ';' then part :: segments none [] s
      else segments none (part ++ [c]) s

/-- A property and its value. A segment without a colon has the empty property,
a blank one is none. -/
def pairOf (segment : List Char) : Option (String × String) :=
  let s := trim segment
  if s = [] then none
  else
    match cutAt? [':'] s with
    | some (property, value) => some (String.ofList (trim property), String.ofList (trim value))
    | none => some ("", String.ofList s)

/-- The properties and values of an inline style. -/
def inlinePairs (text : String) : List (String × String) :=
  (segments none [] text.toList).filterMap pairOf

/-- What a property and a value of an inline style make of a style. -/
def applyPair (r : Registry) (pair : String × String) (s : Style) : Except StyleError Style :=
  if pair.1 = "" then .error (.malformed (.missingColon pair.2)) else apply r pair.1 pair.2 s

/-- Applies what can be applied, in order, and reports the rest. -/
def applyAll (f : String × String → Style → Except StyleError Style) (s : Style) :
    List (String × String) → List Diagnostic × Style
  | [] => ([], s)
  | pair :: pairs =>
    match f pair s with
    | .ok s => applyAll f s pairs
    | .error e =>
      let rest := applyAll f s pairs
      (⟨pair.1, pair.2, e⟩ :: rest.1, rest.2)

/-- Applies an inline style. -/
def applyInline (r : Registry) (s : Style) (text : String) : List Diagnostic × Style :=
  applyAll (applyPair r) s (inlinePairs text)

end RichText.Declaration
