/-
# Paths

The names of files, with slashes between the directories. An empty step and a
dot lead nowhere, unless the dot is the first step.

Key definitions: `join`, `parent?`.
-/
import RichText.Text.Cut

namespace RichText.Path

open RichText.Text

/-- The path that `path` is inside `base`; one that begins at the root is left
as it is. -/
def join (base path : String) : String :=
  if hasLead ['/'] path.toList then path
  else if base = "" ∨ base.toList.getLast? = some '/' then base ++ path
  else base ++ "/" ++ path

/-- Whether a step leads nowhere. -/
def isIdle (step : List Char) : Bool := step == [] || step == ['.']

/-- Steps without the idle ones at the end. -/
def dropIdle (steps : List (List Char)) : List (List Char) :=
  (steps.reverse.dropWhile isIdle).reverse

/-- The steps of a path up to its last one; none if there is none. -/
def parentSteps? (steps : List (List Char)) : Option (List (List Char)) :=
  match (dropIdle steps).reverse with
  | [] => none
  | _ :: before => some (dropIdle before.reverse)

/-- The steps as a path. -/
def ofSteps (steps : List (List Char)) : String := String.ofList (['/'].intercalate steps)

/-- The directory of the last step of a path. The root and the empty path have
none. -/
def parent? (path : String) : Option String :=
  match pieces '/' path.toList with
  | [] :: steps => (parentSteps? steps).map fun before => "/" ++ ofSteps before
  | ['.'] :: steps =>
    match parentSteps? steps with
    | none => some ""
    | some before => some (ofSteps (['.'] :: before))
  | steps => (parentSteps? steps).map ofSteps

end RichText.Path
