/-
# The content of a stylesheet

Rules and at-rules as they are written. A selector is a chain of compounds,
the subject first and its ancestors after it, the outermost last. Values are
texts without the blanks around them.

Key definitions: `Compound`, `Chain`, `Declaration`, `Rule`, `AtRule`,
`Content`.
-/

namespace RichText.Sheet

/-- A compound selector such as `div.note#intro:hover`. -/
structure Compound where
  /-- The tag; none for `*` or when it is left out. -/
  element : Option String := none
  className : Option String := none
  id : Option String := none
  pseudoClass : Option String := none
  /-- Written with `>` behind it: the next match inwards is directly below. -/
  directChild : Bool := false
deriving DecidableEq, Repr, Inhabited

/-- The compounds of a selector, subject first. -/
abbrev Chain := List Compound

structure Declaration where
  property : String
  value : String
  /-- The line that the property name is on. -/
  line : Nat
deriving DecidableEq, Repr

/-- Selectors that share a block of declarations. -/
structure Rule where
  selectors : List Chain
  declarations : List Declaration
deriving DecidableEq, Repr

/-- A block with a name, such as `@font-face`. -/
structure AtRule where
  name : String
  declarations : List Declaration
deriving DecidableEq, Repr

/-- The value of the last declaration of `property`. -/
def AtRule.get? (rule : AtRule) (property : String) : Option String :=
  (rule.declarations.reverse.find? fun d => d.property == property).map (·.value)

/-- What a stylesheet says. -/
structure Content where
  rules : List Rule := []
  atRules : List AtRule := []
deriving DecidableEq, Repr

end RichText.Sheet
