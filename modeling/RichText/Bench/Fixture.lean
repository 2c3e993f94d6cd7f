/-
# A document to resolve

A generated document with a generated stylesheet, and the numbers of all its
elements.

Key definitions: `Fixture`, `Fixture.generate`, `Fixture.resolveWith`,
`Fixture.resolveAll`.
-/
import RichText.Bench.Error
import RichText.Bench.Generator
import RichText.Document.Builder
import RichText.Resolver

namespace RichText.Bench

structure Fixture where
  sheet : StyleSheet
  document : Document
  elements : List Nat

namespace Fixture

/-- A fixture with the given numbers of sections and rules. -/
def generate (sections rules : Nat) : Except BenchError Fixture :=
  match (StyleSheet.new .standard).parseString (sheetText rules) with
  | (.error e, _) => .error (.style e)
  | (.ok _, sheet) =>
    match Document.ofString 0 .standard (documentText sections) with
    | .error e => .error (.document e)
    | .ok document => .ok ⟨sheet, document, document.traverse.map (·.1)⟩

/-- Whether a value is a color other than the transparent black, or a length
above zero. -/
def shows : Option Value → Bool
  | some (.color c) => c.argb != 0
  | some (.length l) => l.number > Number.float32OfNat 0
  | _ => false

/-- Whether an element has a color, a margin or a font size. -/
def isVisible (d : Document) (element : Nat) : StateM Resolver Bool := do
  let node := ((d.element? element).map (·.style)).getD 0
  let color ← d.styles.getKind node Standard.color ⟨.color, false⟩
  let margin ← d.styles.getKind node Standard.marginTop ⟨.length, false⟩
  let size ← d.styles.getKind node Standard.fontSize ⟨.length, false⟩
  return shows color || shows margin || shows size

/-- The number of visible elements among some. -/
def countVisible (d : Document) : List Nat → StateM Resolver Nat
  | [] => return 0
  | element :: elements => do
    let visible ← isVisible d element
    let others ← countVisible d elements
    return if visible then others + 1 else others

/-- The number of visible elements. -/
def resolveWith (f : Fixture) : StateM Resolver Nat := countVisible f.document f.elements

/-- The number of visible elements in a layout of its own, and the fixture
behind the layout. -/
def resolveAll (f : Fixture) : Nat × Fixture :=
  match (Resolver.duringLayout f.resolveWith).run (.sheet f.sheet) with
  | (count, .sheet sheet) => (count, { f with sheet })
  | (count, _) => (count, f)

end Fixture

end RichText.Bench
