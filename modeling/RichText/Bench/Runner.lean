/-
# Running benchmarks

A benchmark is a task that is done over and over: first to warm up, and then
with a look at the clock. The clock is in the hands of the caller, who says
what it is to do a task once and how long that took.

Key definitions: `Task`, `Runner`, `Runner.run`, `Runner.runAll`,
`standardCases`.
-/
import RichText.Bench.Fixture
import RichText.Bench.Suite

namespace RichText.Bench

inductive Task where
  /-- Read a stylesheet. -/
  | scan (css : String)
  /-- Read a stylesheet and make its rules. -/
  | style (css : String)
  /-- Build a document. -/
  | build (html : String)
  /-- Resolve all elements in a new layout. -/
  | resolve (f : Fixture)
  /-- Resolve all elements in a layout that remembers them. -/
  | resolveAgain (f : Fixture)

namespace Task

/-- The size of the text that a task reads. -/
def bytes? : Task → Option Nat
  | scan css => some css.utf8ByteSize
  | style css => some css.utf8ByteSize
  | build html => some html.utf8ByteSize
  | resolve _ => none
  | resolveAgain _ => none

/-- Does a task: the number of rules, of elements, or of visible elements that
it comes to. -/
def work : Task → Nat
  | scan css => ((Sheet.parseString css).map fun content => content.rules.length).toOption.getD 0
  | style css => ((StyleSheet.new .standard).parseString css).2.rules.length
  | build html => ((Document.ofString 0 .standard html).map (·.size)).toOption.getD 0
  | resolve f => f.resolveAll.1
  | resolveAgain f => (f.resolveWith.run (.sheet f.sheet)).1

end Task

structure Runner where
  warmup : Nat := 10
  iterations : Nat := 100

/-- Does something `n` times. -/
def times {m : Type → Type} [Monad m] {α : Type} (n : Nat) (action : m α) : m (List α) :=
  match n with
  | 0 => return []
  | n + 1 => do
    let first ← action
    let others ← times n action
    return first :: others

namespace Runner

/-- The timing of something that says how long it took. -/
def run {m : Type → Type} [Monad m] (r : Runner) (name : String) (measure : m Nat) : m Timing := do
  let _ ← times r.warmup measure
  let samples ← times r.iterations measure
  return .ofSamples name samples

/-- The timing of a task, with the size of its input. -/
def runTask {m : Type → Type} [Monad m] (r : Runner) (measure : Task → m Nat)
    (named : String × Task) : m Timing := do
  let timing ← r.run named.1 (measure named.2)
  match named.2.bytes? with
  | some bytes => return timing.withBytes bytes
  | none => return timing

end Runner

/-- The fixture in a layout in which all its elements have been resolved. -/
def warmed (f : Fixture) : Fixture :=
  match f.resolveWith.run (.sheet f.sheet.forget) with
  | (_, .sheet sheet) => { f with sheet }
  | _ => f

/-- The standard benchmarks on a fixture. -/
def standardCases (f : Fixture) : List (String × Task) :=
  [("css/scan/large", .scan (sheetText 200)),
    ("css/sheet/small", .style (sheetText 10)),
    ("css/sheet/large", .style (sheetText 200)),
    ("dom/build/small", .build (documentText 10)),
    ("dom/build/large", .build (documentText 500)),
    ("cascade/cold", .resolve f),
    ("cascade/cached", .resolveAgain (warmed f))]

/-- The timings of all standard benchmarks. -/
def Runner.runAll {m : Type → Type} [Monad m] (r : Runner) (measure : Task → m Nat) :
    m (Except BenchError Suite) := do
  match Fixture.generate 100 50 with
  | .error e => return .error e
  | .ok f =>
    let results ← (standardCases f).mapM (r.runTask measure)
    return .ok { name := "StyleKit", results }

end RichText.Bench
