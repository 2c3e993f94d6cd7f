/-
# Results of benchmarks

The timings of one run of all benchmarks. They are saved as JSON, read back,
and compared with those of another run.

Key definitions: `Regression`, `Suite`, `Suite.regressions`, `Suite.save`,
`Suite.load`.
-/
import RichText.Bench.Error
import RichText.Bench.Timing
import RichText.Json.Printer
import RichText.Json.Reader

namespace RichText.Bench

open RichText.Number (floatOfNat floatWithPlaces)

/-- A benchmark that has become slower. -/
structure Regression where
  name : String
  /-- The median before. -/
  baseline : Nat
  /-- The median now. -/
  current : Nat
deriving DecidableEq, Repr

namespace Regression

/-- The part by which the time has grown: a quarter if it was 4 and is 5. -/
def slowdown (r : Regression) : Float :=
  floatOfNat r.current / floatOfNat (max r.baseline 1) - floatOfNat 1

def text (r : Regression) : String :=
  r.name ++ ": " ++ timeText r.baseline ++ " -> " ++ timeText r.current ++ " (+" ++
    floatWithPlaces 1 (r.slowdown * floatOfNat 100) ++ "%)"

end Regression

structure Suite where
  name : String
  results : List Timing := []
  /-- The time that all took together, in nanoseconds. -/
  total : Nat := 0
deriving DecidableEq, Repr

namespace Suite

def add (s : Suite) (t : Timing) : Suite := { s with results := s.results ++ [t] }

/-- The first timing of a name. -/
def result? (s : Suite) (name : String) : Option Timing := s.results.find? (·.name == name)

/-- The benchmarks whose median has grown by more than `tolerance`. Those that
one of the suites lacks do not count. -/
def regressions (s baseline : Suite) (tolerance : Float) : List Regression :=
  s.results.filterMap fun current =>
    (baseline.result? current.name).bind fun base =>
      let r : Regression := ⟨current.name, base.median, current.median⟩
      if r.slowdown > tolerance then some r else none

end Suite

def nanosecondsPerSecond : Nat := 1000000000

def jsonOfTiming (t : Timing) : Json :=
  .object <|
    [("name", .text t.name), ("iterations", .natural t.runs), ("mean_ns", .natural t.mean),
      ("median_ns", .natural t.median), ("std_dev_ns", .natural t.deviation),
      ("min_ns", .natural t.least), ("max_ns", .natural t.most)] ++
      t.bytes.toList.map fun bytes => ("bytes", .natural bytes)

def jsonOfSuite (s : Suite) : Json :=
  .object
    [("name", .text s.name), ("results", .array (s.results.map jsonOfTiming)),
      ("total_time", .object
        [("secs", .natural (s.total / nanosecondsPerSecond)),
          ("nanos", .natural (s.total % nanosecondsPerSecond))])]

/-- The values that a record has for `names`: those of the fields of an object,
none of which may occur twice, or the items of an array in order. Other fields
do not matter unless the record is `closed`. -/
def record? (names : List String) (closed : Bool) : Json → Option (List (Option Json))
  | .object fields =>
    if closed && fields.any fun field => !names.contains field.1 then none
    else
      names.mapM fun name =>
        match fields.filter fun field => field.1 == name with
        | [] => some none
        | [field] => some (some field.2)
        | _ => none
  | .array items =>
    if items.length ≤ names.length then
      some (items.map some ++ List.replicate (names.length - items.length) none)
    else none
  | _ => none

/-- A natural number that may be missing. -/
def optionalNatural? : Option Json → Option (Option Nat)
  | none => some none
  | some .null => some none
  | some j => j.natural?.map some

def timingOfJson? (j : Json) : Option Timing := do
  match ← record? ["name", "iterations", "mean_ns", "median_ns", "std_dev_ns", "min_ns", "max_ns",
    "bytes"] false j with
  | [some name, some runs, some mean, some median, some deviation, some least, some most, bytes] =>
    return {
      name := ← name.text?
      runs := ← runs.natural?
      mean := ← mean.natural?
      median := ← median.natural?
      deviation := ← deviation.natural?
      least := ← least.natural?
      most := ← most.natural?
      bytes := ← optionalNatural? bytes }
  | _ => none

/-- A time of seconds and nanoseconds, in nanoseconds. The seconds fit into 64
bits, also with those that the nanoseconds make up. -/
def timeOfJson? (j : Json) : Option Nat := do
  match ← record? ["secs", "nanos"] true j with
  | [some seconds, some nanoseconds] =>
    let nanoseconds ← nanoseconds.natural?.filter (· < Nat.pow 2 32)
    let time := (← seconds.natural?) * nanosecondsPerSecond + nanoseconds
    if time / nanosecondsPerSecond < Nat.pow 2 64 then some time else none
  | _ => none

def suiteOfJson? (j : Json) : Option Suite := do
  match ← record? ["name", "results", "total_time"] false j with
  | [some name, some results, some total] =>
    return {
      name := ← name.text?
      results := ← (← results.array?).mapM timingOfJson?
      total := ← timeOfJson? total }
  | _ => none

namespace Suite

/-- The text of a file of results. -/
def save (s : Suite) : String := (jsonOfSuite s).render

/-- The suite of a file of results. -/
def load (text : Except ReadFault String) : Except BenchError Suite :=
  match text with
  | .error fault => .error (.read fault)
  | .ok text =>
    match (Json.parse? text).bind suiteOfJson? with
    | some s => .ok s
    | none => .error .malformedResults

end Suite

end RichText.Bench
