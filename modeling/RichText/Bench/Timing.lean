/-
# Timings

What the times of several runs come to, in nanoseconds, and how fast that is.

Key definitions: `Timing`, `Timing.ofSamples`, `Timing.runsPerSecond`,
`Timing.bytesPerSecond?`, `Timing.text`, `timeText`.
-/
import RichText.Number.Places
import RichText.Text.Column

namespace RichText.Bench

open RichText.Number (floatOfNat floatWithPlaces)
open RichText.Text

structure Timing where
  name : String
  runs : Nat
  mean : Nat
  median : Nat
  /-- The standard deviation of the sample. -/
  deviation : Nat
  least : Nat
  most : Nat
  /-- The size of the input of each run. -/
  bytes : Option Nat := none
deriving DecidableEq, Repr

/-- The middle of a sorted sample; of two middles their mean. -/
def middle (sorted : List Nat) : Nat :=
  let half := sorted.length / 2
  if sorted.length % 2 = 1 then sorted[half]?.getD 0
  else (sorted[half - 1]?.getD 0 + sorted[half]?.getD 0) / 2

/-- The square root of the mean square distance from `mean`, rounded down; the
mean is taken over one less than there are times. -/
def deviationFrom (mean : Nat) (times : List Nat) : Nat :=
  if times.length ≤ 1 then 0
  else
    let square (x : Float) : Float := x * x
    let sum := times.foldl (fun sum t => sum + square (floatOfNat t - floatOfNat mean)) (floatOfNat 0)
    (sum / floatOfNat (times.length - 1)).sqrt.toUInt64.toNat

namespace Timing

def ofSamples (name : String) (samples : List Nat) : Timing :=
  let times := samples.mergeSort
  let mean := times.foldl (· + ·) 0 / times.length
  { name
    runs := times.length
    mean
    median := middle times
    deviation := deviationFrom mean times
    least := times.head?.getD 0
    most := times.getLast?.getD 0 }

def withBytes (t : Timing) (bytes : Nat) : Timing := { t with bytes := some bytes }

/-- The number of runs that fit into a second; none are said to fit if a run
takes no time. -/
def runsPerSecond (t : Timing) : Float :=
  if t.median = 0 then floatOfNat 0 else floatOfNat 1000000000 / floatOfNat t.median

def bytesPerSecond? (t : Timing) : Option Float :=
  t.bytes.map fun bytes => floatOfNat bytes * t.runsPerSecond

/-- The bytes in a second, or the runs if the size of the input is unknown. -/
def rateText (t : Timing) : String :=
  match t.bytesPerSecond? with
  | some rate =>
    if rate ≥ floatOfNat 0x100000 then floatWithPlaces 1 (rate / floatOfNat 0x100000) ++ " MiB/s"
    else floatWithPlaces 1 (rate / floatOfNat 0x400) ++ " KiB/s"
  | none => floatWithPlaces 0 t.runsPerSecond ++ " op/s"

end Timing

/-- A time in the unit that suits it. -/
def timeText (nanoseconds : Nat) : String :=
  let inUnits (unit : Nat) : String := floatWithPlaces 2 (floatOfNat nanoseconds / floatOfNat unit)
  if nanoseconds < 1000 then String.ofList (Number.decimal nanoseconds) ++ " ns"
  else if nanoseconds < 1000000 then inUnits 1000 ++ " µs"
  else if nanoseconds < 1000000000 then inUnits 1000000 ++ " ms"
  else inUnits 1000000000 ++ " s"

/-- A line of a table: name, median, deviation and rate. -/
def Timing.text (t : Timing) : String :=
  " ".intercalate
    [leftAligned 32 t.name, rightAligned 10 (timeText t.median),
      rightAligned 10 (timeText t.deviation), rightAligned 14 t.rateText]

end RichText.Bench
