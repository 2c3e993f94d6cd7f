/-
# Shortest decimals

A number of a binary format is written with the fewest digits that read back
to it, and of those with the nearest to it. The reals that round to
`m * 2 ^ q` form an interval; a grid of decimals has a point in it exactly if
one of the two neighbours of the number on that grid lies in it, so the first
grid with such a neighbour decides.

The text is positional for every exponent, without a point where there is no
fraction.

Key definitions: `Interval`, `shortest`, `positional`, `Format.text`,
`float32Text`, `floatText`.
-/
import RichText.Number.Binary
import RichText.Number.Digits

namespace RichText.Number

/-- A positive number and the numbers that are read as it, all over the
denominator `unit`. -/
structure Interval where
  lower : Nat
  value : Nat
  upper : Nat
  unit : Nat
  /-- Whether the ends themselves are read as the number. -/
  closed : Bool

namespace Interval

/-- The interval of `m * 2 ^ q`: half a place to either side, a quarter below
a boundary. The ends belong to it if `m` is even. -/
def ofParts (m : Nat) (q : Int) (boundary : Bool) : Interval :=
  let scale (n : Nat) : Nat := (shifted n 1 (q - 2)).1
  { lower := scale (4 * m - if boundary then 1 else 2)
    value := scale (4 * m)
    upper := scale (4 * m + 2)
    unit := (shifted 1 1 (q - 2)).2
    closed := m % 2 == 0 }

/-- Whether `num / den` is read as the number. -/
def contains (i : Interval) (num den : Nat) : Bool :=
  if i.closed then i.lower * den ≤ num * i.unit && num * i.unit ≤ i.upper * den
  else i.lower * den < num * i.unit && num * i.unit < i.upper * den

/-- The exponent `k` with `10 ^ (k - 1) ≤ value / unit < 10 ^ k`. -/
def decimalExponent (i : Interval) : Int :=
  if i.unit ≤ i.value then (decimal (i.value / i.unit)).length
  else 1 - ((decimal ((i.unit - 1) / i.value)).length : Int)

/-- The numerator and denominator of `n * 10 ^ e`. -/
def tenfold (n : Nat) (e : Int) : Nat × Nat :=
  if 0 ≤ e then (n * Nat.pow 10 e.toNat, 1) else (n, Nat.pow 10 (-e).toNat)

/-- The point of the grid `10 ^ e` that is read as the number; of two the
nearer one, and the upper one if they are equally near. -/
def point? (i : Interval) (e : Int) : Option Nat :=
  let grid := tenfold 1 e
  let below := i.value * grid.2 / (i.unit * grid.1)
  let inside (n : Nat) : Bool := i.contains (tenfold n e).1 (tenfold n e).2
  let upperIsNearer := i.unit * grid.1 ≤ 2 * (i.value * grid.2 % (i.unit * grid.1))
  if inside below && !(inside (below + 1) && upperIsNearer) then some below
  else if inside (below + 1) then some (below + 1)
  else none

/-- The shortest decimal `n * 10 ^ e` with at least `count` digits, of the
lengths still to be tried. -/
def search (i : Interval) (k : Int) : (tries count : Nat) → Nat × Int
  | 0, count => ((i.point? (k - count)).getD 0, k - count)
  | tries + 1, count =>
    match i.point? (k - count) with
    | some n => (n, k - count)
    | none => i.search k tries (count + 1)

/-- The shortest decimal that is read as the number. Seventeen digits are
enough for every format up to 64 bits. -/
def shortest (i : Interval) : Nat × Int := i.search i.decimalExponent 16 1

end Interval

/-- The text of `n * 10 ^ e` without an exponent and without idle zeros behind
the point. -/
def positional (n : Nat) (e : Int) : List Char :=
  if 0 ≤ e then decimal (n * Nat.pow 10 e.toNat)
  else
    let places := (-e).toNat
    let digits := zeroPadded (places + 1) (decimal n)
    let whole := digits.take (digits.length - places)
    let fraction := ((digits.drop (digits.length - places)).reverse.dropWhile (· == '0')).reverse
    if fraction = [] then whole else whole ++ '.' :: fraction

/-- The text of a number of a binary format. -/
def Format.text (f : Format) (bits : Nat) : List Char :=
  let sign (negative : Bool) : List Char := if negative then ['-'] else []
  match f.decode bits with
  | .nan => ['N', 'a', 'N']
  | .infinite negative => sign negative ++ ['i', 'n', 'f']
  | .finite negative m q boundary =>
    if m = 0 then sign negative ++ ['0']
    else
      let decimal := (Interval.ofParts m q boundary).shortest
      sign negative ++ positional decimal.1 decimal.2

/-- The text of a number of 32 bits. -/
def float32Text (x : Float32) : String :=
  String.ofList (Format.binary32.text x.toBits.toNat)

/-- The text of a number of 64 bits. -/
def floatText (x : Float) : String :=
  String.ofList (Format.binary64.text x.toBits.toNat)

end RichText.Number
