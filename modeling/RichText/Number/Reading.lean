/-
# Reading decimal numbers

A number is an optional sign, then digits with at most one point among or
around them, then an optional exponent. The words for infinity and for no
number are known in any case. What is written is exact; it is rounded once.

Key definitions: `Written`, `readNumber?`, `Written.bits`, `readFloat32?`,
`readFloat?`.
-/
import RichText.Number.Binary
import RichText.Number.Digits

namespace RichText.Number

/-- A number as it is written. -/
inductive Written where
  | nan
  | infinite (negative : Bool)
  /-- `digits * 10 ^ exponent`, `count` being the number of digits written. -/
  | finite (negative : Bool) (digits : Nat) (count : Nat) (exponent : Int)
deriving DecidableEq, Repr

/-- The exponent at the end of a number: `e` or `E`, a sign, digits. -/
def readExponent? : List Char → Option Int
  | [] => some 0
  | c :: s =>
    if c = 'e' ∨ c = 'E' then
      match s with
      | '-' :: digits => (readDecimal? digits).map fun n => -(n : Int)
      | '+' :: digits => (readDecimal? digits).map fun n => (n : Int)
      | digits => (readDecimal? digits).map fun n => (n : Int)
    else none

/-- A number without its sign. -/
def readMagnitude? (negative : Bool) (s : List Char) : Option Written :=
  let whole := s.takeWhile Char.isDigit
  let rest := s.dropWhile Char.isDigit
  let fraction := match rest with
    | '.' :: more => more.takeWhile Char.isDigit
    | _ => []
  let rest := match rest with
    | '.' :: more => more.dropWhile Char.isDigit
    | _ => rest
  let digits := whole ++ fraction
  (readDecimal? digits).bind fun n =>
    (readExponent? rest).map fun e =>
      .finite negative n digits.length (e - fraction.length)

/-- A number, infinity, or the word for no number. -/
def readNumber? (s : List Char) : Option Written :=
  let negative := s.head? == some '-'
  let magnitude := if negative || s.head? == some '+' then s.tail else s
  let word := magnitude.map Char.toLower
  if word = ['n', 'a', 'n'] then some .nan
  else if word = ['i', 'n', 'f'] ∨ word = ['i', 'n', 'f', 'i', 'n', 'i', 't', 'y'] then
    some (.infinite negative)
  else readMagnitude? negative magnitude

/-- The power of ten above which every number of the formats is infinite, and
below whose inverse every one is zero. -/
def farAway : Int := 400

/-- The bit pattern nearest to what is written. -/
def Written.bits (f : Format) : Written → Nat
  | .nan => f.nanBits
  | .infinite negative => (if negative then f.signBit else 0) + f.infinityBits
  | .finite negative digits count exponent =>
    if digits = 0 ∨ exponent + count < -farAway then if negative then f.signBit else 0
    else if farAway < exponent + (decimal digits).length then
      (if negative then f.signBit else 0) + f.infinityBits
    else if 0 ≤ exponent then f.encode negative (digits * Nat.pow 10 exponent.toNat) 1
    else f.encode negative digits (Nat.pow 10 (-exponent).toNat)

/-- The number of 32 bits nearest to what is written. -/
def readFloat32? (s : List Char) : Option Float32 :=
  (readNumber? s).map fun w => Float32.ofBits (UInt32.ofNat (w.bits .binary32))

/-- The number of 64 bits nearest to what is written. -/
def readFloat? (s : List Char) : Option Float :=
  (readNumber? s).map fun w => Float.ofBits (UInt64.ofNat (w.bits .binary64))

end RichText.Number
