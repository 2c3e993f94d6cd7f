/-
# Binary floating point numbers, exactly

A number of a binary format is `m * 2 ^ q` with natural `m`; all reading and
writing of such numbers is arithmetic on `m` and `q`. `decode` takes a bit
pattern apart, `encode` rounds an exact quotient to the nearest number of the
format, a tie going to the even `m`.

Key definitions: `Format`, `Parts`, `Format.decode`, `Format.encode`,
`roundHalfEven`.
-/

namespace RichText.Number

/-- The widths of the two fields of a binary format. -/
structure Format where
  /-- Bits of the fraction. -/
  fractionBits : Nat
  /-- Bits of the exponent. -/
  exponentBits : Nat

namespace Format

def binary32 : Format := ⟨23, 8⟩

def binary64 : Format := ⟨52, 11⟩

/-- The exponent of the last place of the smallest numbers. -/
def leastExponent (f : Format) : Int := 2 - Nat.pow 2 (f.exponentBits - 1) - f.fractionBits

/-- The bit pattern of infinity, which follows that of the largest number. -/
def infinityBits (f : Format) : Nat := (Nat.pow 2 f.exponentBits - 1) * Nat.pow 2 f.fractionBits

/-- The bit pattern that stands for no number. -/
def nanBits (f : Format) : Nat := f.infinityBits + Nat.pow 2 (f.fractionBits - 1)

/-- The bit of the sign. -/
def signBit (f : Format) : Nat := Nat.pow 2 (f.fractionBits + f.exponentBits)

end Format

/-- What a bit pattern stands for. -/
inductive Parts where
  | nan
  | infinite (negative : Bool)
  /-- `significand * 2 ^ exponent`; `boundary` says that the numbers below are
  twice as dense as those above. -/
  | finite (negative : Bool) (significand : Nat) (exponent : Int) (boundary : Bool)
deriving DecidableEq, Repr

/-- The parts of a bit pattern. -/
def Format.decode (f : Format) (bits : Nat) : Parts :=
  let fraction := bits % Nat.pow 2 f.fractionBits
  let exponent := bits / Nat.pow 2 f.fractionBits % Nat.pow 2 f.exponentBits
  let negative := bits / f.signBit % 2 == 1
  if exponent = Nat.pow 2 f.exponentBits - 1 then
    if fraction = 0 then .infinite negative else .nan
  else if exponent = 0 then
    .finite negative fraction f.leastExponent false
  else
    .finite negative (Nat.pow 2 f.fractionBits + fraction) (f.leastExponent + (exponent - 1))
      (fraction == 0 && exponent != 1)

/-- The natural number nearest to `a / b`, the even one of two. -/
def roundHalfEven (a b : Nat) : Nat :=
  let whole := a / b
  let twice := 2 * (a % b)
  if twice < b ∨ twice = b ∧ whole % 2 = 0 then whole else whole + 1

/-- The numerator and denominator of `num / den * 2 ^ k`. -/
def shifted (num den : Nat) (k : Int) : Nat × Nat :=
  if 0 ≤ k then (num * Nat.pow 2 k.toNat, den) else (num, den * Nat.pow 2 (-k).toNat)

/-- The exponent `e` with `2 ^ e ≤ num / den < 2 ^ (e + 1)`. -/
def binaryExponent (num den : Nat) : Int :=
  let guess : Int := (num.log2 : Int) - den.log2
  let scaled := shifted num den (-guess)
  if scaled.1 < scaled.2 then guess - 1 else guess

/-- The bit pattern of the number nearest to `num / den`, without a sign. -/
def Format.encodeMagnitude (f : Format) (num den : Nat) : Nat :=
  if num = 0 then 0
  else
    let place := max f.leastExponent (binaryExponent num den - f.fractionBits)
    let scaled := shifted num den (-place)
    let bits := (place - f.leastExponent).toNat * Nat.pow 2 f.fractionBits +
      roundHalfEven scaled.1 scaled.2
    min bits f.infinityBits

/-- The bit pattern of the number nearest to `num / den`. -/
def Format.encode (f : Format) (negative : Bool) (num den : Nat) : Nat :=
  (if negative then f.signBit else 0) + f.encodeMagnitude num den

/-- The number of 64 bits nearest to `n`. -/
def floatOfNat (n : Nat) : Float := Float.ofBits (UInt64.ofNat (Format.binary64.encode false n 1))

/-- The number of 32 bits nearest to `n`. -/
def float32OfNat (n : Nat) : Float32 := Float32.ofBits (UInt32.ofNat (Format.binary32.encode false n 1))

end RichText.Number
