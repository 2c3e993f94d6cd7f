/-
# Digits

Natural numbers written in base ten and sixteen, and read back.

Key definitions: `decimal`, `hexadecimal`, `readDecimal?`, `readHexadecimal?`.
-/

namespace RichText.Number

/-- The digits of `n` in base ten. -/
def decimal (n : Nat) : List Char := Nat.toDigits 10 n

/-- The digits of `n` in base sixteen, with small letters. -/
def hexadecimal (n : Nat) : List Char := Nat.toDigits 16 n

/-- Zeros in front, up to `width` characters. -/
def zeroPadded (width : Nat) (s : List Char) : List Char :=
  List.replicate (width - s.length) '0' ++ s

/-- The value of a hexadecimal digit of either case. -/
def hexValue? (c : Char) : Option Nat :=
  if c.isDigit then some (c.toNat - '0'.toNat)
  else if 'a' ≤ c ∧ c ≤ 'f' then some (c.toNat - 'a'.toNat + 10)
  else if 'A' ≤ c ∧ c ≤ 'F' then some (c.toNat - 'A'.toNat + 10)
  else none

/-- The value of a decimal digit. -/
def digitValue? (c : Char) : Option Nat :=
  if c.isDigit then some (c.toNat - '0'.toNat) else none

/-- A numeral in base `base` that continues `n`. -/
def readFrom? (base : Nat) (value? : Char → Option Nat) (n : Nat) : List Char → Option Nat
  | [] => some n
  | c :: s => (value? c).bind fun d => readFrom? base value? (n * base + d) s

/-- The number written by one or more decimal digits. -/
def readDecimal? (s : List Char) : Option Nat :=
  if s = [] then none else readFrom? 10 digitValue? 0 s

/-- The number written by one or more hexadecimal digits. -/
def readHexadecimal? (s : List Char) : Option Nat :=
  if s = [] then none else readFrom? 16 hexValue? 0 s

/-- An integer in base ten, with a minus sign if it is negative. -/
def integer (n : Int) : List Char :=
  if n < 0 then '-' :: decimal n.natAbs else decimal n.natAbs

/-- The integer written by an optional sign and decimal digits, if it lies
between `least` and `most`. -/
def readInteger? (least most : Int) (s : List Char) : Option Int :=
  let number : Option Int :=
    match s with
    | '-' :: digits => (readDecimal? digits).map fun n => -(n : Int)
    | '+' :: digits => (readDecimal? digits).map fun n => (n : Int)
    | digits => (readDecimal? digits).map fun n => (n : Int)
  number.filter fun n => least ≤ n && n ≤ most

/-- An integer of 32 bits. -/
def readInt32? (s : List Char) : Option Int := readInteger? (-Nat.pow 2 31) (Nat.pow 2 31 - 1) s

/-- An integer of 64 bits. -/
def readInt64? (s : List Char) : Option Int := readInteger? (-Nat.pow 2 63) (Nat.pow 2 63 - 1) s

end RichText.Number
