/-
# Fixed decimal places

A number written with a given count of decimal places. The exact value is
rounded to the nearest of those decimals, a tie going to the even last digit.

Key definitions: `Format.textWithPlaces`, `floatWithPlaces`.
-/
import RichText.Number.Binary
import RichText.Number.Digits

namespace RichText.Number

/-- The digits of `n / 10 ^ places`. -/
def pointed (places n : Nat) : List Char :=
  let digits := zeroPadded (places + 1) (decimal n)
  if places = 0 then digits
  else digits.take (digits.length - places) ++ '.' :: digits.drop (digits.length - places)

/-- The text of a number of a binary format with `places` decimal places. -/
def Format.textWithPlaces (f : Format) (places bits : Nat) : List Char :=
  let sign (negative : Bool) : List Char := if negative then ['-'] else []
  match f.decode bits with
  | .nan => ['N', 'a', 'N']
  | .infinite negative => sign negative ++ ['i', 'n', 'f']
  | .finite negative m q _ =>
    let scaled := shifted (m * Nat.pow 10 places) 1 q
    sign negative ++ pointed places (roundHalfEven scaled.1 scaled.2)

/-- The text of a number of 64 bits with `places` decimal places. -/
def floatWithPlaces (places : Nat) (x : Float) : String :=
  String.ofList (Format.binary64.textWithPlaces places x.toBits.toNat)

end RichText.Number
