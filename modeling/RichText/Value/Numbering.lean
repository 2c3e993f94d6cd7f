/-
# Numbering of ordered lists

How the items of an ordered list are labelled: in decimal, in Roman numerals,
or in a bijective numeration over a list of characters, in which `z` is
followed by `aa`. A number that the scheme cannot express is written in
decimal.

Key definitions: `Numbering`, `Numbering.ofKeyword?`, `Numbering.label`,
`romanNumeral`, `places`.
-/
import RichText.Number.Digits
import RichText.Text.Cut

namespace RichText

/-- The values of `list-style-type`. -/
inductive Numbering where
  | decimal
  | roman (lowercase : Bool)
  /-- Bijective numeration with these characters as digits. -/
  | characters (list : String)
deriving DecidableEq, Repr

namespace Numbering

/-- The Roman numerals and their values, the greatest first. -/
def romanNumerals : List (Nat × String) := [
  (10000, "ↂ"), (9000, "Mↂ"), (5000, "ↁ"), (4000, "Mↁ"),
  (1000, "M"), (900, "CM"), (500, "D"), (400, "CD"), (100, "C"), (90, "XC"), (50, "L"),
  (40, "XL"), (10, "X"), (9, "IX"), (5, "V"), (4, "IV"), (1, "I")]

/-- The greatest number with a Roman numeral. -/
def mostRoman : Nat := 39999

/-- The numerals for `n`, each as often as it goes into what is left. -/
def romanFrom (n : Nat) : List (Nat × String) → List Char
  | [] => []
  | (value, numeral) :: rest =>
    (List.replicate (n / value) numeral.toList).flatten ++ romanFrom (n % value) rest

/-- The Roman numeral for `n` in capitals. -/
def romanNumeral (n : Nat) : List Char := romanFrom n romanNumerals

/-- The digits of `n` in bijective base `base`, the last one first. They count
from zero. -/
def places (base n : Nat) : List Nat :=
  if h : n = 0 then []
  else
    have : (n - 1) / base < n := Nat.lt_of_le_of_lt (Nat.div_le_self _ _) (by omega)
    (n - 1) % base :: places base ((n - 1) / base)

/-- The bijective numeral for `n` with the characters of `list` as digits. -/
def bijective (list : List Char) (n : Nat) : List Char :=
  (places list.length n).reverse.filterMap fun d => list[d]?

/-- The label of item number `n`. -/
def label (scheme : Numbering) (n : Int) : String :=
  String.ofList <|
    match scheme with
    | .decimal => Number.integer n
    | .roman lowercase =>
      if n < 1 ∨ mostRoman < n then Number.integer n
      else if lowercase then (romanNumeral n.toNat).map Char.toLower
      else romanNumeral n.toNat
    | .characters list =>
      if n < 1 then Number.integer n else bijective list.toList n.toNat

def upperAlpha : String := "ABCDEFGHIJKLMNOPQRSTUVWXYZ"

def lowerAlpha : String := "abcdefghijklmnopqrstuvwxyz"

/-- The schemes that have a keyword. -/
def named : List (String × Numbering) := [
  ("decimal", .decimal),
  ("upper-alpha", .characters upperAlpha),
  ("lower-alpha", .characters lowerAlpha),
  ("upper-latin", .characters upperAlpha),
  ("lower-latin", .characters lowerAlpha),
  ("upper-roman", .roman false),
  ("lower-roman", .roman true),
  ("lower-greek", .characters "αβγδεζηθικλμνξοπρστυφχψω"),
  ("upper-norwegian", .characters "ABCDEFGHIJKLMNOPQRSTUVWXYZÆØÅ"),
  ("lower-norwegian", .characters "abcdefghijklmnopqrstuvwxyzæøå"),
  ("upper-russian-short", .characters "АБВГДЕЖЗИКЛМНОПРСТУФХЦЧШЩЭЮЯ"),
  ("lower-russian-short", .characters "абвгдежзиклмнопрстуфхцчшщэюя")]

/-- The scheme of a keyword in any case. -/
def ofKeyword? (s : String) : Option Numbering := named.lookup (Text.lowerCase s)

/-- How a scheme is written. A list of characters has no keyword of its own. -/
def text : Numbering → String
  | .decimal => "decimal"
  | .roman true => "lower-roman"
  | .roman false => "upper-roman"
  | .characters list => "chars(" ++ list ++ ")"

end Numbering

end RichText
