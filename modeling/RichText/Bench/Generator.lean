/-
# Inputs for benchmarks

A stylesheet and a document of any size, whose parts differ in their numbers.

Key definitions: `sheetText`, `documentText`.
-/
import RichText.Number.Digits

namespace RichText.Bench

/-- A number in decimal. -/
def decimal (n : Nat) : String := String.ofList (Number.decimal n)

/-- The selector of rule `i`, in one of three shapes. -/
def selectorText (i : Nat) : String :=
  let part := ".section" ++ decimal (i % 10)
  match i % 3 with
  | 0 => part
  | 1 => "div" ++ part ++ " > p"
  | _ => "body " ++ part ++ " li"

/-- The color of rule `i`. -/
def colorText (i : Nat) : String :=
  "#" ++ String.ofList (Number.zeroPadded 6 (Number.hexadecimal (i * 7919 % 0x1000000)))

def ruleText (i : Nat) : String :=
  selectorText i ++ " \x7b margin: " ++ decimal (i % 20) ++ "px; padding: " ++ decimal (i % 7) ++
    "px " ++ decimal (i % 5) ++ "px; color: " ++ colorText i ++ "; \x7d\n"

/-- A stylesheet with `n` rules. -/
def sheetText (n : Nat) : String := String.join ((List.range n).map ruleText)

def sectionText (i : Nat) : String :=
  let number := decimal i
  "<div class=\"section" ++ decimal (i % 10) ++ "\" id=\"s" ++ number ++ "\"><h2>Section " ++
    number ++ "</h2><p>Paragraph <b>" ++ number ++ "</b> with <a href=\"#s" ++ number ++
    "\">a link</a>.</p><ol><li>first</li><li>second</li></ol></div>"

/-- A document with `n` sections. -/
def documentText (n : Nat) : String :=
  "<?xml version=\"1.0\"?><html><head><title>Bench</title></head><body>" ++
    String.join ((List.range n).map sectionText) ++ "</body></html>"

end RichText.Bench
