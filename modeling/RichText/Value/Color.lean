/-
# Colors

A color is four bytes: alpha, red, green and blue. It is written with `#` and
hexadecimal digits, with alpha in front unless it is full, and read in that
form, with one digit for each byte, or by name.

Key definitions: `Color`, `Color.ofArgb`, `Color.argb`, `Color.ofHex?`,
`Color.ofName?`, `Color.parse?`, `Color.text`.
Key theorems: `Color.ofArgb_argb`.
-/
import RichText.Number.Digits
import RichText.Text.Cut

namespace RichText

structure Color where
  alpha : UInt8
  red : UInt8
  green : UInt8
  blue : UInt8
deriving DecidableEq, Repr

namespace Color

/-- The color of a number, alpha in the highest of four bytes. -/
def ofArgb (n : Nat) : Color :=
  ⟨UInt8.ofNat (n / 0x1000000), UInt8.ofNat (n / 0x10000), UInt8.ofNat (n / 0x100), UInt8.ofNat n⟩

/-- The number of a color, alpha in the highest of four bytes. -/
def argb (c : Color) : Nat :=
  ((c.alpha.toNat * 0x100 + c.red.toNat) * 0x100 + c.green.toNat) * 0x100 + c.blue.toNat

@[simp]
theorem ofArgb_argb (c : Color) : ofArgb c.argb = c := by
  obtain ⟨a, r, g, b⟩ := c
  have ha := a.toNat_lt
  have hr := r.toNat_lt
  have hg := g.toNat_lt
  have hb := b.toNat_lt
  simp only [ofArgb, argb, Color.mk.injEq, ← UInt8.toNat_inj, UInt8.toNat_ofNat']
  omega

def transparent : Color := ofArgb 0

def black : Color := ofArgb 0xff000000

def white : Color := ofArgb 0xffffffff

/-- The colors that have a name. -/
def named : List (String × Color) := [
  ("black", black), ("silver", ofArgb 0xffc0c0c0), ("gray", ofArgb 0xff808080),
  ("white", white), ("maroon", ofArgb 0xff800000), ("red", ofArgb 0xffff0000),
  ("purple", ofArgb 0xff800080), ("fuchsia", ofArgb 0xffff00ff), ("green", ofArgb 0xff008000),
  ("lime", ofArgb 0xff00ff00), ("olive", ofArgb 0xff808000), ("orange", ofArgb 0xffffa500),
  ("yellow", ofArgb 0xffffff00), ("navy", ofArgb 0xff000080), ("blue", ofArgb 0xff0000ff),
  ("teal", ofArgb 0xff008080), ("aqua", ofArgb 0xff00ffff), ("skyblue", ofArgb 0xff87ceeb),
  ("lightblue", ofArgb 0xffadd8e6), ("lightcoral", ofArgb 0xfff08080),
  ("lightcyan", ofArgb 0xffe0ffff), ("lightgray", ofArgb 0xffd3d3d3),
  ("lightgreen", ofArgb 0xff90ee90), ("lightpink", ofArgb 0xffffb6c1),
  ("lightsalmon", ofArgb 0xffffa07a), ("lightskyblue", ofArgb 0xff87cefa),
  ("lightyellow", ofArgb 0xffffffe0), ("transparent", transparent)]

/-- The color of a name in any case. -/
def ofName? (name : String) : Option Color := named.lookup (Text.lowerCase name)

/-- The color of hexadecimal digits: one or two for each byte, with or without
alpha in front. -/
def ofHex? (digits : List Char) : Option Color :=
  match digits.mapM Number.hexValue? with
  | some [r, g, b] => some (ofArgb (0xff000000 + (r * 0x10000 + g * 0x100 + b) * 0x11))
  | some [a, r, g, b] => some (ofArgb ((((a * 0x100 + r) * 0x100 + g) * 0x100 + b) * 0x11))
  | some [r₁, r₀, g₁, g₀, b₁, b₀] =>
    some (ofArgb (0xff000000 + ([r₁, r₀, g₁, g₀, b₁, b₀].foldl (fun n d => n * 16 + d) 0)))
  | some [a₁, a₀, r₁, r₀, g₁, g₀, b₁, b₀] =>
    some (ofArgb ([a₁, a₀, r₁, r₀, g₁, g₀, b₁, b₀].foldl (fun n d => n * 16 + d) 0))
  | _ => none

/-- The color of `#` and hexadecimal digits, or of a name. -/
def parse? (s : String) : Option Color :=
  match s.toList with
  | '#' :: digits => ofHex? digits
  | _ => ofName? s

/-- The color as `#` and hexadecimal digits, with alpha unless it is full. -/
def text (c : Color) : String :=
  String.ofList <| '#' ::
    if c.alpha = 255 then Number.zeroPadded 6 (Number.hexadecimal (c.argb % 0x1000000))
    else Number.zeroPadded 8 (Number.hexadecimal c.argb)

end Color

end RichText
