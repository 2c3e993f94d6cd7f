/-
# UTF-8, byte by byte

Bytes are turned into characters one at a time: the bytes of the character
begun are kept until it is complete, so a text may be cut anywhere, inside a
character too. Overlong forms, surrogates and numbers beyond Unicode are
invalid at the first byte that shows it.

Key definitions: `classify`, `decode`.
Key theorems: `decode_append`.
-/

namespace RichText.Text.Utf8

/-- What the bytes since the last complete character are. -/
inductive Classified where
  | char (c : Char)
  | unfinished
  | invalid
deriving DecidableEq, Repr

/-- Whether a byte continues a character. -/
def continues (b : UInt8) : Bool := 0x80 ≤ b && b ≤ 0xbf

/-- Whether `b` may follow the first byte `a` of a character. -/
def mayFollow (a b : UInt8) : Bool :=
  if a = 0xe0 then 0xa0 ≤ b && b ≤ 0xbf
  else if a = 0xed then 0x80 ≤ b && b ≤ 0x9f
  else if a = 0xf0 then 0x90 ≤ b && b ≤ 0xbf
  else if a = 0xf4 then 0x80 ≤ b && b ≤ 0x8f
  else continues b

/-- What one to four bytes are, when all but the last of them were unfinished. -/
def classify : List UInt8 → Classified
  | [a] =>
    if a < 0x80 then .char (Char.ofNat a.toNat)
    else if 0xc2 ≤ a && a ≤ 0xf4 then .unfinished
    else .invalid
  | [a, b] =>
    if !mayFollow a b then .invalid
    else if a < 0xe0 then .char (Char.ofNat (a.toNat % 32 * 64 + b.toNat % 64))
    else .unfinished
  | [a, b, c] =>
    if !continues c then .invalid
    else if a < 0xf0 then
      .char (Char.ofNat ((a.toNat % 16 * 64 + b.toNat % 64) * 64 + c.toNat % 64))
    else .unfinished
  | [a, b, c, d] =>
    if !continues d then .invalid
    else
      .char (Char.ofNat
        (((a.toNat % 8 * 64 + b.toNat % 64) * 64 + c.toNat % 64) * 64 + d.toNat % 64))
  | _ => .invalid

/-- The characters of `bytes` behind those of `seen`, and the bytes of the
character begun last. -/
def decode (seen : List UInt8) : List UInt8 → Option (List Char × List UInt8)
  | [] => some ([], seen)
  | b :: bytes =>
    match classify (seen ++ [b]) with
    | .char c => (decode [] bytes).map fun result => (c :: result.1, result.2)
    | .unfinished => decode (seen ++ [b]) bytes
    | .invalid => none

/-- Decoding may stop and go on anywhere. -/
theorem decode_append (seen a b : List UInt8) :
    decode seen (a ++ b) =
      (decode seen a).bind fun first =>
        (decode first.2 b).map fun second => (first.1 ++ second.1, second.2) := by
  induction a generalizing seen with
  | nil => cases h : decode seen b <;> simp [decode, h]
  | cons x a ih =>
    simp only [List.cons_append, decode]
    split
    · next c hc =>
      rw [ih]
      cases decode [] a with
      | none => rfl
      | some first => cases h : decode first.2 b <;> simp [h]
    · rw [ih]
    · rfl

end RichText.Text.Utf8
