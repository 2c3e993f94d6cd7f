/-
# Reading the values of declarations

Lengths, colors, lists and keywords as they are written in declarations.

Key definitions: `readLength`, `readLengths`, `readColor`, `readList`,
`stripUrl`, `readKeyword`, `readKeywordOf`.
Key theorems: `length_trimStart_le`.
-/
import RichText.Number.Reading
import RichText.StyleError
import RichText.Text.Blank

namespace RichText.Declaration

open RichText.Text

/-- The value of a keyword in any case. -/
def readKeyword (α : Type) [Keyword α] (value : String) : Except StyleError α :=
  match ofKeyword? α value with
  | some v => .ok v
  | none => .error (.malformed (.unknownKeyword value))

/-- What a table has for a keyword in any case. -/
def readKeywordOf {α : Type} (table : List (String × α)) (value : String) : Except StyleError α :=
  match table.lookup (lowerCase value) with
  | some v => .ok v
  | none => .error (.malformed (.unknownKeyword value))

/-- The number in front of a unit, and the unit. -/
def splitUnit? (s : List Char) : Option (List Char × LengthUnit) :=
  [LengthUnit.px, .pt, .em, .ex, .percent].findSome? fun unit =>
    (beforeTail? unit.suffix.toList s).map fun number => (number, unit)

/-- A length: a number and a unit, a bare zero, or `auto`. -/
def readLength (value : String) : Except StyleError Length :=
  let s := trim value.toList
  let shown := String.ofList s
  if s = ['0'] then .ok (.px 0)
  else if sameLetters shown "auto" then .ok .auto
  else
    match splitUnit? s with
    | none => .error (.malformed (.unknownUnit shown))
    | some (number, unit) =>
      match Number.readFloat32? (trim number) with
      | some x => .ok ⟨x, unit⟩
      | none => .error (.malformed (.notANumber shown))

/-- Lengths with blanks between them. -/
def readLengths (value : String) : Except StyleError (List Length) :=
  (words value.toList).mapM fun word => readLength (String.ofList word)

/-- An integer as a byte; one that is out of range becomes the nearest. -/
def clampByte (n : Int) : UInt8 := UInt8.ofNat (min 255 n.toNat)

/-- A fraction of one as a byte, rounded, a half going up. -/
def alphaByte (x : Float32) : UInt8 :=
  match Number.Format.binary32.decode (x * Number.float32OfNat 255).toBits.toNat with
  | .nan => 0
  | .infinite negative => if negative then 0 else 255
  | .finite negative m q _ =>
    if negative then 0
    else
      let scaled := Number.shifted m 1 q
      UInt8.ofNat (min 255 ((2 * scaled.1 + scaled.2) / (2 * scaled.2)))

/-- A percentage of 255, without what is left over. The product is one of words
with 64 bits, and wraps around when it does not fit. -/
def percentOf255 (n : Int) : Int := (255 * Int64.ofInt n / 100).toInt

/-- A component of a color: an integer, a percentage of 255, or, for alpha, a
fraction of one. -/
def readComponent (isAlpha : Bool) (s : List Char) : Except StyleError UInt8 :=
  let byte? : Option UInt8 :=
    if isAlpha then (Number.readFloat32? s).map alphaByte
    else
      match beforeTail? ['%'] s with
      | some percent =>
        (Number.readInt64? (trim percent)).map fun n => clampByte (percentOf255 n)
      | none => (Number.readInt64? s).map clampByte
  match byte? with
  | some byte => .ok byte
  | none => .error (.malformed (.badComponent (String.ofList s)))

/-- The components of a color between commas: red, green, blue and perhaps
alpha. -/
def readComponents (count : Nat) (s : List Char) : Except StyleError (List UInt8) :=
  let parts := (pieces ',' s).map trim
  if parts.length ≠ count then .error (.malformed (.componentCount count parts.length))
  else parts.zipIdx.mapM fun part => readComponent (part.2 == 3) part.1

/-- What stands in the brackets behind `name`. -/
def arguments? (name s : List Char) : Option (List Char) :=
  (afterLead? (name ++ ['(']) s).bind (beforeTail? [')'])

/-- A color: `rgb(...)`, `rgba(...)`, hexadecimal digits or a name. -/
def readColor (value : String) : Except StyleError Color :=
  let s := trim value.toList
  match arguments? ['r', 'g', 'b'] s with
  | some inner =>
    (readComponents 3 inner).map fun bytes =>
      ⟨255, bytes[0]?.getD 0, bytes[1]?.getD 0, bytes[2]?.getD 0⟩
  | none =>
    match arguments? ['r', 'g', 'b', 'a'] s with
    | some inner =>
      (readComponents 4 inner).map fun bytes =>
        ⟨bytes[3]?.getD 0, bytes[0]?.getD 0, bytes[1]?.getD 0, bytes[2]?.getD 0⟩
    | none =>
      match Color.parse? (String.ofList s) with
      | some c => .ok c
      | none => .error (.malformed (.unknownColor (String.ofList s)))

/-- The text between quotes of one kind, if it is in such quotes. -/
def unquote (quote : Char) (s : List Char) : Option (List Char) :=
  (afterLead? [quote] s).bind (beforeTail? [quote])

/-- The argument of `url(...)`, without quotes; any other text is left as it
is. -/
def stripUrl (value : String) : String :=
  let s := trim value.toList
  String.ofList <|
    match arguments? ['u', 'r', 'l'] s with
    | some inner =>
      let inner := trim inner
      ((unquote '"' inner).or (unquote '\'' inner)).getD inner
    | none => s

theorem length_trimStart_le (s : List Char) : (trimStart s).length ≤ s.length :=
  (List.dropWhile_suffix _).length_le

theorem length_lt_of_trimStart {s rest : List Char} {c : Char} (h : trimStart s = c :: rest) :
    (trimStart rest).length < s.length := by
  have h₁ := length_trimStart_le s
  have h₂ := length_trimStart_le rest
  simp only [h, List.length_cons] at h₁
  omega

theorem length_lt_of_dropWhile {p : Char → Bool} {s rest : List Char} {c : Char}
    (h : s.dropWhile p = c :: rest) : (trimStart rest).length < s.length := by
  have h₁ := (List.dropWhile_suffix (l := s) p).length_le
  have h₂ := length_trimStart_le rest
  simp only [h, List.length_cons] at h₁
  omega

/-- An item in front of others; an empty one is dropped. -/
def withItem (item : List Char) (others : List String) : List String :=
  if item = [] then others else String.ofList item :: others

/-- The items of a list, each in quotes or up to the next comma. -/
def listItems (whole : String) (s : List Char) : Except StyleError (List String) :=
  match s with
  | [] => .ok []
  | c :: body =>
    if c = '"' ∨ c = '\'' then
      match hc : cutAt? [c] body with
      | none => .error (.malformed (.unterminatedString whole))
      | some (item, tail) =>
        have : tail.length ≤ body.length := length_le_of_cutAt? hc
        match ht : trimStart tail with
        | [] => .ok (withItem item [])
        | ',' :: rest =>
          have : (trimStart rest).length < tail.length := length_lt_of_trimStart ht
          (listItems whole (trimStart rest)).map (withItem item)
        | _ => .error (.malformed (.commaExpected whole))
    else
      match hd : (c :: body).dropWhile (· ≠ ',') with
      | [] => .ok (withItem (trim (c :: body)) [])
      | _ :: rest =>
        have : (trimStart rest).length < body.length + 1 := length_lt_of_dropWhile hd
        (listItems whole (trimStart rest)).map
          (withItem (trim ((c :: body).takeWhile (· ≠ ','))))
termination_by s.length
decreasing_by all_goals simp only [List.length_cons]; omega

/-- A list of texts with commas between them, each in quotes or bare. Empty
items do not count. -/
def readList (value : String) : Except StyleError (List String) :=
  listItems value (trimStart value.toList)

end RichText.Declaration
