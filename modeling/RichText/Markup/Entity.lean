/-
# Character references

`&name;`, `&#number;` and `&#xnumber;` stand for a character. A reference that
stands for none is kept as it is written, and what a reference stands for is
never part of another one.

Key definitions: `entities`, `ofName?`, `reference?`, `decode`.
Key theorems: `reference?_length_lt`.
-/
import RichText.Number.Digits

namespace RichText.Markup.Entity

/-- The characters that have a name. -/
def entities : List (String × Char) := [
  ("lt", '<'), ("gt", '>'), ("amp", '&'), ("quot", '"'), ("apos", '\''),
  ("nbsp", '\u00a0'), ("shy", '\u00ad'), ("copy", '\u00a9'), ("reg", '\u00ae'),
  ("trade", '\u2122'), ("hellip", '\u2026'), ("mdash", '\u2014'), ("ndash", '\u2013'),
  ("ldquo", '\u201c'), ("rdquo", '\u201d'), ("lsquo", '\u2018'), ("rsquo", '\u2019'),
  ("laquo", '\u00ab'), ("raquo", '\u00bb'), ("bull", '\u2022'), ("middot", '\u00b7'),
  ("times", '\u00d7'), ("divide", '\u00f7'), ("euro", '\u20ac'), ("pound", '\u00a3'),
  ("yen", '\u00a5'), ("cent", '\u00a2'), ("deg", '\u00b0'), ("plusmn", '\u00b1'),
  ("para", '\u00b6'), ("sect", '\u00a7'), ("frac12", '\u00bd'), ("frac14", '\u00bc'),
  ("frac34", '\u00be'), ("larr", '\u2190'), ("rarr", '\u2192'), ("uarr", '\u2191'),
  ("darr", '\u2193')]

/-- The character of a name. -/
def ofName? (name : String) : Option Char := entities.lookup name

/-- The character of a code point; surrogates have none. -/
def ofCodePoint? (n : Nat) : Option Char :=
  if h : n.isValidChar then some (Char.ofNatAux n h) else none

/-- The character of a decimal number, or of a hexadecimal one behind `x`. -/
def ofNumber? (s : List Char) : Option Char :=
  match s with
  | 'x' :: digits | 'X' :: digits => (Number.readHexadecimal? digits).bind ofCodePoint?
  | digits => (Number.readDecimal? digits).bind ofCodePoint?

/-- The character of what stands between `&` and `;`. -/
def ofBody? (body : List Char) : Option Char :=
  match body with
  | [] => none
  | '#' :: number => ofNumber? number
  | name => ofName? (String.ofList name)

/-- The most characters between `&` and `;`. -/
def bodyLimit : Nat := 32

/-- A character that may stand between `&` and `;`. -/
def isBodyChar (c : Char) : Bool := c.isAlphanum || c == '#'

/-- The body of a reference at the beginning of a text. -/
def bodyOf (s : List Char) : List Char := (s.take bodyLimit).takeWhile isBodyChar

/-- The character that the text behind `&` makes a reference to, and the text
behind the reference. -/
def reference? (s : List Char) : Option (Char × List Char) :=
  match s.drop (bodyOf s).length with
  | ';' :: rest => (ofBody? (bodyOf s)).map fun c => (c, rest)
  | _ => none

theorem reference?_length_lt {s rest : List Char} {c : Char} (h : reference? s = some (c, rest)) :
    rest.length < s.length := by
  unfold reference? at h
  split at h
  · next r hd =>
    have hlen := congrArg List.length hd
    obtain ⟨_, _, he⟩ := Option.map_eq_some_iff.1 h
    obtain ⟨-, rfl⟩ : _ ∧ r = rest := by simpa using he
    simp only [List.length_drop, List.length_cons] at hlen
    omega
  · simp at h

/-- The text with every reference replaced by its character. -/
def decode (s : List Char) : List Char :=
  match s with
  | [] => []
  | '&' :: s =>
    match h : reference? s with
    | some (c, rest) =>
      have := reference?_length_lt h
      c :: decode rest
    | none => '&' :: decode s
  | c :: s => c :: decode s
termination_by s.length
decreasing_by all_goals simp only [List.length_cons]; omega

end RichText.Markup.Entity
