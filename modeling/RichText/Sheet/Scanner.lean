/-
# Scanning a stylesheet

A scanner reads one token at a time from a stream of characters. What forms a
token depends on its mode: a colon marks a pseudo-class among selectors and
ends a property name in a block, and behind that colon everything up to the
next semicolon or closing brace is the value, kept as it is written.

`scan` is one walk along the stream: blanks, closed comments and the
characters of values are passed, and the first token or error ends it. It
takes at least one item off the stream unless it meets the end of it.

Key definitions: `Scanner`, `Scanner.scan`, `Scanner.next`, `Scanner.expect`,
`Scanner.unexpected`.
Key theorems: `Scanner.scan_length_le`, `Scanner.next_length_lt`.
-/
import RichText.Sheet.Token

namespace RichText.Sheet

open RichText.Text

structure Scanner where
  input : CharStream
  mode : Mode := .selectors
  /-- The text of the last identifier. -/
  text : String := ""
  /-- The value collected last, as it is written. -/
  value : String := ""
  /-- Whether a blank was passed among selectors since the last identifier,
  star or reset. -/
  sawBlank : Bool := false
  /-- The place of the next character. -/
  position : Position := .start
  /-- The place where the last token began. -/
  tokenStart : Position := .start
  last : Token := .endOfInput

namespace Scanner

/-- A scanner at the beginning of a stream. -/
def ofStream (input : CharStream) : Scanner := { input }

def ofSource (source : ByteSource) : Scanner := ofStream source.characters

def ofString (s : String) : Scanner := ofStream (.ofString s)

/-- The scanner with `items` left. -/
def leaving (s : Scanner) (items : List StreamItem) : Scanner :=
  { s with input := { s.input with items } }

/-- The scanner behind `c`. -/
def pass (s : Scanner) (c : Char) : Scanner := { s with position := s.position.next c }

/-- The error for a text at the beginning of the token. -/
def lexical (s : Scanner) (text : String) : ParseError := .lexical s.tokenStart text

/-- The name of which `text` has been read goes on in `items`. -/
def readName (s : Scanner) : List StreamItem → Except ParseError Token × Scanner
  | [] =>
    match s.input.failure with
    | some fault => (.error (.read fault), s.leaving [])
    | none => (.ok .identifier, { s with sawBlank := false }.leaving [])
  | .fault fault :: rest => (.error (.read fault), s.leaving rest)
  | .char c :: rest =>
    if isNameChar c then readName { s.pass c with text := s.text.push c } rest
    else (.ok .identifier, { s with sawBlank := false }.leaving (.char c :: rest))

/-- The token that a character alone is among selectors or in a block, and the
scanner behind it. -/
def punctuation (s : Scanner) (c : Char) : Except ParseError Token × Scanner :=
  match s.mode, c with
  | .block, ':' => (.ok .colon, { s with mode := .value, value := "" })
  | .block, '}' => (.ok .blockClose, { s with mode := .selectors })
  | .selectors, '*' => (.ok .star, { s with sawBlank := false })
  | .selectors, '.' => (.ok .dot, s)
  | .selectors, '#' => (.ok .hash, s)
  | .selectors, '>' => (.ok .greater, s)
  | .selectors, ',' => (.ok .comma, s)
  | .selectors, ':' => (.ok .colon, s)
  | .selectors, '@' => (.ok .atSign, s)
  | .selectors, '{' => (.ok .blockOpen, { s with mode := .block })
  | _, c => (.error (s.lexical c.toString), s)

/-- What the end of the input is for a scanner. -/
def atEnd (s : Scanner) (inComment : Bool) : Except ParseError Token × Scanner :=
  match s.input.failure with
  | some fault => (.error (.read fault), s.leaving [])
  | none =>
    if inComment then (.error (s.lexical "/*"), s.leaving [])
    else
      match s.mode with
      | .singleQuoted => (.error (s.lexical "'"), s.leaving [])
      | .doubleQuoted => (.error (s.lexical "\""), s.leaving [])
      | _ => (.ok .endOfInput, s.leaving [])

/-- The next token in `items`, where `inComment` says that a comment is open.
Each turn outside a comment begins the token anew. -/
def scan (inComment : Bool) (s : Scanner) : List StreamItem → Except ParseError Token × Scanner
  | [] => (if inComment then s else { s with tokenStart := s.position }).atEnd inComment
  | .fault fault :: rest =>
    (.error (.read fault),
      (if inComment then s else { s with tokenStart := s.position }).leaving rest)
  | .char c :: rest =>
    if inComment then
      match c, rest with
      | '*', .char '/' :: rest => scan false ((s.pass '*').pass '/') rest
      | c, rest => scan true (s.pass c) rest
    else
      let s := { s.pass c with tokenStart := s.position }
      match s.mode with
      | .value =>
        match c with
        | ';' => (.ok .semicolon, { s with mode := .block }.leaving rest)
        | '}' => (.ok .blockClose, { s with mode := .selectors }.leaving rest)
        | '\'' => scan false { s with mode := .singleQuoted, value := s.value.push c } rest
        | '"' => scan false { s with mode := .doubleQuoted, value := s.value.push c } rest
        | c => scan false { s with value := s.value.push c } rest
      | .singleQuoted =>
        scan false
          { s with mode := if c = '\'' then .value else .singleQuoted, value := s.value.push c } rest
      | .doubleQuoted =>
        scan false
          { s with mode := if c = '"' then .value else .doubleQuoted, value := s.value.push c } rest
      | _ =>
        if isSpace c then scan false { s with sawBlank := s.sawBlank || s.mode = .selectors } rest
        else if isNameStart c then readName { s with text := c.toString } rest
        else
          match c, rest with
          | '/', .char '*' :: rest => scan true (s.pass '*') rest
          | '/', .fault fault :: rest => (.error (.read fault), s.leaving rest)
          | '/', [] =>
            match s.input.failure with
            | some fault => (.error (.read fault), s.leaving [])
            | none => (s.leaving []).punctuation '/'
          | c, rest =>
            -- a semicolon in a block ends an empty declaration
            if s.mode = .block && c = ';' then scan false s rest
            else (s.leaving rest).punctuation c

/-- Reading a name takes nothing but the name off the stream. -/
theorem readName_length_le (s : Scanner) (items : List StreamItem) :
    (s.readName items).2.input.items.length ≤ items.length := by
  fun_induction readName s items with
  | case1 => simp [leaving]
  | case2 => simp [leaving]
  | case3 => simp [leaving]
  | case4 _ _ _ _ ih => exact Nat.le_succ_of_le ih
  | case5 => simp [leaving]

theorem punctuation_items (s : Scanner) (c : Char) :
    (s.punctuation c).2.input.items = s.input.items := by
  unfold punctuation
  split <;> rfl

theorem atEnd_items (s : Scanner) (inComment : Bool) : (s.atEnd inComment).2.input.items = [] := by
  unfold atEnd
  split
  · rfl
  · split
    · rfl
    · split <;> rfl

/-- At the end of the input there is no other token. -/
theorem atEnd_ok {s s' : Scanner} {inComment : Bool} {t : Token}
    (h : s.atEnd inComment = (.ok t, s')) : t = .endOfInput := by
  unfold atEnd at h
  split at h
  · simp at h
  · split at h
    · simp at h
    · split at h <;> simp_all

/-- A scan takes at least one item off a stream that has one. -/
theorem scan_length_le (inComment : Bool) (s : Scanner) (items : List StreamItem) :
    (s.scan inComment items).2.input.items.length ≤ items.length - 1 := by
  fun_induction scan inComment s items
  all_goals
    simp only [atEnd_items, punctuation_items, List.length_nil, List.length_cons, leaving] at *
  all_goals try omega
  exact readName_length_le _ _

/-- The next token. -/
def next (s : Scanner) : Except ParseError Token × Scanner :=
  match s.scan false s.input.items with
  | (.ok token, s) => (.ok token, { s with last := token })
  | (.error e, s) => (.error e, s)

/-- A token other than the end of the input takes something off the stream. -/
theorem next_length_lt {s s' : Scanner} {t : Token} (h : s.next = (.ok t, s'))
    (ht : t ≠ .endOfInput) : s'.input.items.length < s.input.items.length := by
  have hle := s.scan_length_le false s.input.items
  have hend : s.input.items = [] → t = .endOfInput := by
    intro hnil
    unfold next at h
    rw [hnil, scan] at h
    split at h
    · next token s₁ heq =>
      obtain ⟨rfl, -⟩ : token = t ∧ _ := by simpa using h
      exact atEnd_ok heq
    · simp at h
  have hpos := List.length_pos_iff.2 fun hnil => ht (hend hnil)
  have hitems : s'.input.items = (s.scan false s.input.items).2.input.items := by
    unfold next at h
    split at h
    · next heq =>
      obtain ⟨-, rfl⟩ : _ ∧ _ = s' := by simpa using h
      simp [heq]
    · simp at h
  rw [hitems]
  omega

/-- The scanner with the blanks passed so far forgotten. -/
def forgetBlanks (s : Scanner) : Scanner := { s with sawBlank := false }

/-- The error for the last token being out of place. -/
def unexpected (s : Scanner) : ParseError :=
  .unexpected s.tokenStart <|
    if s.last = .identifier then "\"" ++ s.text ++ "\"" else s.last.describe

/-- Reads a token, which has to be `token`. -/
def expect (s : Scanner) (token : Token) : Except ParseError Unit × Scanner :=
  match s.next with
  | (.ok found, s) => if found = token then (.ok (), s) else (.error s.unexpected, s)
  | (.error e, s) => (.error e, s)

end Scanner

end RichText.Sheet
