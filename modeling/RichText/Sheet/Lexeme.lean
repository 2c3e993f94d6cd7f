/-
# The lexemes of a stylesheet

All that the grammar needs to know of the tokens of a stylesheet, read to the
end of the input or to the first error.

Key definitions: `Lexeme`, `Lexemes`, `Scanner.lexemes`.
-/
import RichText.Sheet.Scanner

namespace RichText.Sheet

open RichText.Text

structure Lexeme where
  token : Token
  /-- The text of the identifier read last. -/
  text : String
  /-- The value collected last. -/
  value : String
  /-- Whether a blank was passed since the last identifier or star. -/
  sawBlank : Bool
  start : Position
deriving DecidableEq, Repr

/-- The lexemes of an input, up to its end or to the first error. -/
inductive Lexemes where
  | ended (position : Position)
  | failed (error : ParseError)
  | next (lexeme : Lexeme) (rest : Lexemes)
deriving DecidableEq, Repr

/-- The error for a lexeme that does not fit. -/
def Lexeme.unexpected (l : Lexeme) : ParseError :=
  .unexpected l.start <|
    if l.token = .identifier then "\"" ++ l.text ++ "\"" else l.token.describe

namespace Lexemes

/-- The error for the lexeme that comes next: its own if it could not be read,
or that it does not fit. -/
def unexpected : Lexemes → ParseError
  | .ended position => .unexpected position Token.endOfInput.describe
  | .failed error => error
  | .next lexeme _ => lexeme.unexpected

/-- The number of lexemes. -/
def size : Lexemes → Nat
  | .ended _ => 0
  | .failed _ => 0
  | .next _ rest => rest.size + 1

end Lexemes

/-- What the grammar sees of the token read last. -/
def Scanner.lexeme (s : Scanner) : Lexeme where
  token := s.last
  text := s.text
  value := s.value
  sawBlank := s.sawBlank
  start := s.tokenStart

/-- The lexemes that a scanner reads. -/
def Scanner.lexemes (s : Scanner) : Lexemes :=
  match h : s.next with
  | (.error e, _) => .failed e
  | (.ok token, s') =>
    if ht : token = .endOfInput then .ended s'.tokenStart
    else
      have := Scanner.next_length_lt h ht
      .next s'.lexeme s'.lexemes
termination_by s.input.items.length

end RichText.Sheet
