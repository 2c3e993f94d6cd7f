/-
# Events of a document

What happens in a text of markup: elements are opened and closed, and texts
stand in between. A tag that closes itself opens an element and closes it at
once, comments are no events, and only the element opened last can be closed.

Key definitions: `Event`, `EventStream`, `EventStream.ofTokens`,
`EventStream.ofString`.
-/
import RichText.Document.Error
import RichText.Markup.Tokenizer

namespace RichText

open RichText.Markup RichText.Text

inductive Event where
  | opened (name : String) (attributes : Attributes)
  | closed (name : String)
  | text (s : String)
deriving DecidableEq, Repr

/-- Events with the places of the tokens that they come from, and the error
that ends them unless all elements are closed. -/
structure EventStream where
  items : List (Position × Event)
  failure : Option DocumentError
deriving DecidableEq, Repr

namespace EventStream

def fail (e : DocumentError) : EventStream := ⟨[], some e⟩

def cons (position : Position) (event : Event) (more : EventStream) : EventStream :=
  ⟨(position, event) :: more.items, more.failure⟩

/-- Why no more events follow the last token, inside the elements `inside`. -/
def endingOf (failure : Option ParseError) (inside : List String) : Option DocumentError :=
  match failure with
  | some e => some (.markup e)
  | none => inside.head?.map .unfinished

/-- The events of tokens inside the elements `inside`, the innermost first,
when `failure` ends the tokens. -/
def ofTokens (failure : Option ParseError) :
    (inside : List String) → List (Position × Token) → EventStream
  | inside, [] => ⟨[], endingOf failure inside⟩
  | inside, (_, .comment _) :: tokens => ofTokens failure inside tokens
  | inside, (p, .text s) :: tokens => cons p (.text s) (ofTokens failure inside tokens)
  | inside, (p, .startTag name attributes selfClosing) :: tokens =>
    cons p (.opened name attributes)
      (if selfClosing then cons p (.closed name) (ofTokens failure inside tokens)
      else ofTokens failure (name :: inside) tokens)
  | [], (p, .endTag name) :: _ => fail (.malformed p (.nothingToClose name))
  | inner :: inside, (p, .endTag name) :: tokens =>
    if inner = name then cons p (.closed name) (ofTokens failure inside tokens)
    else fail (.malformed p (.doesNotClose name inner))

/-- The events of a text. -/
def ofString (s : String) : EventStream :=
  let tokens := (Tokenizer.ofString s).stream
  ofTokens tokens.failure [] tokens.items

end EventStream

end RichText
