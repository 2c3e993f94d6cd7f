/-
# Plain text

A text model whose document is a single element with a text. The style of the
element is a base style in which it is also said whether blanks are kept.

Key definitions: `PlainModel`, `PlainModel.setStyle`, `PlainModel.setText`.
-/
import RichText.Document.Basic
import RichText.TextModel.Listeners

namespace RichText

structure PlainModel where
  registry : Registry
  style : Style := .empty
  text : String := ""
  document : Document
  /-- The number of documents so far, which is also the number of the next
  one's tree of styles. -/
  built : Nat := 1
  listeners : Listeners := {}

namespace PlainModel

/-- A model without content. -/
def new (registry : Registry) : PlainModel := { registry, document := .empty 0 registry }

def listen (m : PlainModel) : PlainModel := { m with listeners := m.listeners.add }

/-- Sets the base style, which counts from the next text on. -/
def setStyle (m : PlainModel) (style : Style) : PlainModel := { m with style }

/-- The document of a text. -/
def documentOf (number : Nat) (registry : Registry) (style : Style) (text : String)
    (preformatted : Bool) : Except StyleError Document := do
  let base := (Document.empty number registry).pushStyle none none style
  let derived ← base.styles.deriveWith 0 Standard.preformatted (some (.flag preformatted))
  let document := { base with styles := derived.2 }.push ⟨derived.1, .text text, []⟩
  return document.addRoot 0

/-- Replaces the text. -/
def setText (m : PlainModel) (text : String) (preformatted : Bool) :
    Update DocumentError PlainModel :=
  match documentOf m.built m.registry m.style text preformatted with
  | .ok document =>
    ⟨.ok (), m.listeners.notify true, { m with text, document, built := m.built + 1 }⟩
  | .error e => ⟨.error (.style e), [], m⟩

/-- A model with a text whose blanks are kept. -/
def ofText (registry : Registry) (text : String) : Update DocumentError PlainModel :=
  (new registry).setText text true

end PlainModel

end RichText
