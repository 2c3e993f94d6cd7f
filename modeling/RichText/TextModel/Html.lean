/-
# Text with markup

A text model that holds the last document that could be built. An attempt that
fails leaves the document alone; the listeners hear of every attempt.

Key definitions: `HtmlModel`, `HtmlModel.parse`, `HtmlModel.setHtml`,
`HtmlModel.read`, `HtmlModel.modified`.
-/
import RichText.Document.Builder
import RichText.TextModel.Listeners

namespace RichText

structure HtmlModel where
  registry : Registry
  document : Document
  /-- The number of documents so far, which is also the number of the next
  one's tree of styles. -/
  built : Nat
  listeners : Listeners

namespace HtmlModel

/-- A model without content. -/
def new (registry : Registry) : HtmlModel where
  registry
  document := .empty 0 registry
  built := 1
  listeners := {}

def listen (m : HtmlModel) : HtmlModel := { m with listeners := m.listeners.add }

/-- Takes over the document of an attempt that did not fail. -/
def commit (m : HtmlModel) : Except DocumentError Document → Update DocumentError HtmlModel
  | .ok document => ⟨.ok (), m.listeners.notify true, { m with document, built := m.built + 1 }⟩
  | .error e => ⟨.error e, m.listeners.notify false, m⟩

/-- Replaces the content by that of a document. -/
def parse (m : HtmlModel) (source : String) : Update DocumentError HtmlModel :=
  m.commit (Document.ofString m.built m.registry source)

/-- Replaces the content by that of a document or of markup for its body. -/
def setHtml (m : HtmlModel) (html : String) : Update DocumentError HtmlModel :=
  m.parse (wrapped html)

/-- Replaces the content by that of the document that a source delivers. -/
def read (m : HtmlModel) (source : ByteSource) : Update DocumentError HtmlModel :=
  match Markup.readSource source with
  | .ok text => m.parse text
  | .error e => m.commit (.error (.markup e))

/-- Tells the listeners that the content has been changed from outside. -/
def modified (m : HtmlModel) : List Notice := m.listeners.notify true

end HtmlModel

end RichText
