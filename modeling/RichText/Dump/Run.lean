/-
# Dumping a document

A document is read and built, its stylesheets are read, and the document is
resolved against them in a layout of its own. Of the stylesheets that the
document names those that are no files next to it are left out; any other that
cannot be read, or is malformed, is a failure.

Key definitions: `loadSheet`, `loadSheets`, `dump`.
-/
import RichText.Dump.Document
import RichText.Dump.Files
import RichText.Dump.Path
import RichText.TextModel.Html

namespace RichText

variable {m : Type → Type} [Monad m]

/-- The stylesheet of a text that was read from `path`. -/
def sheetOf (path text : String) : Except Failure StyleSheet :=
  let parsed := (StyleSheet.new .standard).parseString text
  (Failure.ofCause .css s!"parsing {path}" .style parsed.1).map fun _ => parsed.2

/-- The stylesheet of a file. -/
def loadSheet (read : ReadFile m) (path : String) : ExceptT Failure m StyleSheet := do
  match ← (read.text path : m _) with
  | .error fault => throw (.read fault)
  | .ok text => sheetOf path text

/-- The stylesheets that a document names, except those that are no files. -/
def loadLinked (read : ReadFile m) (base : String) :
    List String → ExceptT Failure m (List StyleSheet)
  | [] => return []
  | link :: links => do
    let path := Path.join base link
    match ← (read path : m _) with
    | .error fault =>
      if fault.isAbsence then loadLinked read base links else throw (.read fault)
    | .ok _ =>
      let first ← loadSheet read path
      let others ← loadLinked read base links
      return first :: others

/-- The stylesheets that a document in `base` names, and then others. -/
def loadSheets (read : ReadFile m) (base : String) (links others : List String) :
    ExceptT Failure m SheetSet := do
  let linked ← loadLinked read base links
  let more ← others.mapM (loadSheet read)
  return (linked ++ more).foldl SheetSet.push {}

/-- The document of a text that was read from `path`. -/
def documentOf (path text : String) : Except Failure Document :=
  let built := (HtmlModel.new .standard).setHtml text
  (Failure.ofCause .document s!"parsing {path}" .document built.result).map fun _ =>
    built.model.document

/-- What is shown of the document that the options name. -/
def dump (read : ReadFile m) (o : DumpOptions) : ExceptT Failure m String := do
  match ← (read.text o.document : m _) with
  | .error fault => throw (.read fault)
  | .ok text =>
    let document ← documentOf o.document text
    let base := (Path.parent? o.document).getD "."
    let sheets ← loadSheets read base document.links o.stylesheets
    let layout := Resolver.duringLayout (DocumentDump.collect o document)
    let found ← (layout.run (.set sheets)).1
    return found.render o.format

end RichText
