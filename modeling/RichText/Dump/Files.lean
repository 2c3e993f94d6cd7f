/-
# Files

How a program gets at files: by asking for the bytes of one. Files held in
memory answer as a file system does that has no others.

Key definitions: `ReadFile`, `Files`, `Files.Place`, `Files.read`.
-/
import RichText.Input
import RichText.Text.Cut

namespace RichText

open RichText.Text

/-- A way to ask for the bytes of a file. -/
abbrev ReadFile (m : Type → Type) := String → m (Except ReadFault (List UInt8))

/-- The text of a file. -/
def ReadFile.text {m : Type → Type} [Monad m] (read : ReadFile m) (path : String) :
    m (Except ReadFault String) := do
  match ← read path with
  | .ok bytes => return (ByteSource.ofBytes bytes).text
  | .error fault => return .error fault

structure File where
  /-- The directories that lead to the file, and its name. -/
  steps : List (List Char)
  bytes : List UInt8

/-- The files below a working directory. There are no others, above it either. -/
abbrev Files := List File

namespace Files

/-- Files with the paths that lead to them. -/
def ofList (files : List (String × List UInt8)) : Files :=
  files.map fun file => ⟨pieces '/' file.1.toList, file.2⟩

/-- Whether a directory is among the files. -/
def hasDirectory (files : Files) (directory : List (List Char)) : Bool :=
  files.any fun file =>
    file.steps.take directory.length == directory && directory.length < file.steps.length

/-- A directory that a path leads to. -/
inductive Place where
  /-- The working directory, or one below it with the steps that lead there. -/
  | inside (steps : List (List Char))
  /-- A directory above the working directory, such as the root. -/
  | above
deriving DecidableEq, Repr

namespace Place

/-- The directory that two dots lead to. The root is its own. -/
def parent : Place → Place
  | inside [] => above
  | inside steps => inside steps.dropLast
  | above => above

/-- The steps to what has the given name in a directory. Nothing above the
working directory has a known name. -/
def entry? (name : List Char) : Place → Option (List (List Char))
  | inside steps => some (steps ++ [name])
  | above => none

end Place

/-- What is met along the steps of a path from a directory. -/
def walk (files : Files) (here : Place) : List (List Char) → Except ReadFault (List UInt8)
  | [] => .error .isADirectory
  | step :: steps =>
    if step = [] ∨ step = ['.'] then walk files here steps
    else if step = ['.', '.'] then walk files here.parent steps
    else if 255 < (String.ofList step).utf8ByteSize then .error .nameTooLong
    else
      match here.entry? step with
      | none => .error .noSuchFile
      | some entry =>
        match files.find? fun file => file.steps == entry with
        | some file => if steps = [] then .ok file.bytes else .error .notADirectory
        | none =>
          if files.hasDirectory entry then walk files (.inside entry) steps
          else .error .noSuchFile

/-- The bytes of the file that a path leads to. -/
def read (files : Files) (path : String) : Except ReadFault (List UInt8) :=
  if path.toList.contains '\x00' then .error .impossibleName
  else if path = "" then .error .noSuchFile
  else if 4096 ≤ path.utf8ByteSize then .error .nameTooLong
  else
    files.walk (if hasLead ['/'] path.toList then .above else .inside [])
      (pieces '/' path.toList)

end Files

end RichText
