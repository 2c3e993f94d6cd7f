/-
# Failures of a program

Why a program that works on documents and stylesheets gives up: the category
it reports, the code it exits with, and the error behind it if there is one.

Key definitions: `Stage`, `Cause`, `Failure`, `Failure.message`,
`Failure.category`, `Failure.exitCode`, `Failure.cause?`.
-/
import RichText.Document.Error

namespace RichText

/-- The part of the work that an input belongs to. -/
inductive Stage where
  | css
  | document
deriving DecidableEq, Repr

namespace Stage

/-- The word for a stage in reports. -/
def category : Stage → String
  | css => "css"
  | document => "document"

/-- The word for a stage in messages. -/
def title : Stage → String
  | css => "CSS"
  | document => "Document"

end Stage

/-- The error behind a failure. -/
inductive Cause where
  | read (fault : ReadFault)
  | style (error : StyleError)
  | document (error : DocumentError)
deriving DecidableEq, Repr

def Cause.message : Cause → String
  | read fault => fault.message
  | style error => error.message
  | document error => error.message

inductive Failure where
  /-- A stage failed; the context says what was at work. -/
  | failed (stage : Stage) (context : String) (cause : Option Cause)
  | read (fault : ReadFault)
  | notFound (what : String)
  | invalidArgument (what : String)
  /-- The program itself is wrong. -/
  | internal (what : String)
deriving DecidableEq, Repr

namespace Failure

def message : Failure → String
  | failed stage context _ => s!"{stage.title} error: {context}"
  | read fault => s!"IO error: {fault.message}"
  | notFound what => s!"Not found: {what}"
  | invalidArgument what => s!"Invalid argument: {what}"
  | internal what => s!"Internal error: {what}"

/-- A word for reports. -/
def category : Failure → String
  | failed stage _ _ => stage.category
  | read _ => "io"
  | notFound _ => "not_found"
  | invalidArgument _ => "invalid_argument"
  | internal _ => "internal"

/-- The exit code: 2 for a wrong call, 3 for a missing input, 4 for a bad one,
70 for an error of the program. -/
def exitCode : Failure → Nat
  | invalidArgument _ => 2
  | read _ | notFound _ => 3
  | failed _ _ _ => 4
  | internal _ => 70

def stage? : Failure → Option Stage
  | failed stage _ _ => some stage
  | _ => none

def cause? : Failure → Option Cause
  | failed _ _ cause => cause
  | read fault => some (.read fault)
  | _ => none

/-- The value, or the failure of a stage. -/
def ofCause {ε α : Type} (stage : Stage) (context : String) (cause : ε → Cause) :
    Except ε α → Except Failure α
  | .ok v => .ok v
  | .error e => .error (.failed stage context (some (cause e)))

/-- The value, or that there is none. -/
def ofOption {α : Type} (what : String) : Option α → Except Failure α
  | some v => .ok v
  | none => .error (.notFound what)

end Failure

end RichText
