/-
# The program

A call from beginning to end: what is written, what is complained about, and
the exit code.

Key definitions: `Report`, `Report.ofCall`.
-/
import RichText.Dump.CommandLine
import RichText.Dump.Run

namespace RichText

/-- What a call comes to. -/
structure Report where
  output : String := ""
  complaint : Option String := none
  exitCode : Nat := 0
deriving DecidableEq, Repr

namespace Report

/-- The report of a failure. -/
def ofFailure (e : Failure) : Report :=
  { complaint := some ("style-dump: " ++ e.message), exitCode := e.exitCode }

/-- The report of a call with the given arguments. -/
def ofCall {m : Type → Type} [Monad m] (read : ReadFile m) (arguments : List String) :
    m Report := do
  match CommandLine.Invocation.ofArguments arguments with
  | .help => return { output := CommandLine.helpText }
  | .wrong e => return .ofFailure e
  | .dump options _ =>
    match ← (dump read options).run with
    | .ok output => return { output }
    | .error e => return .ofFailure e

end Report

end RichText
