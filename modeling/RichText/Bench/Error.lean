/-
# Errors of benchmarks

Key definitions: `BenchError`, `BenchError.message`.
-/
import RichText.Document.Error

namespace RichText

inductive BenchError where
  | read (fault : ReadFault)
  /-- A file that holds no results. -/
  | malformedResults
  | style (error : StyleError)
  | document (error : DocumentError)
deriving DecidableEq, Repr

def BenchError.message : BenchError → String
  | read fault => s!"IO error: {fault.message}"
  | malformedResults => "Malformed results file"
  | style error => s!"Stylesheet error: {error.message}"
  | document error => s!"Document error: {error.message}"

end RichText
