/-
# The command

Reads files, writes what the call comes to, and exits.
-/
import RichText.Dump.Program

open RichText

/-- Why a file could not be read. -/
def faultOf : IO.Error → ReadFault
  | .noFileOrDirectory _ _ _ => .noSuchFile
  | .inappropriateType _ code _ => if code = 21 then .isADirectory else .notADirectory
  | .permissionDenied _ _ _ => .failed "Permission denied (os error 13)"
  | e => .failed (toString e)

/-- The bytes of a file. -/
def readFile (path : String) : IO (Except ReadFault (List UInt8)) := do
  try
    return .ok (← IO.FS.readBinFile path).toList
  catch e =>
    return .error (faultOf e)

def main (arguments : List String) : IO UInt32 := do
  let report ← Report.ofCall readFile arguments
  (← IO.getStdout).putStr report.output
  match report.complaint with
  | some complaint => IO.eprintln complaint
  | none => pure ()
  return UInt32.ofNat report.exitCode
