import Speculation.Tool.Basic

/-!
# The program

Reads the configuration file, if the arguments name one, and writes what the tool says.
-/

namespace Speculation

/-- The system's text for a file that cannot be read. -/
def fileErrorText : IO.Error → String
  | .noFileOrDirectory _ code _ => s!"No such file or directory (os error {code})"
  | .permissionDenied _ code _ => s!"Permission denied (os error {code})"
  | e => toString e

/-- The contents of a file, or why it cannot be read. -/
def readText (path : String) : IO (Except String String) := do
  try return .ok (← IO.FS.readFile path)
  catch e => return .error (fileErrorText e)

end Speculation

open Speculation in
/-- Runs the tool on the arguments of the process. -/
def main (args : List String) : IO UInt32 := do
  let path := match Tool.parse args with
    | .run i => i.config
    | _ => none
  let contents ← match path with
    | some p => readText p
    | none => pure (.ok "")
  let out := Tool.run args fun _ => contents
  IO.print out.stdout
  if out.stderr ≠ "" then IO.eprintln out.stderr
  return out.code.toUInt32
