import Speculation.Recipe.Stream
import Speculation.Text.Hex

/-!
# Disassembly of recipes

A listing of the commands of a recipe, one on a line. Frame commands stand at the margin and
value commands are indented, deeper once a frame is open.
-/

namespace Speculation.Tool

/-- The indentation of a command, and whether a frame is open behind it. -/
def indentation (opened : Bool) (o : Opcode) : Nat × Bool :=
  if o = .begin then (0, false)
  else if o.opensFrame then (0, true)
  else (if opened then 4 else 2, opened)

/-- The lines of a listing. -/
def listing (opened : Bool) : List Command → List String
  | [] => []
  | c :: rest =>
    let (indent, opened) := indentation opened c.opcode
    ("".pushn ' ' indent ++ c.text) :: listing opened rest

/-- Lists the commands in a hex dump. -/
def disassemble (hex : String) : Except Fault (List String) := do
  match Hex.parse hex with
  | .error e => throw (.hex e)
  | .ok bytes =>
    match Recipe.decode bytes with
    | .error m => throw (.malformed m)
    | .ok commands => return listing false commands

end Speculation.Tool
