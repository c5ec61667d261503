import Speculation.Tool.Demo
import Speculation.Tool.Disassembly

/-!
# The tool

What the tool writes and with which code it exits, as a function of its arguments and of the
contents of the configuration file.
-/

namespace Speculation

/-- The class of a fault, followed by its message. -/
def Fault.report (f : Fault) : String :=
  match f.className? with
  | some c => s!"{c}: {f.message}"
  | none => f.message

namespace Tool

/-- What the tool leaves behind. -/
structure Output where
  code : Nat
  stdout : String := ""
  stderr : String := ""
deriving DecidableEq, Repr, Inhabited

namespace Output

/-- A run that printed lines and then failed or not. -/
def ofLines (lines : List String) (fault : Option Fault) : Output :=
  let stdout := String.join (lines.map (· ++ "\n"))
  match fault with
  | none => { code := 0, stdout }
  | some f =>
    if f.isTerminal then { code := 101, stdout, stderr := f.report }
    else { code := 1, stdout, stderr := s!"Error: {f.report}" }

/-- A configuration file that cannot be used, with the chain of reasons. -/
def badConfig (path : String) (reasons : List String) : Output :=
  let numbered := match reasons with
    | [r] => [s!"    {r}"]
    | rs => rs.zipIdx.map fun p => s!"    {p.2}: {p.1}"
  { code := 1
    stderr := s!"Error: loading configuration from '{path}'\n\nCaused by:\n" ++
      "\n".intercalate numbered }

end Output

/-- The name and version of the tool. -/
def versionText : String := "bailout 0.1.0"

/-- How the tool is used. -/
def helpText : String :=
  "Inline caches and deoptimization, one scenario at a time\n\n" ++
  "Usage: bailout [OPTIONS] <COMMAND>\n\nCommands:\n" ++
  "  disasm  Decode a translation byte stream given in hex\n" ++
  "  demo    Run a traced scenario\n"

/-- The configuration in a file, if one is named. -/
def loadConfig (file : String → Except String String) : Option String → Except Output Config
  | none => .ok {}
  | some path =>
    match file path with
    | .error os => .error (.badConfig path [s!"IOError: {os}", os])
    | .ok text =>
      match Config.parse text with
      | .ok c => .ok c
      | .error e => .error (.badConfig path [(Fault.config e).report])

/-- Performs a task. -/
def perform (c : Config) : Task → Output
  | .disassemble hex =>
    match disassemble hex with
    | .ok lines => .ofLines lines none
    | .error f => .ofLines [] (some f)
  | .demo scenario =>
    let c := { c with traceIc := true, traceDeopt := true, traceOsr := true }
    match scenario.play { engine := .ofConfig c } with
    | (.ok _, s) => .ofLines s.lines none
    | (.error f, s) => .ofLines s.lines (some f)

/-- Runs the tool, with `file` to read files. -/
def run (args : List String) (file : String → Except String String) : Output :=
  match parse args with
  | .version => { code := 0, stdout := versionText ++ "\n" }
  | .help => { code := 0, stdout := helpText }
  | .misuse => { code := 2 }
  | .run i =>
    match loadConfig file i.config with
    | .error out => out
    | .ok c => perform c i.task

end Tool

end Speculation
