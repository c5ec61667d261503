/-!
# The command line

What the tool is asked to do. Options stand before or after the task, and each may be given once
on either side; a configuration named behind the task wins over one named before it.
-/

namespace Speculation.Tool

/-- The scenarios that can be shown. -/
inductive Scenario where
  /-- A named load that goes monomorphic, then megamorphic. -/
  | namedLoad
  /-- A keyed store that widens the elements kind of an array. -/
  | keyedStore
  /-- An eager bailout of an optimized frame. -/
  | bailout
  /-- On-stack replacement, once accepted and once abandoned. -/
  | replacement
deriving DecidableEq, Repr, Inhabited

def Scenario.ofName? : String → Option Scenario
  | "ic" => some .namedLoad
  | "keyed" => some .keyedStore
  | "deopt" => some .bailout
  | "osr" => some .replacement
  | _ => none

/-- What to do. -/
inductive Task where
  /-- Lists the commands of a recipe given in hex. -/
  | disassemble (hex : String)
  | demo (scenario : Scenario)
deriving DecidableEq, Repr, Inhabited

/-- A task with the file that configures it. -/
structure Invocation where
  task : Task
  config : Option String := none
deriving DecidableEq, Repr, Inhabited

/-- What the arguments ask for. -/
inductive Request where
  | run (i : Invocation)
  | version
  | help
  /-- The arguments make no sense. -/
  | misuse
deriving DecidableEq, Repr, Inhabited

/-- The value of `--config=value`. -/
def inlineConfig? (arg : String) : Option String :=
  if arg.startsWith "--config=" then some (arg.drop 9).toString else none

/-- Whether an argument can be a value: it is not an option. -/
def isValue (arg : String) : Bool := arg == "-" || !arg.startsWith "-"

/-- What a cluster of one-letter options asks for; `none` if nothing beyond verbosity. -/
def cluster (version : Bool) : List Char → Option Request
  | [] => none
  | 'v' :: rest => cluster version rest
  | 'h' :: _ => some .help
  | 'V' :: _ => some (if version then .version else .misuse)
  | _ :: _ => some .misuse

/-- The outcome of one step over the arguments on one side of the task. -/
inductive Scan where
  /-- The next positional argument, what follows it, and the configuration so far. -/
  | positional (arg : String) (rest : List String) (config : Option String)
  /-- The marker behind which everything is positional. -/
  | literally (rest : List String) (config : Option String)
  | finished (config : Option String)
  | stopped (r : Request)

/-- Passes over options up to the next positional argument. -/
def scan (version : Bool) (config : Option String) : List String → Scan
  | [] => .finished config
  | ["--config"] => .stopped .misuse
  | arg :: next :: rest =>
    if arg = "--config" then
      if config.isNone && isValue next && !next.isEmpty then scan version (some next) rest
      else .stopped .misuse
    else option version config arg (next :: rest) (scan version · (next :: rest))
  | [arg] => option version config arg [] (scan version · [])
where
  /-- Handles an argument that is not `--config` with a separate value. -/
  option (version : Bool) (config : Option String) (arg : String) (rest : List String)
      (onward : Option String → Scan) : Scan :=
    if arg = "--" then .literally rest config
    else if isValue arg then .positional arg rest config
    else if arg = "--verbose" then onward config
    else if arg = "--help" then .stopped .help
    else if arg = "--version" then .stopped (if version then .version else .misuse)
    else
      match inlineConfig? arg with
      | some path =>
        if config.isNone && !path.isEmpty then onward (some path) else .stopped .misuse
      | none =>
        if arg.startsWith "--" then .stopped .misuse
        else
          match cluster version (arg.toList.drop 1) with
          | some r => .stopped r
          | none => onward config

/-- What remains behind the only positional argument of a task. -/
def finish (outer : Option String) (task : Task) (config : Option String) (rest : List String) :
    Request :=
  match scan false config rest with
  | .finished config | .literally [] config => .run { task, config := config.or outer }
  | .stopped r => r
  | _ => .misuse

/-- The arguments of a task that takes one positional argument. -/
def taskArguments (outer : Option String) (read : String → Option Task) (args : List String) :
    Request :=
  match scan false none args with
  | .positional arg rest config =>
    match read arg with
    | some task => finish outer task config rest
    | none => .misuse
  | .literally [arg] config =>
    match read arg with
    | some task => .run { task, config := config.or outer }
    | none => .misuse
  | .stopped r => r
  | _ => .misuse

/-- What the arguments ask for. -/
def parse (args : List String) : Request :=
  match scan true none args with
  | .positional "disasm" rest config => taskArguments config (some ∘ .disassemble) rest
  | .positional "demo" rest config =>
    taskArguments config (fun s => (Scenario.ofName? s).map .demo) rest
  | .positional "help" rest _ =>
    match rest with
    | [] | ["disasm"] | ["demo"] | ["help"] => .help
    | _ => .misuse
  | .stopped r => r
  | _ => .misuse

end Speculation.Tool
