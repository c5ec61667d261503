import Speculation.Bailout.Assembly
import Speculation.Engine.Basic

/-!
# Bailouts

A bailout replaces the optimized frame on top of the stack by the unoptimized frames that its
recipe describes. It is begun from a `BailoutRequest`, which also counts it against the
function: a function that bails out too often is never optimized again. `Bailout.rebuild` then
computes the frames without changing anything, and `Bailout.materialize`, in the next module,
allocates what had to wait.
-/

namespace Speculation

/-- What is known when a bailout is asked for. -/
structure BailoutRequest where
  reason : BailoutReason
  /-- The optimized function; `none` for compiled stubs. -/
  function : Option Value
  /-- The bailout point. -/
  entry : Nat := 0
  /-- The return address, which locates the code of lazy bailouts. -/
  address : Nat := 0
  /-- The code to leave, if it is not the function's current code. -/
  code : Option CodeId := none
deriving DecidableEq, Repr, Inhabited

/-- A bailout in progress. -/
structure Bailout where
  reason : BailoutReason
  function : Option Value
  code : CodeId
  entry : Nat
  /-- The optimized frame. -/
  input : Frame
  traced : Bool
  /-- The rebuilt frames, outermost first. -/
  frames : List Frame := []
  /-- How many frames the recipe announces. -/
  frameCount : Nat := 0
  jsFrames : Nat := 0
  numbers : List DeferredNumber := []
  arguments : List DeferredArguments := []
deriving Repr, Inhabited

/-- The name of a function in traces. -/
def Heap.functionName (h : Heap) (f : Option Value) : String :=
  match f.bind h.functionShared? with
  | some s => s.name
  | none => "<stub>"

namespace Engine

/-- Writes lines of the trace. -/
def logAll (e : Engine) (channel : Channel) (lines : List String) : Engine :=
  { e with trace := e.trace ++ lines.map fun text => ⟨channel, text⟩ }

/-- Counts a bailout of a function. -/
def countBailout (e : Engine) (function : Value) : Engine :=
  match e.heap.functionData? function with
  | none => e
  | some d =>
    let count (s : SharedInfo) : SharedInfo :=
      { s with
        deoptCount := s.deoptCount + 1
        optimizationDisabled :=
          s.optimizationDisabled || decide (e.config.maxDeoptCount ≤ s.deoptCount + 1) }
    { e with heap := e.heap.modifyShared d.shared count }

/-- The code that the frame of a function without further information runs. -/
def currentCode? (e : Engine) (function : Option Value) : Option CodeId :=
  (function.bind e.heap.functionData?).bind fun d => d.code

/-- The code that a bailout leaves. Code that was given up is looked for first when the bailout is
lazy. -/
def codeToLeave? (e : Engine) (r : BailoutRequest) (function : Option Value) : Option CodeId :=
  match r.code with
  | some c => some c
  | none =>
    match r.reason with
    | .eager | .osr => e.currentCode? function
    | .lazy => (e.registry.find? e.codeSpace r.address).or (e.codeSpace.find? r.address)
    | .debugger => none

/-- Whether bailouts for a reason are traced. -/
def tracesBailout (e : Engine) (reason : BailoutReason) : Bool :=
  if reason = .osr then e.config.traceOsr else e.config.traceDeopt

/-- Begins a bailout of a frame. -/
def beginBailout (r : BailoutRequest) (input : Frame) : Action Bailout := do
  let function := r.function.filter fun f => !f.isSmi
  match function with
  | some f => if r.reason = .eager || r.reason = .lazy then modify fun e => e.countBailout f
  | none => pure ()
  let e ← get
  let name := e.heap.functionName function
  match e.codeToLeave? r function with
  | none => throw (.violated (.noOptimizedCode r.reason name))
  | some code =>
    let traced := e.tracesBailout r.reason
    if traced then
      set (e.log .bailout
        (s!"**** {r.reason.banner}: {name} at bailout #{r.entry}, address {hexText r.address}, "
          ++ s!"frame size {input.size}"))
    return { reason := r.reason, function, code, entry := r.entry, input, traced }

end Engine

namespace Bailout

/-- Writes a line of the trace. -/
def say (b : Bailout) (channel : Channel) (text : String) : Engine.Action Unit :=
  if b.traced then modify fun e => e.log channel text else return

/-- Rebuilds the unoptimized frames. -/
def rebuildFrames (b : Bailout) : Engine.Action Bailout := do
  let e ← get
  let code := e.codeSpace.get b.code
  let data ← code.bailoutData
  let entry ← data.entry b.entry
  let name := e.heap.functionName b.function
  let how := if b.reason = .lazy then " (lazy)" else ""
  b.say .bailout s!"[deoptimizing{how}: begin {name} @{b.entry}]"
  let scene : Scene :=
    { heap := e.heap, codeSpace := e.codeSpace, reason := b.reason, code, data
      input := b.input, traced := b.traced }
  let (count, a) := Assembly.run scene { cursor := .start data.recipes entry.recipe }
  modify fun e => e.logAll .bailout a.trace
  let count ← count
  match a.frames.getLast? with
  | none => pure ()
  | some f =>
    let name := e.heap.functionName f.function
    b.say .bailout (s!"[deoptimizing: end {name} => node={entry.node.text}, "
      ++ s!"pc={hexText f.pc}, state={f.state.name}]")
  return { b with
    frames := a.frames, frameCount := count, jsFrames := a.jsFrames
    numbers := a.numbers, arguments := a.arguments }

end Bailout

end Speculation
