import Speculation.Bailout.Arguments
import Speculation.Bailout.Inspection
import Speculation.Bailout.Replacement

/-!
# Running optimized code

Installing optimized code, leaving and entering it, looking into its frames, and giving it up.
Code that was given up stays in the registry until no frame runs it any more.
-/

namespace Speculation

/-- Where execution goes on after a bailout. -/
structure Resumption where
  /-- The frames that are now on top of the stack, outermost first. -/
  frames : List Frame
deriving Repr, Inhabited

namespace Resumption

def innermost? (r : Resumption) : Option Frame := r.frames.getLast?

/-- Where control goes once the frames are on the stack. -/
def continuation (r : Resumption) : Option Nat := r.innermost?.bind fun f => f.continuation

/-- Where the innermost frame resumes. -/
def pc (r : Resumption) : Nat := (r.innermost?.map fun f => f.pc).getD 0

def state (r : Resumption) : ResumeState := (r.innermost?.map fun f => f.state).getD .noRegisters

end Resumption

namespace Engine

/-! ### Code -/

/-- Adds a code object. -/
def addCode (e : Engine) (c : Code) : CodeId × Engine :=
  let (id, codeSpace) := e.codeSpace.add c
  (id, { e with codeSpace })

/-- Gives a function its unoptimized code and makes a closure of it. -/
def compileBaseline (shared : SharedId) (size : Nat) (points : ResumeTable) :
    Action (ObjectId × CodeId) := do
  let e ← get
  let (code, e) := e.addCode (.unoptimized shared size points)
  set { e with heap := e.heap.modifyShared shared fun s => { s with code := some code } }
  return (← onHeap (Heap.newFunction shared), code)

/-- Makes a function run optimized code, unless it must not be optimized any more. -/
def installCode (e : Engine) (function : ObjectId) (code : CodeId) : Bool × Engine :=
  match e.heap.functionData? (.object function) with
  | none => (false, e)
  | some d =>
    if (e.heap.sharedInfo d.shared).optimizationDisabled then (false, e)
    else
      (true,
        { e with
          heap := e.heap.setFunctionCode function (some code)
          optimized :=
            if e.optimized.contains function then e.optimized else e.optimized ++ [function] })

/-! ### Leaving and entering optimized code -/

/-- The frame on top of the stack. -/
def topFrame (empty : Refusal) : Action Frame := do
  match (← get).stack.top? with
  | some f => return f
  | none => throw (.refused empty)

/-- Puts the frames of a bailout in place of the frame on top of the stack. -/
def resume (b : Bailout) : Action Resumption := do
  modify fun e => { e with stack := e.stack.replaceTop b.frames }
  return ⟨b.frames⟩

/-- Replaces the optimized frame on top of the stack by its unoptimized frames. -/
def deoptimize (r : BailoutRequest) : Action Resumption := do
  let input ← topFrame .deoptimizeEmptyStack
  let b ← beginBailout r input
  let b ← b.rebuild
  let b ← b.materialize
  resume b

/-- Replaces the interpreted frame on top of the stack by a frame of the function's optimized
code. -/
def replaceOnStack (function : Value) : Action Resumption := do
  let input ← topFrame .replaceEmptyStack
  let b ← beginBailout { reason := .osr, function := some function, address := input.pc } input
  let b ← b.rebuild
  resume b

/-- The view of the `k`th function frame inside the optimized frame on top of the stack. -/
def inspect (k : Nat) : Action FrameView := do
  inspectFrame (← topFrame .inspectEmptyStack) k

/-- The arguments of the `k`th function inside the optimized frame on top of the stack. -/
def inlinedArguments (k formals : Nat) : Action (List Value) := do
  argumentsInFrame (← topFrame .argumentsOfEmptyStack) k formals

/-! ### Giving code up -/

/-- Gives up the optimized code of a function, which goes back to its unoptimized code. -/
def deoptimizeFunction (e : Engine) (function : Value) : Option CodeHandle × Engine :=
  match function.objectId?, e.heap.functionData? function with
  | some id, some d =>
    match d.code with
    | none => (none, e)
    | some code =>
      if (e.codeSpace.get code).isOptimized then
        let shared := e.heap.sharedInfo d.shared
        let (handle, registry) := e.registry.insert code
        let e := { e with
          heap := e.heap.setFunctionCode id shared.code
          optimized := e.optimized.filter fun f => f ≠ id
          codeSpace := e.codeSpace.modify code fun c => { c with markedForDeoptimization := true }
          registry }
        let e :=
          if e.config.traceDeopt then
            e.log .bailout s!"[deoptimize marked code in {shared.name}: {code.text}]"
          else e
        (some handle, e)
      else (none, e)
  | _, _ => (none, e)

/-- Gives up the optimized code of functions, one after the other. -/
def deoptimizeEach (e : Engine) : List ObjectId → List CodeHandle × Engine
  | [] => ([], e)
  | f :: rest =>
    let (handle, e) := e.deoptimizeFunction (.object f)
    let (handles, e) := e.deoptimizeEach rest
    (handle.toList ++ handles, e)

/-- Gives up the optimized code of all functions that satisfy a test. -/
def deoptimizeWhere (e : Engine) (test : Heap → Value → Bool) : List CodeHandle × Engine :=
  e.deoptimizeEach (e.optimized.filter fun f => test e.heap (.object f))

/-- Gives up all optimized code. -/
def deoptimizeAll (e : Engine) : List CodeHandle × Engine := e.deoptimizeWhere fun _ _ => true

/-- Whether the current code of a function depends on a shape. -/
def dependsOn (e : Engine) (shape : ShapeId) (function : ObjectId) : Bool :=
  match e.currentCode? (some (.object function)) with
  | some c => (e.codeSpace.get c).dependentShapes.contains shape
  | none => false

/-- Gives up everything that depends on a shape: entries of the stub cache and optimized code. -/
def invalidateShape (e : Engine) (shape : ShapeId) : List CodeHandle × Engine :=
  let (evicted, stubCache) := e.stubCache.evictShape shape
  let e := { e with stubCache }
  let e :=
    if e.config.traceDeopt then
      e.log .bailout
        s!"[shape {shape.text} invalidated: {evicted} stub cache entries evicted]"
    else e
  e.deoptimizeEach (e.optimized.filter (e.dependsOn shape))

/-- Forgets code that no frame runs any more. -/
def forgetCode (e : Engine) (handle : CodeHandle) : Bool × Engine :=
  let (known, registry) := e.registry.drop handle
  (known, { e with registry })

end Engine

end Speculation
