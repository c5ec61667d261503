import Speculation.Bailout.Materialize

/-!
# The debugger's view of an optimized frame

The frames of inlined functions do not exist on the stack. To show one of them, the debugger
rebuilds all frames of the optimized frame as a bailout would, reports one, and forgets the
rest; nothing else changes. Numbers are boxed only if they belong to what is shown, and arguments
objects are left as markers.
-/

namespace Speculation

/-- What the debugger shows of a function's frame. -/
structure FrameView where
  function : Value
  /-- The actual arguments, if the call adapted their number. -/
  parameters : List Value
  expressions : List Value
  hasAdaptor : Bool
  hasConstruct : Bool
  /-- Where the function would resume. -/
  pc : Nat
deriving DecidableEq, Repr, Inhabited

/-- The values of `n` words below the fixed part, from word `i` on. -/
def Frame.expressionsFrom (f : Frame) : Nat → Nat → Except Fault (List Value)
  | 0, _ => .ok []
  | n + 1, i => do
    let v ← (← f.expression i).rebuilt
    let vs ← f.expressionsFrom n (i + 1)
    return v :: vs

/-- The values of all words below the fixed part. -/
def Frame.expressionValues (f : Frame) : Except Fault (List Value) :=
  f.expressionsFrom f.expressionCount 0

/-- The place of the `k`th function frame among frames, the first of which has index `i`. -/
def jsFrameIndex? (k i : Nat) : List Frame → Option Nat
  | [] => none
  | f :: rest =>
    if f.type = .javaScript then
      match k with
      | 0 => some i
      | k + 1 => jsFrameIndex? k (i + 1) rest
    else jsFrameIndex? k (i + 1) rest

/-- Addresses of consecutive words; index zero is the one at the highest address. -/
structure SlotRange where
  top : Nat
  size : Nat
deriving DecidableEq, Repr

/-- The index of the word at an address. -/
def SlotRange.index? (r : SlotRange) (address : Nat) : Option Nat :=
  if r.top ≤ address ∧ address < r.top + r.size then some (r.size - 1 - (address - r.top))
  else none

namespace Bailout

/-- Whether the frame `distance` places before frame `i` has a type. -/
def precededBy (b : Bailout) (i distance : Nat) (type : FrameType) : Bool :=
  decide (distance ≤ i) && (b.frame (i - distance)).type == type

/-- The frame that has the arguments of frame `i`. -/
def argumentsFrame (b : Bailout) (i : Nat) : Frame :=
  if b.precededBy i 1 .argumentsAdaptor then b.frame (i - 1) else b.frame i

/-- The view of frame `i`, with placeholders. -/
def view (b : Bailout) (i : Nat) : Except Fault FrameView := do
  let f := b.frame i
  let adapted := b.precededBy i 1 .argumentsAdaptor
  let expressions ← f.expressionValues
  let parameters ← (b.argumentsFrame i).parameterValues
  return {
    function := f.function.getD .undefined
    parameters, expressions
    hasAdaptor := adapted
    hasConstruct := b.precededBy i (if adapted then 2 else 1) .construct
    pc := f.pc }

/-- The addresses of receiver and parameters in the view of frame `i`. -/
def parameterRange (b : Bailout) (i : Nat) (v : FrameView) : SlotRange :=
  let f := b.argumentsFrame i
  let size := v.parameters.length + 1
  ⟨f.top + f.size - size, size⟩

/-- The addresses of the expressions in the view of frame `i`. -/
def expressionRange (b : Bailout) (i : Nat) (v : FrameView) : SlotRange :=
  ⟨(b.frame i).top, v.expressions.length⟩

/-- Boxes a number for the view. -/
def showNumber (b : Bailout) (d : DeferredNumber) (address : Nat) (place : String) :
    Engine.Action Value := do
  let n ← Engine.onHeap (Heap.newNumber d.value)
  b.say .bailout (s!"Materializing a new heap number {n.display} [{d.value.display}] in slot "
    ++ s!"{hexText address} for {place}")
  return n

/-- Puts a number into the view if it is shown; the receiver is not. -/
def fillView (b : Bailout) (parameters expressions : SlotRange) (v : FrameView)
    (d : DeferredNumber) : Engine.Action FrameView := do
  let address := (b.frame d.frame).addressOf d.offset
  match parameters.index? address with
  | some 0 => return v
  | some (i + 1) =>
    let n ← b.showNumber d address s!"parameter slot #{i}"
    return { v with parameters := v.parameters.set i n }
  | none =>
    match expressions.index? address with
    | some i =>
      let n ← b.showNumber d address s!"expression slot #{i}"
      return { v with expressions := v.expressions.set i n }
    | none => return v

end Bailout

namespace Engine

/-- The view of the `k`th function frame inside an optimized frame. -/
def inspectFrame (frame : Frame) (k : Nat) : Action FrameView := do
  let e ← get
  match frame.function with
  | none => throw (.violated .inspectWithoutFunction)
  | some function =>
    match e.codeSpace.find? frame.pc with
    | none => throw (.violated (.inspectOutsideCode frame.pc))
    | some c =>
      let code := e.codeSpace.get c
      let data ← code.bailoutData
      match data.entryAtPc? (frame.pc - code.start) with
      | none => throw (.violated (.inspectBetweenPoints frame.pc))
      | some entry =>
        let b ← beginBailout
          { reason := .debugger, function := some function, entry, address := frame.pc
            code := some c } frame
        let b ← b.rebuildFrames
        match jsFrameIndex? k 0 b.frames with
        | none => throw (.violated (.jsFrameOutOfRange k b.jsFrames))
        | some i =>
          let v ← b.view i
          b.numbers.foldlM (b.fillView (b.parameterRange i v) (b.expressionRange i v)) v

end Engine

end Speculation
