import Speculation.Bailout.Basic

/-!
# Allocating what had to wait

After the frames are rebuilt, numbers are boxed and arguments objects allocated, and both replace
their placeholders. Numbers come first, so that arguments taken from an adaptor frame are complete.
A frame gets at most one arguments object, whichever of its slots ask for it; if an adaptor frame
stands right before it, that has the actual arguments.
-/

namespace Speculation

/-- The value in a word of a rebuilt frame. -/
def Word.rebuilt (w : Word) : Except Fault Value :=
  match w with
  | .tagged v => .ok v
  | _ => .error (.violated (.untaggedFrameWord w))

/-- The values of the first `n` parameters of a frame, from parameter `i` on. -/
def Frame.parametersFrom (f : Frame) : Nat → Nat → Except Fault (List Value)
  | 0, _ => .ok []
  | n + 1, i => do
    let v ← (← f.parameter i).rebuilt
    let vs ← f.parametersFrom n (i + 1)
    return v :: vs

/-- The values of all parameters of a frame. -/
def Frame.parameterValues (f : Frame) : Except Fault (List Value) :=
  f.parametersFrom f.parameterCount 0

namespace Bailout

/-- The frame with an index. -/
def frame (b : Bailout) (i : Nat) : Frame := b.frames.getD i default

/-- Writes a tagged word of a frame. -/
def putValue (b : Bailout) (frame offset : Nat) (v : Value) : Bailout :=
  { b with frames := b.frames.modify frame fun f => f.write offset (.tagged v) }

/-- The frame right before another one, if it adapts arguments. -/
def adaptorBefore? (b : Bailout) (i : Nat) : Option Frame :=
  match i with
  | 0 => none
  | j + 1 => (b.frames[j]?).filter fun f => f.type == .argumentsAdaptor

/-- Boxes a number. -/
def fillNumber (b : Bailout) (d : DeferredNumber) : Engine.Action Bailout := do
  let v ← Engine.onHeap (Heap.newNumber d.value)
  let address := (b.frame d.frame).addressOf d.offset
  b.say .bailout (s!"Materializing a new heap number {v.display} [{d.value.display}] in slot "
    ++ hexText address)
  return b.putValue d.frame d.offset v

/-- Boxes all numbers. -/
def fillNumbers (b : Bailout) : List DeferredNumber → Engine.Action Bailout
  | [] => return b
  | d :: rest => do (← b.fillNumber d).fillNumbers rest

/-- Allocates the arguments object of a frame. -/
def newArgumentsFor (b : Bailout) (d : DeferredArguments) : Engine.Action Value := do
  let f := b.frame d.frame
  let adaptor := b.adaptorBefore? d.frame
  let values ← match adaptor with
    | some a => (liftM a.parameterValues : Engine.Action (List Value))
    | none => pure d.values
  let id ← Engine.onHeap (Heap.newArguments (f.function.getD .undefined) values false)
  let how := if adaptor.isSome then "(adapted) " else ""
  b.say .bailout (s!"Materializing {how}arguments object of length {values.length} for "
    ++ hexText (f.addressOf d.offset))
  return .object id

/-- Allocates all arguments objects; `made` has those of the frames done so far. -/
def fillArguments (b : Bailout) (made : Table Nat Value) :
    List DeferredArguments → Engine.Action Bailout
  | [] => return b
  | d :: rest => do
    match made.get? d.frame with
    | some v => (b.putValue d.frame d.offset v).fillArguments made rest
    | none =>
      let v ← b.newArgumentsFor d
      (b.putValue d.frame d.offset v).fillArguments (made.insert d.frame v) rest

/-- Replaces all placeholders. -/
def materialize (b : Bailout) : Engine.Action Bailout := do
  if b.reason = .debugger then throw (.violated .materializeForDebugger)
  else (← b.fillNumbers b.numbers).fillArguments {} b.arguments

end Bailout

end Speculation
