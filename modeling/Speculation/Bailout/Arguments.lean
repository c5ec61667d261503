import Speculation.Bailout.Basic

/-!
# Arguments of inlined functions

A function that was inlined has no frame of its own, but its `arguments` must still work. The
recipe of the current bailout point says where each argument is. First the places are collected,
then the values are read, which may box numbers.
-/

namespace Speculation

/-- Where an argument of an inlined function is. -/
inductive ArgumentPlace where
  | tagged (offset : Nat)
  | int32 (offset : Nat)
  | uint32 (offset : Nat)
  | double (offset : Nat)
  | literal (value : Value)
deriving DecidableEq, Repr, Inhabited

namespace ArgumentPlace

/-- The place that a command names. At a call no argument is in a register. -/
def ofCommand (data : BailoutData) (frame : Frame) (c : Command) : Except Fault ArgumentPlace := do
  match c with
  | .stackSlot i => return .tagged (← frame.offsetOfIndex i.toInt)
  | .int32StackSlot i => return .int32 (← frame.offsetOfIndex i.toInt)
  | .uint32StackSlot i => return .uint32 (← frame.offsetOfIndex i.toInt)
  | .doubleStackSlot i => return .double (← frame.offsetOfIndex i.toInt)
  | .literal i => return .literal (← data.literal i.toNat)
  | _ => throw (.violated (.notAnArgument c))

/-- The places named by the next `n` commands. -/
def next (data : BailoutData) (frame : Frame) : Nat → Cursor.Reader (List ArgumentPlace)
  | 0 => return []
  | n + 1 => do
    let p ← ofCommand data frame (← Cursor.nextCommand)
    let ps ← next data frame n
    return p :: ps

/-- The places of `n` arguments behind the receiver. -/
def behindReceiver (data : BailoutData) (frame : Frame) (n : Nat) :
    Cursor.Reader (List ArgumentPlace) := do
  let o ← Cursor.nextOpcode
  Cursor.skip o.arity
  next data frame n

/-- Looks for the `toSkip`th function frame, in at most `fuel` commands. An adaptor frame right
before it has the actual arguments. -/
def search (data : BailoutData) (frame : Frame) (wanted formals : Nat) :
    Nat → Nat → Cursor.Reader (List ArgumentPlace)
  | 0, _ => Cursor.violate (.recipeEndsBeforeInlined wanted)
  | fuel + 1, toSkip => do
    if (← get).hasNext then
      let o ← Cursor.nextOpcode
      match o, toSkip with
      | .argumentsAdaptorFrame, 0 =>
        match ← Cursor.operandsOf o with
        | .argumentsAdaptorFrame _ height => behindReceiver data frame (height.toNat - 1)
        | c => Cursor.violate (.notAnArgument c)
      | .jsFrame, 0 =>
        Cursor.skip o.arity
        behindReceiver data frame formals
      | .jsFrame, n + 1 =>
        Cursor.skip o.arity
        search data frame wanted formals fuel n
      | _, n =>
        Cursor.skip o.arity
        search data frame wanted formals fuel n
    else Cursor.violate (.recipeEndsBeforeInlined wanted)

/-- The places of the arguments of the `k`th function frame of a recipe. -/
def ofRecipe (data : BailoutData) (frame : Frame) (k formals : Nat) :
    Cursor.Reader (List ArgumentPlace) := do
  match ← Cursor.nextCommand with
  | .begin _ jsFrames =>
    if k < jsFrames.toNat then search data frame k formals ((← get).rest.length + 1) k
    else Cursor.violate (.inlinedFrameOutOfRange k jsFrames.toNat)
  | c => Cursor.violate (.recipeWithoutBegin c)

/-- The integer in a word of the frame. -/
def integerAt (frame : Frame) (offset : Nat) : Except Fault Int := do
  match ← frame.slot offset with
  | .int i => return i
  | w => throw (.violated (.integerSlotHolds offset w))

/-- The value at a place; untagged numbers are boxed. -/
def value (frame : Frame) : ArgumentPlace → Heap.Action Value
  | tagged o => do
    match ← frame.slot o with
    | .tagged v => return v
    | w => throw (.violated (.taggedSlotHolds o w))
  | int32 o => do Heap.newNumber (Double.ofInt (wrapInt32 (← integerAt frame o)))
  | uint32 o => do Heap.newNumber (Double.ofInt (wrapUint32 (← integerAt frame o)))
  | double o => do
    match ← frame.slot o with
    | .double d => Heap.newNumber d
    | w => throw (.violated (.doubleSlotHolds o w))
  | literal v => return v

/-- The values at places, in order. -/
def values (frame : Frame) : List ArgumentPlace → Heap.Action (List Value)
  | [] => return []
  | p :: rest => do
    let v ← p.value frame
    let vs ← values frame rest
    return v :: vs

end ArgumentPlace

namespace Engine

/-- The arguments of the `k`th function inside an optimized frame. -/
def argumentsInFrame (frame : Frame) (k formals : Nat) : Action (List Value) := do
  let e ← get
  match e.codeSpace.find? frame.pc with
  | none => throw (.refused (.noCodeAt frame.pc))
  | some c =>
    let code := e.codeSpace.get c
    let data ← code.bailoutData
    match data.entryAtPc? (frame.pc - code.start) with
    | none => throw (.refused (.notBailoutPoint frame.pc))
    | some index =>
      let entry ← data.entry index
      let (places, _) :=
        ArgumentPlace.ofRecipe data frame k formals (Cursor.start data.recipes entry.recipe)
      let places ← places
      onHeap (ArgumentPlace.values frame places)

end Engine

end Speculation
