import Speculation.Code.Basic

/-!
# Recovered values

What a value command of a recipe stands for, given the optimized frame it reads. Unoptimized
frames hold only tagged values, so numbers that optimized code keeps untagged become small
integers if they are; the others, and arguments objects, have to be allocated, which must wait
until all frames are rebuilt. Until then a placeholder stands in their slot.
-/

namespace Speculation

/-- A value for a slot of an unoptimized frame. -/
inductive Recovered where
  | tagged (value : Value)
  /-- A number that needs a box. -/
  | number (value : Double)
  /-- An arguments object with these values. -/
  | arguments (values : List Value)
deriving DecidableEq, Repr, Inhabited

namespace Recovered

/-- An integer: small if it fits, otherwise a number that needs a box. -/
def ofInt (i : Int) : Recovered :=
  match Value.smi? i with
  | some v => tagged v
  | none => number (Double.ofInt i)

/-- What stands in the slot until the value is allocated. -/
def placeholder : Recovered → Value
  | tagged v => v
  | number _ => .smi 0
  | arguments _ => .argumentsMarker

/-- The text of a value in a trace, with `source` the command it comes from. -/
def traceText (source : String) : Recovered → String
  | tagged v => s!"{v.display} ; {source}"
  | number d => s!"{d.display} ; {source} (heap number)"
  | arguments vs => s!"arguments marker ; {source} ({vs.length} values)"

end Recovered

namespace Command

/-- The tagged value in a word that a command reads. -/
def tagged (c : Command) (w : Word) : Except Fault Value :=
  match w with
  | .tagged v => .ok v
  | _ => .error (.violated (.notTagged c w))

/-- The integer in a word that a command reads. -/
def integer (c : Command) (w : Word) : Except Fault Int :=
  match w with
  | .int i => .ok i
  | _ => .error (.violated (.notInteger c w))

/-- The double in a word that a command reads. -/
def double (c : Command) (w : Word) : Except Fault Double :=
  match w with
  | .double d => .ok d
  | _ => .error (.violated (.notDouble c w))

/-- The word at a slot index. -/
def slotWord (input : Frame) (index : Int) : Except Fault Word := do
  input.slot (← input.offsetOfIndex index)

/-- Tagged values from `n` consecutive slot indices. -/
def taggedSlots (c : Command) (input : Frame) : Nat → Int → Except Fault (List Value)
  | 0, _ => .ok []
  | n + 1, index => do
    let v ← c.tagged (← slotWord input index)
    let vs ← taggedSlots c input n (wrapInt32 (index + 1))
    return v :: vs

/-- The arguments of an arguments object. Index and length count the receiver, which is not among
them; arguments whose places are not known are holes. -/
def argumentValues (c : Command) (input : Frame) (known : Bool) (index : Int32)
    (length : UInt32) : Except Fault (List Value) :=
  let n := length.toNat - 1
  if known then c.taggedSlots input n (wrapInt32 (index.toInt + 1))
  else .ok (List.replicate n .hole)

/-- What a command stands for in output frame `frame`. -/
def recover (data : BailoutData) (input : Frame) (frame : Nat) (c : Command) :
    Except Fault Recovered := do
  match c with
  | register r => return .tagged (← c.tagged (← input.registers.word r.toNat))
  | int32Register r =>
    return .ofInt (wrapInt32 (← c.integer (← input.registers.word r.toNat)))
  | uint32Register r =>
    return .ofInt (wrapUint32 (← c.integer (← input.registers.word r.toNat)))
  | doubleRegister r => return .number (← input.registers.double r.toNat)
  | stackSlot i => return .tagged (← c.tagged (← slotWord input i.toInt))
  | int32StackSlot i => return .ofInt (wrapInt32 (← c.integer (← slotWord input i.toInt)))
  | uint32StackSlot i => return .ofInt (wrapUint32 (← c.integer (← slotWord input i.toInt)))
  | doubleStackSlot i => return .number (← c.double (← slotWord input i.toInt))
  | literal i => return .tagged (← data.literal i.toNat)
  | argumentsObject known index length =>
    return .arguments (← c.argumentValues input known index length)
  | _ => throw (.violated (.notAValue c frame))

end Command

end Speculation
