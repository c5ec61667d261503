import Speculation.Power
import Speculation.Recipe.Opcode

/-!
# Commands of frame recipes

A `Command` is an opcode together with its operands, each in the type its meaning asks for:
counts, register numbers and literal indices are unsigned 32-bit words, slot indices are
signed ones. In the byte stream every operand is a signed 32-bit integer; `operands` and
`ofParts?` go back and forth between the two views.
-/

namespace Speculation

/-- Names a point of unoptimized code at which a frame can resume. -/
structure NodeId where
  value : UInt32
deriving DecidableEq, Repr, Inhabited

def NodeId.text (n : NodeId) : String := toString n.value.toNat

/-- One command of a recipe. -/
inductive Command where
  | begin (frames jsFrames : UInt32)
  | jsFrame (node : NodeId) (literal height : UInt32)
  | constructStubFrame (literal height : UInt32)
  | getterStubFrame (literal : UInt32)
  | setterStubFrame (literal : UInt32)
  | argumentsAdaptorFrame (literal height : UInt32)
  | compiledStubFrame
  | register (reg : UInt32)
  | int32Register (reg : UInt32)
  | uint32Register (reg : UInt32)
  | doubleRegister (reg : UInt32)
  | stackSlot (index : Int32)
  | int32StackSlot (index : Int32)
  | uint32StackSlot (index : Int32)
  | doubleStackSlot (index : Int32)
  | literal (index : UInt32)
  | argumentsObject (known : Bool) (index : Int32) (length : UInt32)
  | duplicate
deriving DecidableEq, Repr, Inhabited

/-- An unsigned word read as a signed integer of the same bits. -/
def signedWord (w : UInt32) : Int :=
  if w.toNat < 2 ^ 31 then (w.toNat : Int) else (w.toNat : Int) - 2 ^ 32

/-- The unsigned word with the residue of an integer modulo `2 ^ 32`. -/
def unsignedWord (i : Int) : UInt32 := UInt32.ofNat (i.emod (2 ^ 32)).toNat

/-- The unsigned word equal to an integer, if there is one. -/
def unsigned? (i : Int) : Option UInt32 :=
  if 0 ≤ i ∧ i < 2 ^ 32 then some (UInt32.ofNat i.toNat) else none

namespace Command

def opcode : Command → Opcode
  | begin _ _ => .begin
  | jsFrame _ _ _ => .jsFrame
  | constructStubFrame _ _ => .constructStubFrame
  | getterStubFrame _ => .getterStubFrame
  | setterStubFrame _ => .setterStubFrame
  | argumentsAdaptorFrame _ _ => .argumentsAdaptorFrame
  | compiledStubFrame => .compiledStubFrame
  | register _ => .register
  | int32Register _ => .int32Register
  | uint32Register _ => .uint32Register
  | doubleRegister _ => .doubleRegister
  | stackSlot _ => .stackSlot
  | int32StackSlot _ => .int32StackSlot
  | uint32StackSlot _ => .uint32StackSlot
  | doubleStackSlot _ => .doubleStackSlot
  | literal _ => .literal
  | argumentsObject _ _ _ => .argumentsObject
  | duplicate => .duplicate

/-- The operands in stream order, as signed 32-bit integers. -/
def operands : Command → List Int
  | begin a b => [signedWord a, signedWord b]
  | jsFrame n l h => [signedWord n.value, signedWord l, signedWord h]
  | constructStubFrame l h => [signedWord l, signedWord h]
  | getterStubFrame l => [signedWord l]
  | setterStubFrame l => [signedWord l]
  | argumentsAdaptorFrame l h => [signedWord l, signedWord h]
  | compiledStubFrame => []
  | register r => [signedWord r]
  | int32Register r => [signedWord r]
  | uint32Register r => [signedWord r]
  | doubleRegister r => [signedWord r]
  | stackSlot i => [i.toInt]
  | int32StackSlot i => [i.toInt]
  | uint32StackSlot i => [i.toInt]
  | doubleStackSlot i => [i.toInt]
  | literal i => [signedWord i]
  | argumentsObject k i n => [if k then 1 else 0, i.toInt, signedWord n]
  | duplicate => []

/-- The command with a given opcode and operands. There is none if their number is wrong, or if
an operand that counts something is negative; a node may be any word. -/
def ofParts? : Opcode → List Int → Option Command
  | .begin, [a, b] => do return begin (← unsigned? a) (← unsigned? b)
  | .jsFrame, [n, l, h] => do
    return jsFrame ⟨unsignedWord n⟩ (← unsigned? l) (← unsigned? h)
  | .constructStubFrame, [l, h] => do return constructStubFrame (← unsigned? l) (← unsigned? h)
  | .getterStubFrame, [l] => do return getterStubFrame (← unsigned? l)
  | .setterStubFrame, [l] => do return setterStubFrame (← unsigned? l)
  | .argumentsAdaptorFrame, [l, h] => do
    return argumentsAdaptorFrame (← unsigned? l) (← unsigned? h)
  | .compiledStubFrame, [] => some compiledStubFrame
  | .register, [r] => do return register (← unsigned? r)
  | .int32Register, [r] => do return int32Register (← unsigned? r)
  | .uint32Register, [r] => do return uint32Register (← unsigned? r)
  | .doubleRegister, [r] => do return doubleRegister (← unsigned? r)
  | .stackSlot, [i] => some (stackSlot (Int32.ofInt i))
  | .int32StackSlot, [i] => some (int32StackSlot (Int32.ofInt i))
  | .uint32StackSlot, [i] => some (uint32StackSlot (Int32.ofInt i))
  | .doubleStackSlot, [i] => some (doubleStackSlot (Int32.ofInt i))
  | .literal, [i] => do return literal (← unsigned? i)
  | .argumentsObject, [k, i, n] => do
    return argumentsObject (decide (k ≠ 0)) (Int32.ofInt i) (← unsigned? n)
  | .duplicate, [] => some duplicate
  | _, _ => none

/-- The text of a command in a disassembly. -/
def text : Command → String
  | jsFrame n l h =>
    s!"JS_FRAME \x7bid={n.text}, literal={l.toNat}, height={h.toNat}\x7d"
  | c =>
    if c.operands.isEmpty then c.opcode.name
    else c.opcode.name ++ " " ++ " ".intercalate (c.operands.map toString)

/-- A command has as many operands as its opcode asks for. -/
@[simp] theorem length_operands (c : Command) : c.operands.length = c.opcode.arity := by
  cases c <;> rfl

/-- A list of the wrong length yields no command. -/
theorem ofParts?_eq_none_of_length {o : Opcode} {is : List Int} (h : is.length ≠ o.arity) :
    ofParts? o is = none := by
  unfold ofParts?
  split <;> simp_all [Opcode.arity]

end Command

end Speculation
