/-!
# Opcodes of frame recipes

A recipe tells how to rebuild unoptimized frames from an optimized one. It is a list of
commands, and each command starts with one of these opcodes. Three families exist: `begin`
opens a recipe, the frame opcodes open one output frame each, and the value opcodes say where
the value of one frame word is found. `duplicate` marks the value command behind it.
-/

namespace Speculation

/-- What a command of a recipe does. -/
inductive Opcode where
  | begin
  | jsFrame
  | constructStubFrame
  | getterStubFrame
  | setterStubFrame
  | argumentsAdaptorFrame
  | compiledStubFrame
  | register
  | int32Register
  | uint32Register
  | doubleRegister
  | stackSlot
  | int32StackSlot
  | uint32StackSlot
  | doubleStackSlot
  | literal
  | argumentsObject
  | duplicate
deriving DecidableEq, Repr, Inhabited

namespace Opcode

/-- All opcodes; the position of an opcode in this list is its number. -/
def all : List Opcode :=
  [begin, jsFrame, constructStubFrame, getterStubFrame, setterStubFrame, argumentsAdaptorFrame,
   compiledStubFrame, register, int32Register, uint32Register, doubleRegister, stackSlot,
   int32StackSlot, uint32StackSlot, doubleStackSlot, literal, argumentsObject, duplicate]

/-- The number that stands for an opcode in the byte stream. -/
def number : Opcode → Nat
  | begin => 0
  | jsFrame => 1
  | constructStubFrame => 2
  | getterStubFrame => 3
  | setterStubFrame => 4
  | argumentsAdaptorFrame => 5
  | compiledStubFrame => 6
  | register => 7
  | int32Register => 8
  | uint32Register => 9
  | doubleRegister => 10
  | stackSlot => 11
  | int32StackSlot => 12
  | uint32StackSlot => 13
  | doubleStackSlot => 14
  | literal => 15
  | argumentsObject => 16
  | duplicate => 17

/-- The opcode with a given number. -/
def ofInt? (i : Int) : Option Opcode := if 0 ≤ i then all[i.toNat]? else none

/-- How many operands follow the opcode. -/
def arity : Opcode → Nat
  | duplicate | compiledStubFrame => 0
  | getterStubFrame | setterStubFrame | register | int32Register | uint32Register
  | doubleRegister | stackSlot | int32StackSlot | uint32StackSlot | doubleStackSlot
  | literal => 1
  | begin | argumentsAdaptorFrame | constructStubFrame => 2
  | jsFrame | argumentsObject => 3

/-- Whether the opcode opens an output frame. -/
def opensFrame : Opcode → Bool
  | jsFrame | constructStubFrame | getterStubFrame | setterStubFrame | argumentsAdaptorFrame
  | compiledStubFrame => true
  | _ => false

/-- Whether the opcode describes a value. -/
def isValue : Opcode → Bool
  | register | int32Register | uint32Register | doubleRegister | stackSlot | int32StackSlot
  | uint32StackSlot | doubleStackSlot | literal | argumentsObject => true
  | _ => false

def name : Opcode → String
  | begin => "BEGIN"
  | jsFrame => "JS_FRAME"
  | constructStubFrame => "CONSTRUCT_STUB_FRAME"
  | getterStubFrame => "GETTER_STUB_FRAME"
  | setterStubFrame => "SETTER_STUB_FRAME"
  | argumentsAdaptorFrame => "ARGUMENTS_ADAPTOR_FRAME"
  | compiledStubFrame => "COMPILED_STUB_FRAME"
  | register => "REGISTER"
  | int32Register => "INT32_REGISTER"
  | uint32Register => "UINT32_REGISTER"
  | doubleRegister => "DOUBLE_REGISTER"
  | stackSlot => "STACK_SLOT"
  | int32StackSlot => "INT32_STACK_SLOT"
  | uint32StackSlot => "UINT32_STACK_SLOT"
  | doubleStackSlot => "DOUBLE_STACK_SLOT"
  | literal => "LITERAL"
  | argumentsObject => "ARGUMENTS_OBJECT"
  | duplicate => "DUPLICATE"

/-- The opcode with a given name. -/
def ofName? (name : String) : Option Opcode := all.find? fun o => o.name == name

/-- Numbers determine opcodes. -/
@[simp] theorem ofInt?_number (o : Opcode) : ofInt? o.number = some o := by
  cases o <;> rfl

theorem eq_number_of_ofInt? {i : Int} {o : Opcode} (h : ofInt? i = some o) : i = o.number := by
  unfold ofInt? at h
  split at h
  · rename_i h0
    obtain ⟨n, rfl⟩ := Int.eq_ofNat_of_zero_le h0
    have hn : n < 18 := by
      have := (List.getElem?_eq_some_iff.mp h).1
      simpa [all] using this
    revert h
    have key : ∀ m : Nat, m < 18 → ∀ o : Opcode, all[m]? = some o → (m : Int) = o.number := by
      decide +kernel
    intro h
    exact key n hn o (by simpa using h)
  · simp at h

end Opcode

end Speculation
