import Speculation.Recipe.Stream

/-!
# Building recipes

The recipes of one code object share a byte buffer. A recipe is named by the offset of its
`begin` command. Builders take their operands as words: an operand outside the range of its
type is reduced modulo `2 ^ 32`.
-/

namespace Speculation

namespace Command

/-- The command with a given opcode whose operands are the given integers as words. -/
def ofWords? : Opcode → List Int → Option Command
  | .begin, [a, b] => some (begin (unsignedWord a) (unsignedWord b))
  | .jsFrame, [n, l, h] => some (jsFrame ⟨unsignedWord n⟩ (unsignedWord l) (unsignedWord h))
  | .constructStubFrame, [l, h] => some (constructStubFrame (unsignedWord l) (unsignedWord h))
  | .getterStubFrame, [l] => some (getterStubFrame (unsignedWord l))
  | .setterStubFrame, [l] => some (setterStubFrame (unsignedWord l))
  | .argumentsAdaptorFrame, [l, h] =>
    some (argumentsAdaptorFrame (unsignedWord l) (unsignedWord h))
  | .compiledStubFrame, [] => some compiledStubFrame
  | .register, [r] => some (register (unsignedWord r))
  | .int32Register, [r] => some (int32Register (unsignedWord r))
  | .uint32Register, [r] => some (uint32Register (unsignedWord r))
  | .doubleRegister, [r] => some (doubleRegister (unsignedWord r))
  | .stackSlot, [i] => some (stackSlot (Int32.ofInt i))
  | .int32StackSlot, [i] => some (int32StackSlot (Int32.ofInt i))
  | .uint32StackSlot, [i] => some (uint32StackSlot (Int32.ofInt i))
  | .doubleStackSlot, [i] => some (doubleStackSlot (Int32.ofInt i))
  | .literal, [i] => some (literal (unsignedWord i))
  | .argumentsObject, [k, i, n] =>
    some (argumentsObject (decide (k ≠ 0)) (Int32.ofInt i) (unsignedWord n))
  | .duplicate, [] => some duplicate
  | _, _ => none

end Command

namespace Recipe

/-- The bytes of the recipes written so far. -/
structure Buffer where
  bytes : List UInt8 := []
deriving DecidableEq, Repr, Inhabited

namespace Buffer

/-- The offset at which the next recipe starts. -/
def size (b : Buffer) : Nat := b.bytes.length

/-- Appends an integer. -/
def addInt (b : Buffer) (i : Int) : Buffer := ⟨b.bytes ++ writeInt i⟩

/-- Appends a recipe: its `begin` command and the commands behind it. The recipe starts at the
size of the buffer before. -/
def addRecipe (b : Buffer) (frames jsFrames : UInt32) (commands : List Command) : Buffer :=
  ⟨b.bytes ++ encode (.begin frames jsFrames :: commands)⟩

end Buffer

end Recipe

end Speculation
