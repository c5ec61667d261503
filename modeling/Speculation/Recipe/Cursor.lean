import Speculation.Fault

/-!
# Reading recipes as a cursor

A `Cursor` walks through the bytes of recipes. Whoever rebuilds frames trusts the bytes, so a
stream that ends early or holds an unknown opcode is a violation, unlike in `Recipe.decode`. A
failed read leaves the cursor behind the bytes it consumed.
-/

namespace Speculation

/-- A position in a byte stream: the offset reached, and the bytes from there on. -/
structure Cursor where
  offset : Nat
  rest : List UInt8
deriving DecidableEq, Repr, Inhabited

namespace Cursor

/-- Computations that move a cursor. -/
abbrev Reader := ExceptT Fault (StateM Cursor)

/-- A cursor at a given offset. -/
def start (bytes : List UInt8) (offset : Nat) : Cursor := ⟨offset, bytes.drop offset⟩

/-- Whether bytes are left. -/
def hasNext (c : Cursor) : Bool := !c.rest.isEmpty

/-- Moves the cursor so that `rest` is what is left. -/
def advanceTo (c : Cursor) (rest : List UInt8) : Cursor :=
  ⟨c.offset + (c.rest.length - rest.length), rest⟩

/-- Reads an integer if there is one. -/
def tryNext (c : Cursor) : Option Int × Cursor :=
  let (i, rest) := Recipe.readInt c.rest
  (i, c.advanceTo rest)

/-- Fails with a violation. -/
def violate {α : Type} (v : Violation) : Reader α := throw (.violated v)

/-- Reads an integer. -/
def next : Reader Int := do
  let c ← get
  let (i, c') := c.tryNext
  set c'
  match i with
  | some i => return i
  | none => violate (.truncatedRecipe c.offset)

/-- Reads an integer as an opcode. -/
def nextOpcode : Reader Opcode := do
  let i ← next
  match Opcode.ofInt? i with
  | some o => return o
  | none => violate (.unknownOpcode i)

/-- Reads `n` integers. -/
def nextInts : Nat → Reader (List Int)
  | 0 => return []
  | n + 1 => do
    let i ← next
    let is ← nextInts n
    return i :: is

/-- Passes over `n` integers. -/
def skip (n : Nat) : Reader Unit := do
  let _ ← nextInts n
  return ()

/-- Reads the operands of an opcode that has been read. -/
def operandsOf (o : Opcode) : Reader Command := do
  let is ← nextInts o.arity
  match Command.ofParts? o is with
  | some c => return c
  | none => violate (.malformedOperands is o)

/-- Reads a command. -/
def nextCommand : Reader Command := do
  let o ← nextOpcode
  operandsOf o

end Cursor

end Speculation
