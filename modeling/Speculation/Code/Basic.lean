import Speculation.Frame.Basic

/-!
# Code objects

A code object is a range of addresses together with what is needed to leave it. Unoptimized code
records at which offset it resumes at each node (`ResumeTable`). Optimized code records its
bailout points (`BailoutData`): for each point the recipe that rebuilds the unoptimized frames,
and the literals that recipes refer to.

Addresses are words of 64 bits, whose sums wrap around.
-/

namespace Speculation

/-- The word of 64 bits that a number wraps around to. -/
def wrapAddress (n : Nat) : Nat := n % 2 ^ 64

/-- Where and how unoptimized code resumes. -/
structure ResumePoint where
  offset : Nat
  state : ResumeState
deriving DecidableEq, Repr, Inhabited

/-- The resume points of unoptimized code. -/
structure ResumeTable where
  points : List (NodeId × ResumePoint) := []
deriving DecidableEq, Repr, Inhabited

/-- The first point recorded for a node. -/
def ResumeTable.find? (t : ResumeTable) (node : NodeId) : Option ResumePoint :=
  (t.points.find? fun p => p.1 == node).map (·.2)

/-- One bailout point of optimized code. -/
structure BailoutEntry where
  node : NodeId
  /-- Offset of the recipe in the bytes of all recipes. -/
  recipe : Nat
  /-- Words pushed for an outgoing call below the spill slots. -/
  argumentsHeight : Nat
  /-- Offset of the point in the code. -/
  pc : Nat
deriving DecidableEq, Repr, Inhabited

/-- What is needed to leave optimized code. -/
structure BailoutData where
  recipes : List UInt8 := []
  entries : List BailoutEntry := []
  literals : List Value := []
  /-- The node at which interpreted frames enter the code. -/
  osrNode : Option NodeId := none
deriving DecidableEq, Repr, Inhabited

namespace BailoutData

def entry (d : BailoutData) (i : Nat) : Except Fault BailoutEntry :=
  match d.entries[i]? with
  | some e => .ok e
  | none => .error (.violated (.entryOutOfRange i d.entries.length))

def literal (d : BailoutData) (i : Nat) : Except Fault Value :=
  match d.literals[i]? with
  | some v => .ok v
  | none => .error (.violated (.literalOutOfRange i d.literals.length))

/-- The first entry at an offset of the code. -/
def entryAtPc? (d : BailoutData) (pc : Nat) : Option Nat := d.entries.findIdx? fun e => e.pc == pc

/-- The first entry for a node. -/
def entryForNode? (d : BailoutData) (node : NodeId) : Option Nat :=
  d.entries.findIdx? fun e => e.node == node

end BailoutData

/-- A piece of generated code. -/
structure Code where
  kind : CodeKind
  /-- The first address; given when the code is added to a code space. -/
  start : Nat := 0
  size : Nat
  /-- Spill slots of optimized code. -/
  stackSlots : Nat := 0
  /-- Parameters that a compiled stub takes in registers. -/
  stubParameters : Nat := 0
  function : Option SharedId := none
  bailouts : Option BailoutData := none
  resume : Option ResumeTable := none
  /-- Shapes whose change invalidates the code. -/
  dependentShapes : List ShapeId := []
  markedForDeoptimization : Bool := false
  /-- Where frames continue that re-enter a builtin after a bailout. -/
  continuationOffset : Nat := 0
deriving DecidableEq, Repr, Inhabited

namespace Code

/-- Unoptimized code of a function. -/
def unoptimized (function : SharedId) (size : Nat) (resume : ResumeTable) : Code :=
  { kind := .function, size, function := some function, resume := some resume }

/-- Optimized code of a function. -/
def optimized (function : SharedId) (size stackSlots : Nat) (bailouts : BailoutData) : Code :=
  { kind := .optimizedFunction, size, stackSlots, function := some function,
    bailouts := some bailouts }

/-- A compiled stub with parameters in registers. -/
def compiledStub (size parameters : Nat) (bailouts : BailoutData) : Code :=
  { kind := .compiledStub, size, stubParameters := parameters, bailouts := some bailouts }

/-- Whether an address lies in the code. -/
def contains (c : Code) (pc : Nat) : Bool :=
  decide (c.start ≤ pc ∧ pc < wrapAddress (c.start + c.size))

def address (c : Code) (offset : Nat) : Nat := wrapAddress (c.start + offset)

/-- Where a frame that re-enters this builtin continues. -/
def continuation (c : Code) : Nat := c.address c.continuationOffset

def isOptimized (c : Code) : Bool := c.kind == .optimizedFunction

/-- The bailout data, which only code that can be left has. -/
def bailoutData (c : Code) : Except Fault BailoutData :=
  match c.bailouts with
  | some d => .ok d
  | none => .error (.violated (.noInputData c.kind))

end Code

end Speculation
