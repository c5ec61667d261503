import Speculation.Bailout.Recovered
import Speculation.Code.Space
import Speculation.Heap.Basic
import Speculation.Recipe.Cursor

/-!
# Rebuilding frames

The walk over a recipe that turns one optimized frame into unoptimized frames, outermost first.
Every frame command opens a frame right below the one before it and is followed by one value
command for each word that the recipe decides: the parameter area from the top down, then, below
the fixed part, the body.

A value command may be marked as a **duplicate**: then its own operands are not read, and it
stands for the value of the command before it in the same frame.

Only the state in `Assembly` changes; the heap is read and nothing is allocated. Lines of the
trace are kept also when the walk fails.
-/

namespace Speculation

/-- A number that waits for its box. -/
structure DeferredNumber where
  frame : Nat
  offset : Nat
  value : Double
deriving DecidableEq, Repr, Inhabited

/-- An arguments object that waits to be allocated. -/
structure DeferredArguments where
  frame : Nat
  offset : Nat
  values : List Value
deriving DecidableEq, Repr, Inhabited

/-- What the walk reads and never changes. -/
structure Scene where
  heap : Heap
  codeSpace : CodeSpace
  reason : BailoutReason
  code : Code
  data : BailoutData
  /-- The optimized frame. -/
  input : Frame
  traced : Bool
deriving Repr, Inhabited

/-- What the walk has built. -/
structure Assembly where
  cursor : Cursor
  /-- Finished frames, outermost first. -/
  frames : List Frame := []
  /-- The frame that is being built. -/
  current : Frame := default
  /-- The value before, in the frame that is being built. -/
  last : Option Recovered := none
  jsFrames : Nat := 0
  numbers : List DeferredNumber := []
  arguments : List DeferredArguments := []
  trace : List String := []
deriving Repr, Inhabited

namespace Assembly

/-- Steps of the walk. -/
abbrev Step := ExceptT Fault (StateM Assembly)

def violate {α : Type} (v : Violation) : Step α := throw (.violated v)

/-- Writes a line of the trace. -/
def say (s : Scene) (text : String) : Step Unit :=
  if s.traced then modify fun a => { a with trace := a.trace ++ [text] } else return

/-- Reads from the recipe. -/
def read {α : Type} (r : Cursor.Reader α) : Step α := fun a =>
  let (x, cursor) := r a.cursor
  (x, { a with cursor })

/-- How many frames are finished; the index of the one being built. -/
def index : Step Nat := return (← get).frames.length

/-! ### Words of the current frame -/

/-- Writes a word of the current frame. -/
def put (offset : Nat) (w : Word) : Step Unit := do
  let f ← (← get).current.setSlot offset w
  modify fun a => { a with current := f }

/-- Writes a fixed word of the current frame. -/
def putFixed (slot : FixedSlot) (w : Word) : Step Unit := do
  put ((← get).current.fixedOffset slot) w

/-- Changes the current frame. -/
def adjust (f : Frame → Frame) : Step Unit := modify fun a => { a with current := f a.current }

/-- Writes the context, and takes it over if it is a value. -/
def putContext (w : Word) : Step Unit := do
  putFixed .context w
  match w.tagged? with
  | some v => adjust fun f => { f with context := v }
  | none => return

/-! ### Opening and closing frames -/

/-- The frame that was finished last. -/
def previous? : Step (Option Frame) := return (← get).frames.getLast?

/-- The address at which the next frame ends: where the optimized frame ends, or right below the
frame before. -/
def ceiling (s : Scene) : Step Nat := do
  match ← previous? with
  | none => return s.input.top + s.input.size
  | some p => return p.top

/-- The caller's pc and frame pointer: those of the optimized frame, or the frame before. -/
def callerWords (s : Scene) : Step (Word × Word) := do
  match ← previous? with
  | none =>
    return (← s.input.slot (s.input.fixedOffset .callerPc),
      ← s.input.slot (s.input.fixedOffset .callerFp))
  | some p => return (.int p.pc, .int p.fp)

/-- The caller's context. -/
def callerContext (s : Scene) : Step Word := do
  match ← previous? with
  | none => s.input.slot (s.input.fixedOffset .context)
  | some p => return .tagged p.context

/-- Opens a frame: places it, and links it to its caller. -/
def openFrame (s : Scene) (f : Frame) : Step Unit := do
  let ceiling ← ceiling s
  if f.size ≤ ceiling then
    let (pc, fp) ← callerWords s
    modify fun a => { a with current := f.placeAt (ceiling - f.size), last := none }
    putFixed .callerPc pc
    putFixed .callerFp fp
  else throw .underflow

/-- The builtin that takes over after a bailout. -/
def notifier (s : Scene) : CodeId :=
  if s.reason = .lazy then Builtins.standard.notifyLazyDeoptimized
  else Builtins.standard.notifyDeoptimized

/-- Closes a frame. The innermost of `count` frames continues in a builtin, unless only the
debugger looks at it. -/
def closeFrame (s : Scene) (count : Nat) (notify : CodeId) : Step Unit := do
  if (← index) + 1 = count && s.reason ≠ .debugger then
    adjust fun f => { f with continuation := some (s.codeSpace.get notify).continuation }
  modify fun a => { a with frames := a.frames ++ [a.current] }

/-! ### Values -/

/-- Writes a value into a slot and defers what cannot be written yet. -/
def place (s : Scene) (offset : Nat) (v : Recovered) (source : String) : Step Unit := do
  let frame ← index
  let address := (← get).current.addressOf offset
  say s s!"    {hexText address}: [top + {offset}] <- {v.traceText source}"
  put offset (.tagged v.placeholder)
  match v with
  | .tagged _ => return
  | .number d => modify fun a => { a with numbers := a.numbers ++ [⟨frame, offset, d⟩] }
  | .arguments vs => modify fun a => { a with arguments := a.arguments ++ [⟨frame, offset, vs⟩] }

/-- The opcode behind a run of duplicate marks, for a run of at most `n`. -/
def passMarks : Nat → Opcode → Cursor.Reader Opcode
  | 0, o => return o
  | n + 1, o => do if o = .duplicate then passMarks n (← Cursor.nextOpcode) else return o

/-- Reads the operands of a command marked as a duplicate, without using them. -/
def passDuplicate (frame : Nat) : Cursor.Reader Unit := do
  let n := (← get).rest.length
  let o ← passMarks (n + 1) .duplicate
  if o.opensFrame || o = .begin then Cursor.violate (.duplicateOfFrame o frame)
  else Cursor.skip o.arity

/-- Rebuilds the word at an offset from the next value command. -/
def rebuildWord (s : Scene) (offset : Nat) : Step Unit := do
  let frame ← index
  let o ← read Cursor.nextOpcode
  if o = .duplicate then
    read (passDuplicate frame)
    match (← get).last with
    | none => violate (.duplicateWithoutValue frame)
    | some v => place s offset v "DUPLICATE"
  else
    let c ← read (Cursor.operandsOf o)
    let v ← c.recover s.data s.input frame
    place s offset v c.text
    modify fun a => { a with last := some v }

/-- Rebuilds `n` words, downwards from just below an offset. -/
def rebuildWords (s : Scene) : Nat → Nat → Step Unit
  | 0, _ => return
  | n + 1, offset => do
    rebuildWord s (offset - 1)
    rebuildWords s n (offset - 1)

/-! ### Frames -/

/-- Rebuilds the frame of a function and finds where it resumes. -/
def jsFrame (s : Scene) (count : Nat) (node : NodeId) (literal height : Nat) : Step Unit := do
  let function ← s.data.literal literal
  match s.heap.functionData? function with
  | none => violate (.frameLiteralNotFunction function)
  | some d =>
    let shared := s.heap.sharedInfo d.shared
    let f := Frame.ofFunction .javaScript function shared.formals height
    let outermost := (← index) = 0
    say s s!"  translating {shared.name} => node={node.text}, height={height}"
    openFrame s f
    rebuildWords s f.area f.size
    -- The outermost frame takes over the context of the code it replaces; any other runs in that of
    -- its function.
    let context ← if outermost then callerContext s else pure (.tagged d.context)
    putContext context
    putFixed .function (.tagged function)
    rebuildWords s height height
    match shared.code with
    | none => violate (.noBaselineCode shared.name)
    | some c =>
      let code := s.codeSpace.get c
      match code.resume.bind fun t => t.find? node with
      | none => violate (.noResumePoint node shared.name)
      | some point =>
        adjust fun f => { f with pc := code.address point.offset, state := point.state }
        closeFrame s count (notifier s)
        modify fun a => { a with jsFrames := a.jsFrames + 1 }

/-- Where a frame of a builtin continues. -/
def builtinPc (s : Scene) (c : CodeId) : Nat := (s.codeSpace.get c).continuation

/-- Rebuilds the frame that adapts the number of arguments. -/
def adaptorFrame (s : Scene) (count literal height : Nat) : Step Unit := do
  let function ← s.data.literal literal
  if height = 0 then violate .adaptorWithoutReceiver
  else
    say s s!"  translating arguments adaptor => height={height - 1}"
    let f ← Frame.make (height + fixedSlots + 1) .argumentsAdaptor (some function) height
    openFrame s f
    rebuildWords s height f.size
    putFixed .context (.tagged FrameType.argumentsAdaptor.marker)
    putFixed .function (.tagged function)
    put 0 (.tagged (.smi (height - 1)))
    adjust fun f => { f with pc := builtinPc s Builtins.standard.argumentsAdaptor }
    closeFrame s count (notifier s)

/-- Rebuilds the frame of a constructor call; the new object was passed as the receiver. -/
def constructFrame (s : Scene) (count literal height : Nat) : Step Unit := do
  let function ← s.data.literal literal
  if height = 0 then violate .constructWithoutReceiver
  else
    say s s!"  translating construct stub => height={height}"
    let f ← Frame.make (height + fixedSlots + 2) .construct (some function) height
    openFrame s f
    rebuildWords s height f.size
    putContext (← callerContext s)
    putFixed .function (.tagged FrameType.construct.marker)
    put 1 (.tagged (.smi (height - 1)))
    put 0 (← (← get).current.receiver)
    adjust fun f => { f with pc := builtinPc s Builtins.standard.constructStub }
    closeFrame s count (notifier s)

/-- Rebuilds the frame of an accessor call. The receiver is passed in a register and gets no word;
a setter keeps the stored value. -/
def accessorFrame (s : Scene) (count literal : Nat) (setter : Bool) : Step Unit := do
  let function ← s.data.literal literal
  let extra := setter.toNat
  let which := if setter then "setter" else "getter"
  say s s!"  translating {which} stub => height=0"
  let f ← Frame.make (fixedSlots + 1 + extra) .internal (some function) 0
  openFrame s f
  let stub := if setter then Builtins.standard.setterStub else Builtins.standard.getterStub
  putContext (← callerContext s)
  putFixed .function (.tagged FrameType.internal.marker)
  put extra (.code stub)
  let o ← read Cursor.nextOpcode
  read (Cursor.skip o.arity)
  if setter then rebuildWord s 0
  adjust fun f => { f with pc := builtinPc s stub }
  closeFrame s count (notifier s)

/-- Rebuilds the frame of a failed compiled stub. -/
def stubFrame (s : Scene) (count : Nat) : Step Unit := do
  if (← index) = 0 then
    let n := s.code.stubParameters
    say s s!"  translating compiled stub => {n} register parameters"
    let f ← Frame.make (fixedSlots + n) .stubFailureTrampoline none 0
    openFrame s f
    putContext (← callerContext s)
    putFixed .function (.tagged FrameType.stubFailureTrampoline.marker)
    rebuildWords s n n
    adjust fun f => { f with pc := builtinPc s Builtins.standard.stubFailureTrampoline }
    closeFrame s count Builtins.standard.notifyStubFailure
  else violate .stubFrameNotOutermost

/-- Rebuilds the next of `count` frames. -/
def nextFrame (s : Scene) (count : Nat) : Step Unit := do
  match ← read Cursor.nextCommand with
  | .jsFrame node literal height => jsFrame s count node literal.toNat height.toNat
  | .argumentsAdaptorFrame literal height => adaptorFrame s count literal.toNat height.toNat
  | .constructStubFrame literal height => constructFrame s count literal.toNat height.toNat
  | .getterStubFrame literal => accessorFrame s count literal.toNat false
  | .setterStubFrame literal => accessorFrame s count literal.toNat true
  | .compiledStubFrame => stubFrame s count
  | c => do violate (.notAFrame c (← index))

/-- Rebuilds `n` more of `count` frames. -/
def nextFrames (s : Scene) (count : Nat) : Nat → Step Unit
  | 0 => return
  | n + 1 => do
    nextFrame s count
    nextFrames s count n

/-- Follows a whole recipe; the result is the number of frames it announces. -/
def run (s : Scene) : Step Nat := do
  match ← read Cursor.nextCommand with
  | .begin count _ =>
    nextFrames s count.toNat count.toNat
    return count.toNat
  | c => violate (.recipeWithoutBegin c)

end Assembly

end Speculation
