import Speculation.Bailout.Basic

/-!
# On-stack replacement

The way into optimized code: the interpreted frame of a function that runs a long loop is turned
into the frame layout of its optimized code. The recipe of the entry says where optimized code
expects each word of the interpreted frame. Every interpreted word is a tagged value, so places
for untagged numbers need a checked conversion; a value that does not convert abandons the
attempt, and the interpreted frame just goes on.
-/

namespace Speculation

namespace Heap

/-- The number that a boxed or small number is, as an integer within bounds. -/
def integerWithin? (h : Heap) (lo hi : Int) (v : Value) : Option Int :=
  match v with
  | .smi i => if lo ≤ i ∧ i ≤ hi then some i else none
  | _ =>
    match h.get? v with
    | some (.number d) =>
      if d.isIntegral && decide (lo ≤ d.truncate ∧ d.truncate ≤ hi) then some d.truncate else none
    | _ => none

/-- The 32-bit signed integer that a number is; negative zero counts as zero. -/
def toInt32? (h : Heap) (v : Value) : Option Int := h.integerWithin? (-(2 ^ 31)) (2 ^ 31 - 1) v

/-- The 32-bit unsigned integer that a number is; negative zero counts as zero. -/
def toUint32? (h : Heap) (v : Value) : Option Int := h.integerWithin? 0 (2 ^ 32 - 1) v

end Heap

/-- A frame of optimized code that is being filled. -/
structure Replacement where
  cursor : Cursor
  output : Frame
  trace : List String := []
deriving Repr, Inhabited

namespace Replacement

/-- Steps of the replacement. -/
abbrev Step := ExceptT Fault (StateM Replacement)

/-- Writes a line of the trace. -/
def write (text : String) : Step Unit := modify fun r => { r with trace := r.trace ++ [text] }

/-- Writes a line of the trace if replacements are traced. -/
def say (s : Scene) (text : String) : Step Unit := if s.traced then write text else return

/-- Reads from the recipe. -/
def read {α : Type} (r : Cursor.Reader α) : Step α := fun a =>
  let (x, cursor) := r a.cursor
  (x, { a with cursor })

/-- Abandons the replacement because of an interpreted word; this is traced always. -/
def abandon {α : Type} (slot : Nat) (why : OsrObstacle) : Step α := do
  write s!"[on-stack replacement aborted: {why.message slot}]"
  throw (.osrAborted slot why)

/-- The word that a place of optimized code gets for an interpreted value. Literals have no place:
optimized code has them already. -/
def convert (s : Scene) (slot : Nat) (c : Command) (v : Value) : Step (Option Word) := do
  match c with
  | .register _ | .stackSlot _ => return some (.tagged v)
  | .int32Register _ | .int32StackSlot _ =>
    match s.heap.toInt32? v with
    | some i => return some (.int i)
    | none => abandon slot (.notInt32 (s.heap.describe v))
  | .uint32Register _ | .uint32StackSlot _ =>
    match s.heap.toUint32? v with
    | some i => return some (.int i)
    | none => abandon slot (.notUint32 (s.heap.describe v))
  | .doubleRegister _ | .doubleStackSlot _ =>
    match s.heap.numberValue? v with
    | some d => return some (.double d)
    | none => abandon slot (.notNumber (s.heap.describe v))
  | .literal _ => return none
  | .argumentsObject _ _ _ => throw (.violated .osrCapturesArguments)
  | _ => throw (.violated (.osrForeignCommand c))

/-- The frame with a word at the place that a command names. -/
def store (f : Frame) (c : Command) (w : Word) : Except Fault Frame := do
  match c with
  | .register r | .int32Register r | .uint32Register r =>
    return { f with registers := ← f.registers.setWord r.toNat w }
  | .doubleRegister r =>
    match w with
    | .double d => return { f with registers := ← f.registers.setDouble r.toNat d }
    | _ => return f
  | .stackSlot i | .int32StackSlot i | .uint32StackSlot i | .doubleStackSlot i =>
    f.setSlot (← f.offsetOfIndex i.toInt) w
  | _ => return f

/-- Reads the next command, passing over duplicate marks: a marked command moves its interpreted
word like any other. -/
def nextPlace : Cursor.Reader Command := do
  let n := (← get).rest.length
  let o ← Assembly.passMarks (n + 1) .duplicate
  Cursor.operandsOf o

/-- Moves the interpreted word at an offset to its place. -/
def moveWord (s : Scene) (offset : Nat) : Step Unit := do
  match ← s.input.slot offset with
  | .tagged v =>
    let c ← read nextPlace
    match ← convert s offset c v with
    | none => return
    | some w =>
      let f ← store (← get).output c w
      modify fun r => { r with output := f }
      say s s!"    {c.text} <- {w.display} ; [sp + {offset}]"
  | _ => abandon offset .untaggedInput

/-- Moves `n` interpreted words, downwards from just below an offset. -/
def moveWords (s : Scene) : Nat → Nat → Step Unit
  | 0, _ => return
  | n + 1, offset => do
    moveWord s (offset - 1)
    moveWords s n (offset - 1)

/-- Copies a word of the fixed part. -/
def copyFixed (s : Scene) (slot : FixedSlot) : Step Unit := do
  let inputOffset := s.input.size - (← get).output.area - 1 - slot.depth
  let w ← s.input.slot inputOffset
  let offset := (← get).output.fixedOffset slot
  let f ← (← get).output.setSlot offset w
  let f := match slot, w with
    | .context, .tagged v => { f with context := v }
    | _, _ => f
  modify fun r => { r with output := f }
  say s s!"    [sp + {offset}] <- {w.display} ; [sp + {inputOffset}] (fixed part)"

/-- Copies the fixed part. -/
def copyFixedPart (s : Scene) : List FixedSlot → Step Unit
  | [] => return
  | slot :: rest => do
    copyFixed s slot
    copyFixedPart s rest

/-- The height of the interpreted frame that the recipe of an entry expects. -/
def expectedHeight (node : NodeId) : Cursor.Reader Nat := do
  match ← Cursor.nextCommand with
  | .begin 1 _ =>
    match ← Cursor.nextCommand with
    | .jsFrame n l height =>
      if n = node then return height.toNat
      else Cursor.violate (.osrOtherNode node (.jsFrame n l height))
    | c => Cursor.violate (.osrOtherNode node c)
  | c => Cursor.violate (.osrNotOneFrame c)

/-- Fills the optimized frame from the interpreted one. -/
def run (s : Scene) (name : String) (node : NodeId) (entry : BailoutEntry) (height : Nat) :
    Step Frame := do
  let area := (← get).output.area
  let size := (← get).output.size
  let inputSize := s.input.size
  say s (s!"[on-stack replacement: begin {name} => node={node.text}, "
    ++ s!"frame={inputSize}->{size}]")
  moveWords s area inputSize
  copyFixedPart s FixedSlot.all
  moveWords s height (inputSize - area - fixedSlots)
  if size ≤ s.input.top + inputSize then
    let f := (← get).output.placeAt (s.input.top + inputSize - size)
    let f := { f with
      pc := s.code.address entry.pc
      continuation := some (s.codeSpace.get Builtins.standard.notifyOsr).continuation }
    say s s!"[on-stack replacement: end {name} => pc={hexText f.pc}]"
    return f
  else throw .underflow

end Replacement

namespace Bailout

/-- Computes the optimized frame that replaces an interpreted one. -/
def replaceFrame (b : Bailout) : Engine.Action Bailout := do
  let e ← get
  match b.function with
  | none => throw (.violated .osrWithoutFunction)
  | some function =>
    let code := e.codeSpace.get b.code
    let data ← code.bailoutData
    match data.osrNode with
    | none => throw (.violated (.osrWithoutEntry (e.heap.functionName (some function))))
    | some node =>
      match data.entryForNode? node with
      | none => throw (.violated (.osrEntryMissing node))
      | some index =>
        let entry ← data.entry index
        let (height, cursor) :=
          Replacement.expectedHeight node (Cursor.start data.recipes entry.recipe)
        let height ← height
        match e.heap.functionShared? function with
        | none => throw (.violated .osrTargetNotFunction)
        | some shared =>
          let area := shared.formals + 1
          let fixedSize := area + fixedSlots
          if fixedSize + height ≠ b.input.size then
            throw (.violated
              (.osrHeightMismatch shared.name b.input.size (fixedSize + height)))
          else
            let output ← Frame.make (fixedSize + code.stackSlots + entry.argumentsHeight)
              .optimized (some function) area
            let scene : Scene :=
              { heap := e.heap, codeSpace := e.codeSpace, reason := b.reason, code, data
                input := b.input, traced := b.traced }
            let (frame, r) := Replacement.run scene shared.name node entry height
              { cursor, output }
            -- e.logAll => The log is kept even when the run stops at an obstacle.
            modify fun e => e.logAll .replacement r.trace
            let frame ← frame
            return { b with entry := index, frames := [frame], frameCount := 1, jsFrames := 1 }

/-- Computes the frames of a bailout or a replacement. -/
def rebuild (b : Bailout) : Engine.Action Bailout :=
  if b.reason = .osr then b.replaceFrame else b.rebuildFrames

end Bailout

end Speculation
