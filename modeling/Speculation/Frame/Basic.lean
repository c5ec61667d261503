import Speculation.Fault

/-!
# Stack frames

A `Frame` is an array of words that stands for one stack frame. Offsets count up from the lowest
address, so the caller's part is at the highest offsets:

```text
  size - 1             receiver            |
  size - 2 - i         parameter i         | the parameter area
  size - area - 1      caller pc           |
  size - area - 2      caller fp           | the fixed part
  size - area - 3      context or marker   |
  size - area - 4      function or marker  |
  below                expressions, spill slots, extras of the frame type
```

A frame is never smaller than its parameter area and its fixed part; that is a field of the
type. Recipes address words by **slot index**: non-negative indices are the words below the
fixed part, negative ones the parameter area.
-/

namespace Speculation

/-- Words between the parameter area and the body of a frame. -/
def fixedSlots : Nat := 4

/-- The fixed words, from the parameter area down. -/
inductive FixedSlot where
  | callerPc
  | callerFp
  /-- The context, or a marker. -/
  | context
  /-- The function, or a marker. -/
  | function
deriving DecidableEq, Repr, Inhabited

namespace FixedSlot

def all : List FixedSlot := [callerPc, callerFp, context, function]

/-- Distance from the top of the fixed part. -/
def depth : FixedSlot → Nat
  | callerPc => 0
  | callerFp => 1
  | context => 2
  | function => 3

theorem depth_lt (s : FixedSlot) : s.depth < fixedSlots := by cases s <;> decide

end FixedSlot

/-! ### Registers -/

/-- The number of registers of each kind. -/
def registerCount : Nat := 8

/-- The registers saved with a frame. -/
structure RegisterFile where
  words : List Word := List.replicate registerCount .zap
  doubles : List Double := List.replicate registerCount (Double.zero false)
deriving DecidableEq, Repr, Inhabited

namespace RegisterFile

def word (r : RegisterFile) (i : Nat) : Except Fault Word :=
  match r.words[i]? with
  | some w => .ok w
  | none => .error (.violated (.registerOutOfRange i))

def setWord (r : RegisterFile) (i : Nat) (w : Word) : Except Fault RegisterFile :=
  if i < r.words.length then .ok { r with words := r.words.set i w }
  else .error (.violated (.registerOutOfRange i))

def double (r : RegisterFile) (i : Nat) : Except Fault Double :=
  match r.doubles[i]? with
  | some d => .ok d
  | none => .error (.violated (.doubleRegisterOutOfRange i))

def setDouble (r : RegisterFile) (i : Nat) (d : Double) : Except Fault RegisterFile :=
  if i < r.doubles.length then .ok { r with doubles := r.doubles.set i d }
  else .error (.violated (.doubleRegisterOutOfRange i))

/-- Saves words from the first register on. -/
def setWords (r : RegisterFile) (ws : List Word) : Except Fault RegisterFile :=
  ws.zipIdx.foldlM (fun r p => r.setWord p.2 p.1) r

/-- Saves doubles from the first register on. -/
def setDoubles (r : RegisterFile) (ds : List Double) : Except Fault RegisterFile :=
  ds.zipIdx.foldlM (fun r p => r.setDouble p.2 p.1) r

/-- Whether nothing was ever saved: every word is untouched and every double is a zero. -/
def isBlank (r : RegisterFile) : Bool :=
  r.words.all (· == .zap) && r.doubles.all Double.isZero

end RegisterFile

/-! ### Frames -/

/-- One stack frame. -/
structure Frame where
  type : FrameType
  /-- `none` for the frames of compiled stubs. -/
  function : Option Value
  /-- Words of the parameter area: receiver and parameters. -/
  area : Nat
  words : List Word
  /-- The address of the word at offset zero. -/
  top : Nat := 0
  pc : Nat := 0
  fp : Nat := 0
  context : Value := .undefined
  state : ResumeState := .noRegisters
  /-- Where control goes once the frame is in place, for the innermost frame. -/
  continuation : Option Nat := none
  registers : RegisterFile := {}
  fits : area + fixedSlots ≤ words.length
deriving DecidableEq, Repr

namespace Frame

/-- A frame of `size` untouched words. -/
def make (size : Nat) (type : FrameType) (function : Option Value) (area : Nat) :
    Except Fault Frame :=
  if h : area + fixedSlots ≤ size then
    .ok { type, function, area, words := List.replicate size .zap, fits := by simpa using h }
  else .error (.violated (.frameTooSmall size area))

/-- A frame of a function with `formals` parameters and `height` words below the fixed part. -/
def ofFunction (type : FrameType) (function : Value) (formals height : Nat) : Frame :=
  { type
    function := some function
    area := formals + 1
    words := List.replicate (formals + 1 + fixedSlots + height) .zap
    fits := by simp }

instance : Inhabited Frame := ⟨ofFunction .javaScript .undefined 0 0⟩

def size (f : Frame) : Nat := f.words.length

/-- The word at an offset. -/
def slot (f : Frame) (offset : Nat) : Except Fault Word :=
  match f.words[offset]? with
  | some w => .ok w
  | none => .error (.violated (.slotOutOfRange offset f.size))

/-- The frame with the word at `offset` replaced. -/
def write (f : Frame) (offset : Nat) (w : Word) : Frame :=
  { f with words := f.words.set offset w, fits := by simpa using f.fits }

/-- Replaces the word at an offset. -/
def setSlot (f : Frame) (offset : Nat) (w : Word) : Except Fault Frame :=
  if offset < f.size then .ok (f.write offset w)
  else .error (.violated (.slotOutOfRange offset f.size))

/-- The address of the word at an offset. -/
def addressOf (f : Frame) (offset : Nat) : Nat := f.top + offset

/-- The offset of a fixed word. -/
def fixedOffset (f : Frame) (s : FixedSlot) : Nat := f.size - f.area - 1 - s.depth

/-- The offset that a slot index addresses, as an integer that may lie outside the frame. -/
def rawOffset (size area : Nat) (index : Int) : Int :=
  (if 0 ≤ index then (size : Int) - fixedSlots - area else (size : Int) - area) - (index + 1)

/-- The offset of a slot index: a word below the fixed part if it is not negative, otherwise one
of the parameter area, with `-1` the last parameter and `-area` the receiver. -/
def offsetOfIndex (f : Frame) (index : Int) : Except Fault Nat :=
  let o := rawOffset f.size f.area index
  if 0 ≤ o ∧ o < f.size then .ok o.toNat
  else .error (.violated (.slotIndexOutside index f.type f.size))

/-- Parameters, not counting the receiver. -/
def parameterCount (f : Frame) : Nat := f.area - 1

/-- The `i`th parameter. -/
def parameter (f : Frame) (i : Nat) : Except Fault Word :=
  if i + 2 ≤ f.size then f.slot (f.size - 2 - i) else .error .underflow

def receiver (f : Frame) : Except Fault Word := f.slot (f.size - 1)

/-- Words below the fixed part. -/
def expressionCount (f : Frame) : Nat := f.size - fixedSlots - f.area

/-- The `i`th word below the fixed part. -/
def expression (f : Frame) (i : Nat) : Except Fault Word :=
  if i < f.expressionCount then f.slot (f.expressionCount - 1 - i) else .error .underflow

def setExpression (f : Frame) (i : Nat) (w : Word) : Except Fault Frame :=
  if i < f.expressionCount then f.setSlot (f.expressionCount - 1 - i) w else .error .underflow

/-- Writes words below the fixed part, from the first on. -/
def setExpressions (f : Frame) (ws : List Word) : Except Fault Frame :=
  ws.zipIdx.foldlM (fun f p => f.setExpression p.2 p.1) f

/-- Writes the receiver. -/
def setReceiver (f : Frame) (w : Word) : Frame := f.write (f.size - 1) w

/-- Writes parameters, from the first on. -/
def setParameters (f : Frame) (ws : List Word) : Frame :=
  ws.zipIdx.foldl (fun f p => f.write (f.size - 2 - p.2) p.1) f

/-- Writes the fixed part. -/
def link (f : Frame) (callerPc callerFp : Int) (context function : Word) : Frame :=
  let words : List (FixedSlot × Word) :=
    [(.callerPc, .int callerPc), (.callerFp, .int callerFp), (.context, context),
     (.function, function)]
  words.foldl (fun f p => f.write (f.fixedOffset p.1) p.2) f

/-- The address of the word that holds the caller's frame pointer; it is this frame's pointer. -/
def linkAddress (f : Frame) : Nat := f.addressOf (f.fixedOffset .callerFp)

/-- The frame moved to an address, with its frame pointer. -/
def placeAt (f : Frame) (top : Nat) : Frame :=
  let g := { f with top := top }
  { g with fp := g.linkAddress }

/-! ### Words after a write -/

@[simp] theorem size_write (f : Frame) (o : Nat) (w : Word) : (f.write o w).size = f.size := by
  simp [size, write]

@[simp] theorem area_write (f : Frame) (o : Nat) (w : Word) : (f.write o w).area = f.area := rfl

theorem words_write (f : Frame) (o : Nat) (w : Word) :
    (f.write o w).words = f.words.set o w := rfl

theorem slot_write_ne (f : Frame) {o p : Nat} (w : Word) (h : o ≠ p) :
    (f.write o w).slot p = f.slot p := by
  simp [slot, words_write, List.getElem?_set_ne h]

/-- The fixed part lies inside the frame. -/
theorem fixedOffset_lt_size (f : Frame) (s : FixedSlot) : f.fixedOffset s < f.size := by
  have := f.fits
  have := s.depth_lt
  simp only [fixedOffset, size, fixedSlots] at *
  omega

end Frame

end Speculation
