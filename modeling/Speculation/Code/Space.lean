import Speculation.Code.Basic

/-!
# The code space

Code objects are laid out one behind the other with gaps between them; as long as there are
addresses left, no address lies in two of them. The code at an address is found by binary search
for the last code object that starts at or before it.
-/

namespace Speculation

/-- The code objects, in order of their addresses. -/
structure CodeSpace where
  codes : Array Code := #[]
  /-- The address of the next code object. -/
  next : Nat := 0x1000
deriving Repr, Inhabited

namespace CodeSpace

/-- Words kept free behind every code object. -/
def gap : Nat := 16

/-- Places a code object behind the last one. -/
def add (s : CodeSpace) (c : Code) : CodeId × CodeSpace :=
  (⟨s.codes.size⟩,
    { codes := s.codes.push { c with start := s.next }
      next := wrapAddress (s.next + (max c.size 1 + gap)) })

/-- The code object of an identifier. -/
def get (s : CodeSpace) (c : CodeId) : Code := s.codes.getD c.index default

/-- Changes a code object in place. -/
def modify (s : CodeSpace) (c : CodeId) (f : Code → Code) : CodeSpace :=
  { s with codes := s.codes.modify c.index f }

def size (s : CodeSpace) : Nat := s.codes.size

/-- The first index in `[lo, hi)` at which `p` fails, for a `p` that holds up to there and not
after. -/
def partitionPoint (p : Nat → Bool) (lo hi : Nat) : Nat :=
  if lo < hi then
    let mid := lo + (hi - lo) / 2
    if p mid then partitionPoint p (mid + 1) hi else partitionPoint p lo mid
  else lo
termination_by hi - lo

/-- The code object that contains an address. -/
def find? (s : CodeSpace) (pc : Nat) : Option CodeId :=
  match partitionPoint (fun i => decide ((s.get ⟨i⟩).start ≤ pc)) 0 s.size with
  | 0 => none
  | i + 1 => if (s.get ⟨i⟩).contains pc then some ⟨i⟩ else none

end CodeSpace

/-- The builtins through which frames resume after a bailout. -/
structure Builtins where
  argumentsAdaptor : CodeId
  constructStub : CodeId
  getterStub : CodeId
  setterStub : CodeId
  notifyDeoptimized : CodeId
  notifyLazyDeoptimized : CodeId
  notifyOsr : CodeId
  notifyStubFailure : CodeId
  stubFailureTrampoline : CodeId
deriving DecidableEq, Repr, Inhabited

namespace Builtins

/-- The continuation offsets of the builtins, in order of installation. -/
def continuationOffsets : List Nat := [24, 40, 12, 16, 0, 0, 0, 0, 8]

/-- The size of every builtin. -/
def codeSize : Nat := 64

/-- A code space with the builtins added behind its code objects. -/
def install (s : CodeSpace) : CodeSpace :=
  continuationOffsets.foldl
    (fun s o => (s.add { kind := .builtin, size := codeSize, continuationOffset := o }).2) s

/-- The builtins of a code space that started with them. -/
def standard : Builtins :=
  { argumentsAdaptor := ⟨0⟩, constructStub := ⟨1⟩, getterStub := ⟨2⟩, setterStub := ⟨3⟩
    notifyDeoptimized := ⟨4⟩, notifyLazyDeoptimized := ⟨5⟩, notifyOsr := ⟨6⟩
    notifyStubFailure := ⟨7⟩, stubFailureTrampoline := ⟨8⟩ }

/-- The builtins with their names. -/
def toList (b : Builtins) : List (String × CodeId) :=
  [("arguments_adaptor", b.argumentsAdaptor), ("construct_stub", b.constructStub),
   ("getter_stub", b.getterStub), ("setter_stub", b.setterStub),
   ("notify_deoptimized", b.notifyDeoptimized),
   ("notify_lazy_deoptimized", b.notifyLazyDeoptimized), ("notify_osr", b.notifyOsr),
   ("notify_stub_failure", b.notifyStubFailure),
   ("stub_failure_trampoline", b.stubFailureTrampoline)]

end Builtins

end Speculation
