import Speculation.Frame.Basic

/-!
# The machine stack

Frames lie at decreasing addresses below `Stack.base`, each right under its caller. The list
holds the innermost frame first.
-/

namespace Speculation

/-- The frames on the machine stack, innermost first. -/
structure Stack where
  frames : List Frame := []
deriving DecidableEq, Repr, Inhabited

namespace Stack

/-- The address at which the outermost frame ends. -/
def base : Nat := 0x100000

/-- The lowest address in use. -/
def sp (s : Stack) : Nat :=
  match s.frames with
  | [] => base
  | f :: _ => f.top

/-- Puts a frame right below the current top and sets its frame pointer. -/
def push (s : Stack) (f : Frame) : Except Fault Stack :=
  if f.size ≤ s.sp then .ok ⟨f.placeAt (s.sp - f.size) :: s.frames⟩ else .error .underflow

def pop (s : Stack) : Option Frame × Stack :=
  match s.frames with
  | [] => (none, s)
  | f :: rest => (some f, ⟨rest⟩)

/-- The innermost frame. -/
def top? (s : Stack) : Option Frame := s.frames.head?

def size (s : Stack) : Nat := s.frames.length

/-- The frames, outermost first. -/
def toList (s : Stack) : List Frame := s.frames.reverse

/-- Replaces the innermost frame by frames that already carry their addresses, outermost
first. -/
def replaceTop (s : Stack) (fs : List Frame) : Stack := ⟨fs.reverse ++ s.frames.tail⟩

/-- Changes the innermost frame. -/
def setTop (s : Stack) (f : Frame) : Stack :=
  match s.frames with
  | [] => s
  | _ :: rest => ⟨f :: rest⟩

@[simp] theorem toList_replaceTop (s : Stack) (fs : List Frame) :
    (s.replaceTop fs).toList = s.frames.tail.reverse ++ fs := by
  simp [toList, replaceTop]

end Stack

end Speculation
