import Speculation.Value
import Speculation.Double.Text

/-!
# Words and kinds of frames

A `Word` is one cell of a stack frame or a general-purpose register. Optimized code keeps
integers and doubles untagged, unoptimized code only tagged values. `FrameType` says whose
frame it is; frames that belong to no function carry the number of their type as a marker in
place of the function or the context.
-/

namespace Speculation

/-- One cell of a frame or one general-purpose register. -/
inductive Word where
  | tagged (value : Value)
  | int (value : Int)
  | double (value : Double)
  | code (id : CodeId)
  /-- Never written. -/
  | zap
deriving DecidableEq, Repr

namespace Word

instance : Inhabited Word := ⟨.zap⟩

def tagged? : Word → Option Value
  | tagged v => some v
  | _ => none

def int? : Word → Option Int
  | int i => some i
  | _ => none

def double? : Word → Option Double
  | double d => some d
  | _ => none

def display : Word → String
  | tagged v => v.display
  | int i => s!"int {i}"
  | double d => s!"double {d.display}"
  | code c => c.text
  | zap => "<zap>"

end Word

/-- Whose frame it is. -/
inductive FrameType where
  | javaScript
  | optimized
  | argumentsAdaptor
  | construct
  /-- An accessor stub. -/
  | internal
  | stub
  | stubFailureTrampoline
deriving DecidableEq, Repr, Inhabited

namespace FrameType

/-- All frame types; the position of a type in this list is its marker. -/
def all : List FrameType :=
  [javaScript, optimized, argumentsAdaptor, construct, internal, stub, stubFailureTrampoline]

/-- The small integer written in place of a function or context. -/
def marker : FrameType → Value
  | javaScript => .smi 0
  | optimized => .smi 1
  | argumentsAdaptor => .smi 2
  | construct => .smi 3
  | internal => .smi 4
  | stub => .smi 5
  | stubFailureTrampoline => .smi 6

def name : FrameType → String
  | javaScript => "JAVA_SCRIPT"
  | optimized => "OPTIMIZED"
  | argumentsAdaptor => "ARGUMENTS_ADAPTOR"
  | construct => "CONSTRUCT"
  | internal => "INTERNAL"
  | stub => "STUB"
  | stubFailureTrampoline => "STUB_FAILURE_TRAMPOLINE"

def ofName? (name : String) : Option FrameType := all.find? fun t => t.name == name

end FrameType

/-- What unoptimized code expects in registers when a frame resumes. -/
inductive ResumeState where
  | noRegisters
  /-- The top of the expression stack is in the accumulator. -/
  | tosRegister
deriving DecidableEq, Repr, Inhabited

def ResumeState.name : ResumeState → String
  | noRegisters => "NO_REGISTERS"
  | tosRegister => "TOS_REG"

/-- The kinds of code objects. -/
inductive CodeKind where
  /-- Unoptimized code of a function. -/
  | function
  | optimizedFunction
  | compiledStub
  | builtin
deriving DecidableEq, Repr, Inhabited

def CodeKind.name : CodeKind → String
  | function => "Function"
  | optimizedFunction => "OptimizedFunction"
  | compiledStub => "CompiledStub"
  | builtin => "Builtin"

/-- Why a frame is being rebuilt. -/
inductive BailoutReason where
  /-- A check in optimized code failed. -/
  | eager
  /-- The code was invalidated while its frame was suspended in a call. -/
  | lazy
  /-- An interpreted frame enters optimized code. -/
  | osr
  /-- The debugger looks at an optimized frame. -/
  | debugger
deriving DecidableEq, Repr, Inhabited

namespace BailoutReason

def name : BailoutReason → String
  | eager => "eager"
  | lazy => "lazy"
  | osr => "osr"
  | debugger => "debugger"

def all : List BailoutReason := [eager, lazy, osr, debugger]

def ofName? (name : String) : Option BailoutReason := all.find? fun r => r.name == name

/-- The headline of a bailout in traces. -/
def banner : BailoutReason → String
  | eager | lazy => "DEOPT"
  | debugger => "DEOPT FOR DEBUGGER"
  | osr => "OSR"

end BailoutReason

end Speculation
