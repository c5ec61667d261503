import Speculation.Cache.Kind
import Speculation.Frame.Word
import Speculation.Recipe.Stream

/-!
# Faults

Everything that can end an operation early, by cause. Three classes matter to callers.

* An `Exception` is raised by the running program (`TypeError`, `ReferenceError`, `RangeError`)
  and can be caught by it; so is an abandoned on-stack replacement, after which the interpreted
  frame just goes on.
* A `Violation` means that a recipe or code object contradicts itself or its frame. There is no
  state to recover to.
* The rest: refusals of the interface (`Refusal`), malformed input of the tools, and the few
  ways in which an operation cannot go on at all.

The wording of every message is in the `message` functions here.
-/

namespace Speculation

/-- Kinds of exceptions of the running program. -/
inductive ExceptionKind where
  | typeError
  | referenceError
  | rangeError
deriving DecidableEq, Repr, Inhabited

def ExceptionKind.name : ExceptionKind → String
  | typeError => "TypeError"
  | referenceError => "ReferenceError"
  | rangeError => "RangeError"

/-- Exceptions of the running program. Receivers and names are carried as their text. -/
inductive Exception where
  | nonObjectLoad (name receiver : String)
  | nonObjectStore (name receiver : String)
  | nonObjectCall (name receiver : String)
  | notDefined (name : String)
  | undefinedMethod (name receiver : String)
  | propertyNotFunction (name receiver : String)
  | readOnly (name receiver : String)
  | notCallable (what : String)
  /-- A method of strings was called on something else. -/
  | notAString (method receiver : String)
  | elementTooFar (index length : Nat)
  | invalidArrayLength (length : String)
  /-- Thrown by a function of the host. -/
  | byHost (kind : ExceptionKind) (template message : String)
deriving DecidableEq, Repr

namespace Exception

def kind : Exception → ExceptionKind
  | notDefined _ => .referenceError
  | elementTooFar _ _ | invalidArrayLength _ => .rangeError
  | byHost kind _ _ => kind
  | _ => .typeError

/-- The stable name of the message. -/
def template : Exception → String
  | nonObjectLoad _ _ => "non_object_property_load"
  | nonObjectStore _ _ => "non_object_property_store"
  | nonObjectCall _ _ => "non_object_property_call"
  | notDefined _ => "not_defined"
  | undefinedMethod _ _ => "undefined_method"
  | propertyNotFunction _ _ => "property_not_function"
  | readOnly _ _ => "strict_read_only_property"
  | notCallable _ | notAString _ _ => "called_non_callable"
  | elementTooFar _ _ | invalidArrayLength _ => "invalid_array_length"
  | byHost _ template _ => template

def message : Exception → String
  | nonObjectLoad n r => s!"Cannot read property '{n}' of {r}"
  | nonObjectStore n r => s!"Cannot set property '{n}' of {r}"
  | nonObjectCall n r => s!"Cannot call method '{n}' of {r}"
  | notDefined n => s!"{n} is not defined"
  | undefinedMethod n r => s!"Object {r} has no method '{n}'"
  | propertyNotFunction n r => s!"Property '{n}' of object {r} is not a function"
  | readOnly n r => s!"Cannot assign to read only property '{n}' of {r}"
  | notCallable w => s!"{w} is not a function"
  | notAString m r => s!"String.prototype.{m} called on {r}"
  | elementTooFar i n => s!"element index {i} is too far past the end ({n})"
  | invalidArrayLength n => s!"Invalid array length: {n}"
  | byHost _ _ message => message

end Exception

/-- Why an on-stack replacement was abandoned. The value is carried as its text. -/
inductive OsrObstacle where
  | notInt32 (value : String)
  | notUint32 (value : String)
  | notNumber (value : String)
  | untaggedInput
deriving DecidableEq, Repr

def OsrObstacle.name : OsrObstacle → String
  | notInt32 _ => "NotInt32"
  | notUint32 _ => "NotUint32"
  | notNumber _ => "NotNumber"
  | untaggedInput => "UntaggedInput"

def OsrObstacle.message (slot : Nat) : OsrObstacle → String
  | notInt32 v => s!"input slot {slot} holds {v} which is not an int32"
  | notUint32 v => s!"input slot {slot} holds {v} which is not a uint32"
  | notNumber v => s!"input slot {slot} holds {v} which is not a number"
  | untaggedInput => s!"input slot {slot} is not a tagged value"

/-- An address in a message. -/
def hexText (n : Nat) : String := "0x" ++ String.ofList (Nat.toDigits 16 n)

/-- Refusals of the interface that leave everything as it was. -/
inductive Refusal where
  | interpretedFunction (name : String)
  | deoptimizeEmptyStack
  | replaceEmptyStack
  | inspectEmptyStack
  | argumentsOfEmptyStack
  | noCodeAt (pc : Nat)
  | notBailoutPoint (pc : Nat)
  /-- A function of the host gave up. -/
  | byHost (message : String)
deriving DecidableEq, Repr

def Refusal.message : Refusal → String
  | interpretedFunction n => s!"cannot execute interpreted function '{n}' in the engine core"
  | deoptimizeEmptyStack => "deoptimization with an empty stack"
  | replaceEmptyStack => "on-stack replacement with an empty stack"
  | inspectEmptyStack => "no frame to inspect"
  | argumentsOfEmptyStack => "no frame to read arguments from"
  | noCodeAt pc => s!"no code object contains pc {hexText pc}"
  | notBailoutPoint pc => s!"pc {hexText pc} is not a deoptimization point"
  | byHost m => m

/-- Contradictions within recipes, frames and code objects. -/
inductive Violation where
  -- reading recipes
  | truncatedRecipe (offset : Nat)
  | unknownOpcode (value : Int)
  | malformedOperands (operands : List Int) (opcode : Opcode)
  -- frames
  | registerOutOfRange (index : Nat)
  | doubleRegisterOutOfRange (index : Nat)
  | frameTooSmall (size area : Nat)
  | slotOutOfRange (offset size : Nat)
  | slotIndexOutside (index : Int) (type : FrameType) (size : Nat)
  -- code objects
  | entryOutOfRange (index count : Nat)
  | literalOutOfRange (index count : Nat)
  | noInputData (kind : CodeKind)
  | noOptimizedCode (reason : BailoutReason) (function : String)
  -- rebuilding frames
  | recipeWithoutBegin (command : Command)
  | notAFrame (command : Command) (frame : Nat)
  | frameLiteralNotFunction (literal : Value)
  | adaptorWithoutReceiver
  | constructWithoutReceiver
  | stubFrameNotOutermost
  | noBaselineCode (function : String)
  | noResumePoint (node : NodeId) (function : String)
  | duplicateOfFrame (opcode : Opcode) (frame : Nat)
  | duplicateWithoutValue (frame : Nat)
  | notTagged (command : Command) (word : Word)
  | notInteger (command : Command) (word : Word)
  | notDouble (command : Command) (word : Word)
  | notAValue (command : Command) (frame : Nat)
  -- arguments of inlined functions
  | taggedSlotHolds (offset : Nat) (word : Word)
  | integerSlotHolds (offset : Nat) (word : Word)
  | doubleSlotHolds (offset : Nat) (word : Word)
  | notAnArgument (command : Command)
  | inlinedFrameOutOfRange (index count : Nat)
  | recipeEndsBeforeInlined (index : Nat)
  -- the debugger's view
  | materializeForDebugger
  | untaggedFrameWord (word : Word)
  | inspectWithoutFunction
  | inspectOutsideCode (pc : Nat)
  | inspectBetweenPoints (pc : Nat)
  | jsFrameOutOfRange (index count : Nat)
  -- on-stack replacement
  | osrWithoutFunction
  | osrWithoutEntry (function : String)
  | osrEntryMissing (node : NodeId)
  | osrNotOneFrame (command : Command)
  | osrOtherNode (node : NodeId) (command : Command)
  | osrTargetNotFunction
  | osrHeightMismatch (function : String) (actual expected : Nat)
  | osrCapturesArguments
  | osrForeignCommand (command : Command)
  -- feedback sites
  | foreignStub (site : String) (kind : SiteKind)
deriving DecidableEq, Repr

def Violation.message : Violation → String
  | truncatedRecipe at_ => s!"truncated translation at byte {at_}"
  | unknownOpcode v => s!"unknown translation opcode {v}"
  | malformedOperands is o => s!"malformed operands {Recipe.listText is} for {o.name}"
  | registerOutOfRange i => s!"register r{i} out of range"
  | doubleRegisterOutOfRange i => s!"double register d{i} out of range"
  | frameTooSmall s a =>
    s!"frame of {s} words cannot hold {a} parameter words and the fixed part"
  | slotOutOfRange o s => s!"frame slot {o} out of range (size {s})"
  | slotIndexOutside i t s => s!"slot index {i} outside a {t.name} frame of {s} words"
  | entryOutOfRange i n => s!"no deoptimization entry {i} ({n} recorded)"
  | literalOutOfRange i n => s!"literal {i} out of range ({n} recorded)"
  | noInputData k => s!"{k.name} code has no deoptimization input data"
  | noOptimizedCode r f => s!"no optimized code for {r.name} bailout of {f}"
  | recipeWithoutBegin c => s!"translation starts with {c.text} instead of BEGIN"
  | notAFrame c i => s!"{c.text} where output frame {i} should start"
  | frameLiteralNotFunction v => s!"JS_FRAME literal {v.display} is not a function"
  | adaptorWithoutReceiver => "arguments adaptor frame without a receiver"
  | constructWithoutReceiver => "construct stub frame without a receiver"
  | stubFrameNotOutermost => "compiled stub frame must be the outermost output frame"
  | noBaselineCode f => s!"[method: {f}] has no unoptimized code to resume in"
  | noResumePoint n f =>
    "unable to find pc offset during deoptimization: [couldn't find pc offset for node="
      ++ s!"{n.text}] [method: {f}]"
  | duplicateOfFrame o i => s!"{o.name} marked as duplicate inside frame {i}"
  | duplicateWithoutValue i => s!"DUPLICATE without a preceding value in frame {i}"
  | notTagged c w => s!"{c.text} reads {w.display}, expected a tagged value"
  | notInteger c w => s!"{c.text} reads {w.display}, expected an untagged integer"
  | notDouble c w => s!"{c.text} reads {w.display}, expected an unboxed double"
  | notAValue c i => s!"{c.text} inside output frame {i}"
  | taggedSlotHolds o w => s!"tagged slot {o} holds {w.display}"
  | integerSlotHolds o w => s!"integer slot {o} holds {w.display}"
  | doubleSlotHolds o w => s!"double slot {o} holds {w.display}"
  | notAnArgument c => s!"{c.text} cannot describe an argument of an inlined frame"
  | inlinedFrameOutOfRange i n => s!"inlined frame {i} requested from {n} JS frames"
  | recipeEndsBeforeInlined i => s!"translation ends before inlined frame {i}"
  | materializeForDebugger =>
    "debugger frames materialize through debugger_inspectable_frame"
  | untaggedFrameWord w => s!"untagged word {w.display} in a translated JS frame"
  | inspectWithoutFunction => "debugger frames must belong to a function"
  | inspectOutsideCode pc => s!"no code object contains pc {hexText pc}"
  | inspectBetweenPoints pc => s!"pc {hexText pc} is not a deoptimization point"
  | jsFrameOutOfRange i n => s!"JS frame {i} requested from {n} inlined frames"
  | osrWithoutFunction => "on-stack replacement needs a function"
  | osrWithoutEntry f => s!"optimized code of {f} has no OSR entry"
  | osrEntryMissing n => s!"no deoptimization entry for OSR ast id {n.text}"
  | osrNotOneFrame c => s!"OSR translation must describe one frame, found {c.text}"
  | osrOtherNode n c => s!"OSR translation for node {n.text} starts with {c.text}"
  | osrTargetNotFunction => "OSR target is not a function"
  | osrHeightMismatch f a e =>
    s!"OSR height mismatch for {f}: interpreted frame has {a} words, "
      ++ s!"translation expects {e}"
  | osrCapturesArguments => "optimized code entered by OSR cannot capture an arguments object"
  | osrForeignCommand c => s!"{c.text} inside the OSR frame"
  | foreignStub s k => s!"{s} site holds a {k.name} stub"

/-- Why a hex dump cannot be read. -/
inductive HexError where
  | oddDigits
  | invalidByte (text : String)
  /-- Two bytes of the text end inside a character. -/
  | splitCharacter
deriving DecidableEq, Repr

def HexError.message : HexError → String
  | oddDigits => "odd number of hex digits"
  | invalidByte t => s!"invalid hex byte '{t}'"
  | splitCharacter => "hex digits end inside a character"

/-- Why a configuration is refused. -/
inductive ConfigError where
  /-- The text is no configuration at all. -/
  | unreadable
  | zeroPolymorphism
  | zeroCapacity
  | zeroDeoptCount
deriving DecidableEq, Repr

def ConfigError.message : ConfigError → String
  | unreadable => "Failed to parse engine config"
  | zeroPolymorphism => "max_keyed_polymorphism must be at least 1"
  | zeroCapacity => "stub_cache_capacity must be at least 1"
  | zeroDeoptCount => "max_deopt_count must be at least 1"

/-- What can end an operation early. -/
inductive Fault where
  | raised (e : Exception)
  | osrAborted (slot : Nat) (why : OsrObstacle)
  | refused (r : Refusal)
  | violated (v : Violation)
  | malformed (m : Recipe.Malformed)
  | hex (e : HexError)
  | config (e : ConfigError)
  /-- An object was to be allocated where allocation is forbidden. -/
  | allocationForbidden
  /-- Call handlers lead back to themselves without end. -/
  | endlessCall
  /-- A function of the host does not come back. -/
  | endlessHost
  /-- An address or index falls below zero. -/
  | underflow
deriving DecidableEq, Repr

namespace Fault

/-- A fault of a function of the host, as seen from outside: handlers that lead in a circle inside
of it are its own affair. -/
def inHost : Fault → Fault
  | endlessCall => endlessHost
  | f => f

/-- Whether nothing can go on after the fault. -/
def isTerminal : Fault → Bool
  | violated _ | allocationForbidden | endlessCall | endlessHost | underflow => true
  | hex .splitCharacter => true
  | _ => false

def message : Fault → String
  | raised e => e.message
  | osrAborted slot why => why.message slot
  | refused r => r.message
  | violated v => v.message
  | malformed m => m.message
  | hex e => e.message
  | config e => e.message
  | allocationForbidden => "heap allocation inside a no-allocation scope"
  | endlessCall | endlessHost => "stack overflow"
  | underflow => "address below zero"

/-- The class of a fault in reports of the tool; some faults are reported without one. -/
def className? : Fault → Option String
  | raised e => some e.kind.name
  | osrAborted _ _ => some "OsrAborted"
  | refused _ => some "InternalError"
  | violated _ => some "fatal error"
  | malformed _ | hex _ => some "DecodeError"
  | config _ => some "ConfigError"
  | allocationForbidden | endlessCall | endlessHost | underflow => none

end Fault

end Speculation
