import Speculation.Fault
import Speculation.Object

/-!
# The heap

The heap is a growing table of cells and a growing table of shapes. Its first cells and shapes
are the **roots**: the prototypes every program starts with, the global object and its proxy,
and the shapes that new objects of each class begin with. Roots have fixed places.

The functions of the host are no part of this library: a `Host` says what each of them does to the
`Memory` of a heap. A heap carries its host along, which never changes, and lists the calls that
were made of it. No operation reads that list.

Operations that may fail or allocate are `Heap.Action`s; a failed action keeps the changes it
made before it failed. Reading and changing what is already there are plain functions.
-/

namespace Speculation

/-- What a heap holds. -/
structure Memory where
  cells : Array Cell := #[]
  shapes : Array Shape := #[]
  shared : Array SharedInfo := #[]
  /-- Names that have been used so far. -/
  names : List Name := []
  /-- The unique string object of each internalized text. -/
  internalized : Table String ObjectId := {}
  /-- First shapes of plain objects, by prototype. -/
  initialShapes : Table (Option ObjectId) ShapeId := {}
  /-- How many scopes forbid allocation at the moment. -/
  noAllocation : Nat := 0
deriving DecidableEq, Repr, Inhabited

/-- The functions that the host provides. -/
structure Host where
  /-- What the function at a place does: given a receiver and arguments, it gives a result or
  fails, and leaves a memory in either case. -/
  run : Nat → Value → List Value → Memory → Except Fault Value × Memory

/-- A host whose functions answer one value, and do nothing else. -/
def Host.answering (v : Value) : Host := ⟨fun _ _ _ m => (.ok v, m)⟩

/-- The host whose functions do nothing. -/
def Host.idle : Host := .answering .undefined

instance : Inhabited Host := ⟨.idle⟩

instance : Repr Host := ⟨fun _ _ => "host"⟩

/-- A call of a value, with the memory that it found. -/
structure Invocation where
  memory : Memory
  callee : Value
  receiver : Value
  args : List Value
deriving DecidableEq, Repr, Inhabited

/-- The heap. -/
structure Heap extends Memory where
  host : Host := .idle
  /-- The calls that were made so far. -/
  invocations : List Invocation := []
deriving Repr, Inhabited

namespace Heap

/-- Operations that may fail; changes made before a failure stay. -/
abbrev Action := ExceptT Fault (StateM Heap)

/-- Raises an exception of the running program. -/
def raise {α : Type} (e : Exception) : Action α := throw (.raised e)

/-! ### Roots -/

def objectPrototype : ObjectId := ⟨0⟩

def arrayPrototype : ObjectId := ⟨1⟩

def functionPrototype : ObjectId := ⟨2⟩

def stringPrototype : ObjectId := ⟨3⟩

def globalObject : ObjectId := ⟨4⟩

def globalProxy : ObjectId := ⟨5⟩

/-- The root objects, by name. -/
def root? : String → Option ObjectId
  | "object_prototype" => some objectPrototype
  | "array_prototype" => some arrayPrototype
  | "function_prototype" => some functionPrototype
  | "string_prototype" => some stringPrototype
  | "global_object" => some globalObject
  | "global_proxy" => some globalProxy
  | _ => none

/-- The shape of objects without prototype. -/
def rootShape : ShapeId := ⟨0⟩

/-- The first shape of plain objects. -/
def objectShape : ShapeId := ⟨1⟩

/-- The first shape of `stringPrototype`. -/
def stringPrototypeShape : ShapeId := ⟨2⟩

def arrayShape : ShapeId := ⟨3⟩

def functionShape : ShapeId := ⟨4⟩

def argumentsShape : ShapeId := ⟨5⟩

def stringWrapperShape : ShapeId := ⟨6⟩

/-- The shape of primitive strings. -/
def stringShape : ShapeId := ⟨7⟩

/-- The shape of boxed numbers. -/
def heapNumberShape : ShapeId := ⟨8⟩

def globalShape : ShapeId := ⟨9⟩

def globalProxyShape : ShapeId := ⟨10⟩

end Heap

/-! ### Names with a meaning of their own -/

namespace Name

def length : Name := ⟨"length"⟩

def prototype : Name := ⟨"prototype"⟩

def nan : Name := ⟨"NaN"⟩

def undefined : Name := ⟨"undefined"⟩

def charAt : Name := ⟨"charAt"⟩

def charCodeAt : Name := ⟨"charCodeAt"⟩

/-- The array index that a name spells. -/
def arrayIndex? (n : Name) : Option Nat := Text.arrayIndex? n.text

end Name

namespace Heap

/-! ### Cells -/

/-- The cell at a place. -/
def cell? (h : Heap) (id : ObjectId) : Option Cell := h.cells[id.index]?

/-- The cell that a value refers to. -/
def get? (h : Heap) (v : Value) : Option Cell := v.objectId?.bind h.cell?

/-- The object with properties at a place. -/
def object? (h : Heap) (id : ObjectId) : Option JsObject :=
  match h.cell? id with
  | some (.object o) => some o
  | _ => none

/-- The object with properties that a value refers to. -/
def asObject? (h : Heap) (v : Value) : Option JsObject := v.objectId?.bind h.object?

/-- Changes the object with properties at a place. -/
def modifyObject (h : Heap) (id : ObjectId) (f : JsObject → JsObject) : Heap :=
  { h with cells := h.cells.modify id.index fun
      | .object o => .object (f o)
      | c => c }

/-! ### Shapes -/

/-- The shape with an identifier. -/
def shape (h : Heap) (s : ShapeId) : Shape := h.shapes.getD s.index default

/-- Changes a shape in place. -/
def modifyShape (h : Heap) (s : ShapeId) (f : Shape → Shape) : Heap :=
  { h with shapes := h.shapes.modify s.index f }

/-- Adds a shape. -/
def addShape (h : Heap) (s : Shape) : ShapeId × Heap :=
  (⟨h.shapes.size⟩, { h with shapes := h.shapes.push s })

/-- The shape of an object. -/
def shapeOf (h : Heap) (o : JsObject) : Shape := h.shape o.shape

/-- The shape of whatever a value refers to; immediate values have none. -/
def mapOf? (h : Heap) (v : Value) : Option ShapeId :=
  match h.get? v with
  | some (.number _) => some heapNumberShape
  | some (.string _ _) => some stringShape
  | some (.object o) => some o.shape
  | none => none

/-! ### Names -/

/-- Records that a name is in use. -/
def intern (h : Heap) (n : Name) : Heap :=
  if h.names.contains n then h else { h with names := h.names ++ [n] }

/-! ### Functions -/

/-- The data shared by all closures of a function. -/
def sharedInfo (h : Heap) (s : SharedId) : SharedInfo := h.shared.getD s.index default

def modifyShared (h : Heap) (s : SharedId) (f : SharedInfo → SharedInfo) : Heap :=
  { h with shared := h.shared.modify s.index f }

/-- The data of a function value. -/
def functionData? (h : Heap) (v : Value) : Option FunctionData :=
  (h.asObject? v).bind JsObject.function?

/-- The shared data of a function value. -/
def functionShared? (h : Heap) (v : Value) : Option SharedInfo :=
  (h.functionData? v).map fun d => h.sharedInfo d.shared

/-- Changes the data of a function object. -/
def modifyFunction (h : Heap) (id : ObjectId) (f : FunctionData → FunctionData) : Heap :=
  h.modifyObject id fun o =>
    match o.objectClass with
    | .function d => { o with objectClass := .function (f d) }
    | _ => o

/-- Sets the code that a function runs. -/
def setFunctionCode (h : Heap) (id : ObjectId) (code : Option CodeId) : Heap :=
  h.modifyFunction id fun d => { d with code }

/-! ### Classes of values -/

def classOf? (h : Heap) (v : Value) : Option ObjectClass := (h.asObject? v).map (·.objectClass)

def isHeapNumber (h : Heap) (v : Value) : Bool :=
  match h.get? v with
  | some (.number _) => true
  | _ => false

/-- Small integers and boxed numbers. -/
def isNumber (h : Heap) (v : Value) : Bool := v.isSmi || h.isHeapNumber v

/-- The number that a value is. -/
def numberValue? (h : Heap) (v : Value) : Option Double :=
  match v with
  | .smi i => some (Double.ofInt i)
  | _ =>
    match h.get? v with
    | some (.number d) => some d
    | _ => none

def isString (h : Heap) (v : Value) : Bool :=
  match h.get? v with
  | some (.string _ _) => true
  | _ => false

def isInternalized (h : Heap) (v : Value) : Bool :=
  match h.get? v with
  | some (.string _ internalized) => internalized
  | _ => false

/-- The text of a primitive string. -/
def string? (h : Heap) (v : Value) : Option String :=
  match h.get? v with
  | some (.string s _) => some s
  | _ => none

def isJsObject (h : Heap) (v : Value) : Bool := (h.asObject? v).isSome

def isArray (h : Heap) (v : Value) : Bool :=
  match h.classOf? v with
  | some .array => true
  | _ => false

def isFunction (h : Heap) (v : Value) : Bool :=
  match h.classOf? v with
  | some (.function _) => true
  | _ => false

def isStringWrapper (h : Heap) (v : Value) : Bool :=
  match h.classOf? v with
  | some (.stringWrapper _) => true
  | _ => false

def isGlobalObject (h : Heap) (v : Value) : Bool :=
  match h.classOf? v with
  | some .global => true
  | _ => false

def isGlobalProxy (h : Heap) (v : Value) : Bool :=
  match h.classOf? v with
  | some (.globalProxy _) => true
  | _ => false

def isArguments (h : Heap) (v : Value) : Bool :=
  match h.classOf? v with
  | some (.arguments _ _) => true
  | _ => false

/-- Arguments objects whose elements stand for the parameters. -/
def isNonStrictArguments (h : Heap) (v : Value) : Bool :=
  match h.classOf? v with
  | some (.arguments _ false) => true
  | _ => false

/-- The elements kind of an object. -/
def elementsKind? (h : Heap) (v : Value) : Option ElementsKind :=
  (h.asObject? v).map fun o => (h.shapeOf o).elementsKind

/-- The narrowest elements kind that admits a value. -/
def kindFor (h : Heap) (v : Value) : ElementsKind :=
  match v with
  | .smi _ => .packedSmi
  | .hole => .holeySmi
  | _ => if h.isHeapNumber v then .packedDouble else .packed

/-- What a call of an object that is no function calls instead. -/
def delegate? (h : Heap) (v : Value) : Option Value :=
  match h.asObject? v with
  | some o => if o.function?.isSome then none else o.callHandler.map Value.object
  | none => none

def isCallable (h : Heap) (v : Value) : Bool := h.isFunction v || (h.delegate? v).isSome

/-- The classes that a value belongs to, by name. -/
def classNames (h : Heap) (v : Value) : List String :=
  let classes : List (String × Bool) :=
    [("smi", v.isSmi), ("undefined", v.isUndefined), ("null", v.isNull),
     ("nullish", v.isNullish), ("heap_object", v.isReference), ("hole", v.isHole),
     ("heap_number", h.isHeapNumber v), ("number", h.isNumber v), ("string", h.isString v),
     ("internalized", h.isInternalized v), ("js_object", h.isJsObject v),
     ("array", h.isArray v), ("function", h.isFunction v),
     ("string_wrapper", h.isStringWrapper v), ("global_object", h.isGlobalObject v),
     ("global_proxy", h.isGlobalProxy v), ("arguments", h.isArguments v),
     ("non_strict_arguments", h.isNonStrictArguments v), ("callable", h.isCallable v)]
  (classes.filter fun c => c.2).map fun c => c.1

/-- A short description of a value for messages. -/
def describe (h : Heap) (v : Value) : String :=
  match v with
  | .object id =>
    match h.cell? id with
    | some (.number d) => d.toText
    | some (.string s _) => s
    | some (.object o) =>
      match o.objectClass with
      | .array => "#<Array>"
      | .function d => s!"function {(h.sharedInfo d.shared).name}"
      | .arguments _ _ => "#<Arguments>"
      | .global | .globalProxy _ => "#<Global>"
      | .stringWrapper _ => "#<String>"
      | .plain => "#<Object>"
    | none => v.display
  | _ => v.display

end Heap

end Speculation
