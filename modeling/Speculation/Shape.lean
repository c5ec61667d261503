import Speculation.Cache.Stub
import Speculation.Table

/-!
# Shapes

Every object has a shape: its type, prototype, elements kind and the list of its named
properties. What an inline cache checks of a shape never changes; adding a property or changing
the elements kind moves the object to another shape. Shapes remember where such moves led
(`transitions`), so that objects built alike share their shapes, and they keep the stubs that
were made for them (`codeCache`).
-/

namespace Speculation

/-- Attributes of a property. -/
structure Attributes where
  readOnly : Bool := false
  dontEnum : Bool := false
  dontDelete : Bool := false
deriving DecidableEq, Repr, Inhabited

namespace Attributes

/-- The attributes as a word of bits. -/
def bits (a : Attributes) : Nat :=
  (if a.readOnly then 1 else 0) + (if a.dontEnum then 2 else 0) + (if a.dontDelete then 4 else 0)

/-- The attributes given by the three lowest bits of a word. -/
def ofBits (n : Nat) : Attributes :=
  { readOnly := n % 2 == 1, dontEnum := n / 2 % 2 == 1, dontDelete := n / 4 % 2 == 1 }

end Attributes

/-- Types of heap objects that caches tell apart. -/
inductive InstanceType where
  /-- A primitive string. -/
  | string
  /-- A boxed number. -/
  | heapNumber
  | object
  | array
  | function
  | stringWrapper
  | globalObject
  | globalProxy
  | arguments
deriving DecidableEq, Repr, Inhabited

def InstanceType.name : InstanceType → String
  | string => "String"
  | heapNumber => "HeapNumber"
  | object => "Object"
  | array => "Array"
  | function => "Function"
  | stringWrapper => "StringWrapper"
  | globalObject => "GlobalObject"
  | globalProxy => "GlobalProxy"
  | arguments => "Arguments"

/-- Where a named property is kept. -/
inductive PropertyKind where
  /-- In the field with this index. -/
  | field (index : Nat)
  /-- In the shape itself. -/
  | constant (value : Value)
  /-- In the dictionary of the object. -/
  | normal
  /-- An accessor pair; either side may be `undefined`. -/
  | accessor (getter setter : Value)
deriving DecidableEq, Repr, Inhabited

namespace PropertyKind

def name : PropertyKind → String
  | field _ => "FIELD"
  | constant _ => "CONSTANT"
  | normal => "NORMAL"
  | accessor _ _ => "CALLBACKS"

def isField : PropertyKind → Bool
  | field _ => true
  | _ => false

def isAccessor : PropertyKind → Bool
  | accessor _ _ => true
  | _ => false

end PropertyKind

/-- A named property of a shape. -/
structure Descriptor where
  name : Name
  kind : PropertyKind
  attributes : Attributes
deriving DecidableEq, Repr, Inhabited

/-- A shape. -/
structure Shape where
  instanceType : InstanceType
  prototype : Value
  elementsKind : ElementsKind
  /-- Properties are in the dictionaries of the objects. -/
  isDictionary : Bool := false
  /-- Reads of named properties ask the object's interceptor first. -/
  hasInterceptor : Bool := false
  descriptors : List Descriptor := []
  /-- Shapes reached by adding a property. -/
  transitions : Table Name ShapeId := {}
  /-- Shapes reached by changing the elements kind. -/
  elementsTransitions : Table ElementsKind ShapeId := {}
  /-- Stubs made for objects of this shape, by property name. -/
  codeCache : Table Name (List Stub) := {}
deriving DecidableEq, Repr, Inhabited

namespace Shape

/-- A shape without properties. Global objects are in dictionary mode from the start. -/
def make (instanceType : InstanceType) (prototype : Value) (elementsKind : ElementsKind) : Shape :=
  { instanceType, prototype, elementsKind, isDictionary := instanceType == .globalObject }

/-- The same layout, without transitions and stubs. -/
def derive (s : Shape) : Shape :=
  { s with transitions := {}, elementsTransitions := {}, codeCache := {} }

/-- The descriptor of a name. -/
def descriptor? (s : Shape) (name : Name) : Option Descriptor :=
  s.descriptors.find? fun d => d.name == name

/-- How many fields objects of this shape have. -/
def fieldCount (s : Shape) : Nat := s.descriptors.countP fun d => d.kind.isField

/-- The descriptor that was added last. -/
def lastAdded? (s : Shape) : Option Descriptor := s.descriptors.getLast?

/-- The first stub kept for a name that satisfies a test. -/
def cachedStub? (s : Shape) (name : Name) (test : Stub → Bool) : Option Stub :=
  ((s.codeCache.get? name).getD []).find? test

/-- Keeps a stub for a name. -/
def keepStub (s : Shape) (name : Name) (stub : Stub) : Shape :=
  { s with codeCache := s.codeCache.insert name ((s.codeCache.get? name).getD [] ++ [stub]) }

/-- Forgets a stub kept for a name. -/
def forgetStub (s : Shape) (name : Name) (id : Nat) : Shape :=
  match s.codeCache.get? name with
  | none => s
  | some stubs => { s with codeCache := s.codeCache.insert name (stubs.eraseP fun t => t.id == id) }

/-- Whether a stub is kept for a name. -/
def keepsStub (s : Shape) (name : Name) (id : Nat) : Bool :=
  ((s.codeCache.get? name).getD []).any fun t => t.id == id

/-- How many stubs are kept. -/
def cachedStubs (s : Shape) : Nat := (s.codeCache.toList.flatMap (·.2)).length

end Shape

end Speculation
