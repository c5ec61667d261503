import Speculation.Double.Text
import Speculation.Shape
import Speculation.Text.Units

/-!
# Objects of the heap

A heap cell is a boxed number, a primitive string, or an object with properties. An object has
a shape, fields for the properties that its shape describes, a dictionary for those that it does
not, indexed elements, and data of its class.

Functions that can be called are **host functions**: the two methods of strings, and those that
the host provides, of which the heap knows no more than which is which. Functions without one stand
for interpreted code, which is not executed here.
-/

namespace Speculation

/-- What a callable function does. -/
inductive HostFunction where
  /-- A function of the host, by its place among these. -/
  | provided (index : Nat)
  /-- The character of a string at a position. -/
  | charAt
  /-- The code unit of a string at a position. -/
  | charCodeAt
deriving DecidableEq, Repr, Inhabited

/-- String methods that call sites know. -/
inductive StringMethod where
  | charAt
  | charCodeAt
deriving DecidableEq, Repr, Inhabited

def StringMethod.name : StringMethod → String
  | charAt => "StringCharAt"
  | charCodeAt => "StringCharCodeAt"

/-- Data shared by all closures of one function. -/
structure SharedInfo where
  name : String
  formals : Nat
  /-- Unoptimized code. -/
  code : Option CodeId := none
  /-- How often optimized code of the function bailed out. -/
  deoptCount : Nat := 0
  /-- Whether the function is never optimized again. -/
  optimizationDisabled : Bool := false
  method : Option StringMethod := none
deriving DecidableEq, Repr, Inhabited

/-- Data of a function object. -/
structure FunctionData where
  shared : SharedId
  /-- The code that runs now, optimized or not. -/
  code : Option CodeId
  context : Value := .undefined
  /-- The value of the property `prototype`. -/
  prototype : Value
  host : Option HostFunction
deriving DecidableEq, Repr, Inhabited

/-- The class of an object with its data. -/
inductive ObjectClass where
  | plain
  | array
  | function (data : FunctionData)
  /-- Wraps a primitive string. -/
  | stringWrapper (string : Value)
  | global
  /-- Stands for a global object. -/
  | globalProxy (global : ObjectId)
  | arguments (callee : Value) (strict : Bool)
deriving DecidableEq, Repr, Inhabited

def ObjectClass.name : ObjectClass → String
  | plain => "Plain"
  | array => "Array"
  | function _ => "Function"
  | stringWrapper _ => "StringWrapper"
  | global => "Global"
  | globalProxy _ => "GlobalProxy"
  | arguments _ _ => "Arguments"

/-- A property kept in a dictionary. -/
structure DictionaryEntry where
  value : Value
  attributes : Attributes
deriving DecidableEq, Repr, Inhabited

/-- An object with properties. -/
structure JsObject where
  shape : ShapeId
  objectClass : ObjectClass
  fields : List Value := []
  dictionary : Table Name DictionaryEntry := {}
  elements : Array Value := #[]
  /-- Values that the interceptor answers with. -/
  interceptor : Table Name Value := {}
  /-- What is called when this object, which is no function, is called. -/
  callHandler : Option ObjectId := none
deriving DecidableEq, Repr, Inhabited

/-- The data of a function object. -/
def JsObject.function? (o : JsObject) : Option FunctionData :=
  match o.objectClass with
  | .function d => some d
  | _ => none

/-- A cell of the heap. -/
inductive Cell where
  | number (value : Double)
  | string (text : String) (internalized : Bool)
  | object (data : JsObject)
deriving DecidableEq, Repr, Inhabited

end Speculation
