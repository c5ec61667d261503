import Speculation.Heap.Elements

/-!
# Creating objects

Every object is allocated by `allocate`, which fails while allocation is forbidden. The initial
heap holds the roots and the two methods of strings.
-/

namespace Speculation

namespace Heap

/-- Runs a change of the heap that cannot fail and has a result. -/
def run {α : Type} (f : Heap → α × Heap) : Action α := fun h =>
  let (a, h) := f h
  (.ok a, h)

/-- Runs a change of the heap that may raise an exception. -/
def runExcept (f : Heap → Except Exception Heap) : Action Unit := do
  match f (← get) with
  | .ok h => set h
  | .error e => raise e

/-! ### Allocation -/

/-- Whether objects may be allocated. -/
def allocationAllowed (h : Heap) : Bool := h.noAllocation == 0

/-- Adds a cell. -/
def allocate (c : Cell) : Action ObjectId := do
  let h ← get
  if h.allocationAllowed then
    set { h with cells := h.cells.push c }
    return ⟨h.cells.size⟩
  else throw .allocationForbidden

/-- Adds an object with a shape and a class, its fields `undefined`. -/
def allocateObject (s : ShapeId) (c : ObjectClass) (elements : Array Value) : Action ObjectId := do
  let h ← get
  allocate (.object
    { shape := s, objectClass := c, elements
      fields := List.replicate (h.shape s).fieldCount .undefined })

/-! ### Numbers and strings -/

/-- Boxes a number. -/
def boxNumber (d : Double) : Action Value := return .object (← allocate (.number d))

/-- The small integer that a number is, if it is one; negative zero is none. -/
def smiOfNumber? (d : Double) : Option Value :=
  if d.isIntegral && !(d.isZero && d.negative) then Value.smi? d.truncate else none

/-- A number: a small integer if possible, boxed otherwise. -/
def newNumber (d : Double) : Action Value :=
  match smiOfNumber? d with
  | some v => return v
  | none => boxNumber d

/-- A new string object. -/
def newString (s : String) : Action Value := return .object (← allocate (.string s false))

/-- The unique internalized string object of a text. -/
def internalize (s : String) : Action Value := do
  match (← get).internalized.get? s with
  | some id => return .object id
  | none =>
    let id ← allocate (.string s true)
    modify fun h => { h with internalized := h.internalized.insert s id }
    return .object id

/-- The internalized string of a name. -/
def nameValue (n : Name) : Action Value := internalize n.text

/-! ### Objects with properties -/

/-- A plain object. -/
def newObject : Action ObjectId := allocateObject objectShape .plain #[]

/-- The first shape of plain objects with a prototype. -/
def initialShape (h : Heap) (prototype : Value) : ShapeId × Heap :=
  let key := prototype.objectId?
  match h.initialShapes.get? key with
  | some s => (s, h)
  | none =>
    let (s, h) := h.addShape (.make .object prototype .packedSmi)
    (s, { h with initialShapes := h.initialShapes.insert key s })

/-- A plain object with a prototype; anything but an object means none. -/
def newObjectWithPrototype (prototype : Value) : Action ObjectId := do
  let s ← run fun h => h.initialShape prototype
  allocateObject s .plain #[]

/-- An array whose elements kind fits its elements. -/
def newArray (elements : List Value) : Action ObjectId := do
  let h ← get
  let kind := elements.foldl (fun k v => k.union (h.kindFor v)) .packedSmi
  let s ← run fun h => h.elementsTransition arrayShape kind
  allocateObject s .array elements.toArray

/-- An arguments object; its length is an ordinary property. -/
def newArguments (callee : Value) (values : List Value) (strict : Bool) : Action ObjectId := do
  let id ← allocateObject argumentsShape (.arguments callee strict) values.toArray
  modify fun h => h.addProperty id .length (.smi values.length) { dontEnum := true }
  return id

/-- An object that wraps a primitive string. -/
def newStringWrapper (string : Value) : Action ObjectId :=
  allocateObject stringWrapperShape (.stringWrapper string) #[]

/-! ### Functions -/

/-- Adds the shared data of a function. -/
def newShared (name : String) (formals : Nat) (code : Option CodeId) : Action SharedId := do
  let h ← get
  set { h with shared := h.shared.push { name, formals, code } }
  return ⟨h.shared.size⟩

/-- A closure with given code; the object for its `prototype` is created first. -/
def newClosure (shared : SharedId) (code : Option CodeId) (host : Option HostFunction) :
    Action ObjectId := do
  let prototype ← newObject
  allocateObject functionShape
    (.function { shared, code, prototype := .object prototype, host }) #[]

/-- A closure that starts with the unoptimized code. -/
def newFunction (shared : SharedId) : Action ObjectId := do
  newClosure shared ((← get).sharedInfo shared).code none

/-- A function that the host provides. -/
def newHostFunction (name : String) (formals : Nat) (host : HostFunction) : Action ObjectId := do
  let shared ← newShared name formals none
  newClosure shared none (some host)

/-! ### The initial heap -/

/-- The roots. -/
def roots : Heap :=
  let plain (s : ShapeId) (c : ObjectClass) : Cell := .object { shape := s, objectClass := c }
  let inheriting (t : InstanceType) (p : ObjectId) (k : ElementsKind) : Shape :=
    .make t (.object p) k
  { cells := #[
      plain rootShape .plain,
      plain objectShape .plain,
      plain objectShape .plain,
      plain stringPrototypeShape .plain,
      plain globalShape .global,
      plain globalProxyShape (.globalProxy globalObject)]
    -- The shapes are in the order of the constants that name them.
    shapes := #[
      .make .object .null .packedSmi,
      inheriting .object objectPrototype .packedSmi,
      inheriting .object objectPrototype .packedSmi,
      inheriting .array arrayPrototype .packedSmi,
      inheriting .function functionPrototype .packedSmi,
      inheriting .arguments objectPrototype .packed,
      inheriting .stringWrapper stringPrototype .packedSmi,
      inheriting .string stringPrototype .packedSmi,
      inheriting .heapNumber objectPrototype .packedSmi,
      inheriting .globalObject objectPrototype .packedSmi,
      inheriting .globalProxy globalObject .packedSmi]
    names := [.length, .prototype, .nan, .undefined, .charAt, .charCodeAt]
    initialShapes := Table.ofList [(some objectPrototype, objectShape), (none, rootShape)] }

/-- Adds a method to the prototype of strings. -/
def installStringMethod (name : Name) (host : HostFunction) (method : StringMethod) :
    Action Unit := do
  let id ← newHostFunction name.text 1 host
  modify fun h =>
    match h.functionData? (.object id) with
    | some d => h.modifyShared d.shared fun s => { s with method := some method }
    | none => h
  modify fun h => h.addConstant stringPrototype name (.object id) { dontEnum := true }

/-- The heap that every program starts with. -/
def initial : Heap :=
  ((do
    installStringMethod .charAt .charAt .charAt
    installStringMethod .charCodeAt .charCodeAt .charCodeAt : Action Unit) roots).2

end Heap

end Speculation
