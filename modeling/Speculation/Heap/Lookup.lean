import Speculation.Heap.Basic

/-!
# Prototype chains and lookup

The prototype of an object is part of its shape; primitive values have the prototype of their
wrapper. `chain` lists the objects met by going from a value to its prototype again and again.
Prototypes lie at lower places than the objects that have them, so the number of cells bounds
the length of every chain.

A lookup goes along the chain. At each object the named interceptor, if there is one, answers
for every name; the **real** lookups pass over interceptors.
-/

namespace Speculation

/-- The outcome of looking a name up. -/
inductive Lookup where
  | notFound
  /-- A real property of `holder`. -/
  | property (holder : ObjectId) (kind : PropertyKind) (attributes : Attributes)
  /-- The interceptor of `holder` has to be asked. -/
  | interceptor (holder : ObjectId)
  /-- Adding the name to `holder` leads to a shape that is known already. -/
  | transition (holder : ObjectId) (target : ShapeId) (descriptor : Descriptor)
deriving DecidableEq, Repr, Inhabited

namespace Lookup

def isFound : Lookup → Bool
  | notFound => false
  | _ => true

def isProperty : Lookup → Bool
  | property _ _ _ => true
  | _ => false

def isInterceptor : Lookup → Bool
  | interceptor _ => true
  | _ => false

def holder? : Lookup → Option ObjectId
  | notFound => none
  | property h _ _ => some h
  | interceptor h => some h
  | transition h _ _ => some h

/-- The kind of a real property. -/
def kind? : Lookup → Option PropertyKind
  | property _ k _ => some k
  | _ => none

def isReadOnly : Lookup → Bool
  | property _ _ a => a.readOnly
  | transition _ _ d => d.attributes.readOnly
  | _ => false

def typeName : Lookup → String
  | notFound => "NONEXISTENT"
  | property _ k _ => k.name
  | interceptor _ => "INTERCEPTOR"
  | transition _ _ _ => "TRANSITION"

end Lookup

namespace Heap

/-! ### Prototypes -/

/-- The prototype of a value. -/
def prototypeOf (h : Heap) (v : Value) : Value :=
  match v with
  | .undefined | .null | .hole | .argumentsMarker => .null
  | .smi _ | .boolean _ => .object objectPrototype
  | .object id =>
    match h.cell? id with
    | some (.number _) => .object objectPrototype
    | some (.string _ _) => .object stringPrototype
    | some (.object o) => (h.shapeOf o).prototype
    | none => .null

/-- The objects from a value on along its prototypes, at most `fuel` of them. -/
def chainWithin (h : Heap) : Nat → Value → List ObjectId
  | 0, _ => []
  | fuel + 1, v =>
    match v with
    | .object id => id :: chainWithin h fuel (h.prototypeOf v)
    | _ => []

/-- The objects from a value on along its prototypes. -/
def chain (h : Heap) (v : Value) : List ObjectId := h.chainWithin (h.cells.size + 1) v

/-- Where the lookup of a property of a value starts: at the value if it is an object with
properties, otherwise at its prototype. -/
def lookupStart (h : Heap) (v : Value) : Value := if h.isJsObject v then v else h.prototypeOf v

/-- The object that a global proxy stands for; any other object stands for itself. -/
def resolveProxy (h : Heap) (id : ObjectId) : ObjectId :=
  match h.object? id with
  | some o =>
    match o.objectClass with
    | .globalProxy g => g
    | _ => id
  | none => id

/-! ### Own properties -/

/-- The real own property of an object. -/
def ownReal (h : Heap) (id : ObjectId) (name : Name) : Lookup :=
  let id := h.resolveProxy id
  match h.object? id with
  | none => .notFound
  | some o =>
    let shape := h.shapeOf o
    let entry := if shape.isDictionary then o.dictionary.get? name else none
    match entry with
    | some e => .property id .normal e.attributes
    | none =>
      match shape.descriptor? name with
      | some d => .property id d.kind d.attributes
      | none => .notFound

/-- The own property of an object, with its interceptor asked first. -/
def own (h : Heap) (id : ObjectId) (name : Name) : Lookup :=
  let id := h.resolveProxy id
  match h.object? id with
  | none => .notFound
  | some o => if (h.shapeOf o).hasInterceptor then .interceptor id else h.ownReal id name

/-! ### Lookup along the chain -/

/-- The first outcome that is not `notFound`. -/
def firstFound (look : ObjectId → Lookup) : List ObjectId → Lookup
  | [] => .notFound
  | id :: rest =>
    match look id with
    | .notFound => firstFound look rest
    | found => found

/-- Looks a name up along the whole chain of a value. -/
def lookup (h : Heap) (receiver : Value) (name : Name) : Lookup :=
  firstFound (h.own · name) (h.chain (h.lookupStart receiver))

/-- Looks a real property up in the prototypes of an object. -/
def lookupInPrototypes (h : Heap) (id : ObjectId) (name : Name) : Lookup :=
  firstFound (h.ownReal · name) (h.chain (h.prototypeOf (.object id)))

/-- Looks a real property up in an object and its prototypes. -/
def lookupReal (h : Heap) (id : ObjectId) (name : Name) : Lookup :=
  match h.ownReal id name with
  | .notFound => h.lookupInPrototypes id name
  | found => found

/-- The known shape that adding a name to an object leads to. -/
def lookupTransition (h : Heap) (id : ObjectId) (name : Name) : Lookup :=
  match h.object? id with
  | none => .notFound
  | some o =>
    match (h.shapeOf o).transitions.get? name with
    | none => .notFound
    | some target =>
      match (h.shape target).lastAdded? with
      | some d => if d.name = name then .transition id target d else .notFound
      | none => .notFound

/-! ### Values of own properties -/

/-- The value in a field. -/
def fieldValue (h : Heap) (id : ObjectId) (index : Nat) : Value :=
  match h.object? id with
  | some o => o.fields.getD index .undefined
  | none => .undefined

/-- The entry of an object's dictionary. -/
def dictionarySlot? (h : Heap) (id : ObjectId) (name : Name) : Option DictionaryEntry :=
  (h.object? id).bind fun o => o.dictionary.get? name

def dictionaryValue? (h : Heap) (id : ObjectId) (name : Name) : Option Value :=
  (h.dictionarySlot? id name).map (·.value)

/-- What an object's interceptor answers. -/
def interceptorValue? (h : Heap) (id : ObjectId) (name : Name) : Option Value :=
  (h.object? id).bind fun o => o.interceptor.get? name

end Heap

end Speculation
