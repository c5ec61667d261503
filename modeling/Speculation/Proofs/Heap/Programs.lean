import Speculation.Heap.Access
import Speculation.Proofs.Heap.Growth

/-!
# What programs do to a heap

A `HeapOperation` is something that a program does to a heap by itself: it allocates, it changes an
object, a shape or a function. Reading and writing properties in general is an `Access`, which may
call functions of the program; among the operations, `store` stands for a store that calls no setter.

Some facts about heaps hold only if the program keeps to a discipline of its own. `Rules` says to
which, and `op.Allowed rules h` what this means for one operation.

* With **fresh names**, properties are added only under names that the object does not own.
* With **plain arrays**, no array is given a data property `length`.
* With **object prototypes**, every prototype is null or an object with properties.
* With **string wrappers**, every wrapper wraps a primitive string.
* With **widening**, every elements transition leads to a more general kind.

`h.Steps fine h'` says that operations lead from one heap to the other, each of which was fine where
it was performed. What a host function does to the memory of a heap is of this form, whatever else
is known of it.
-/

namespace Speculation

/-- A discipline that a program may keep to. -/
structure Rules where
  /-- Properties are added only under names that the object does not own. -/
  freshNames : Bool := false
  /-- No array is given a data property `length`. -/
  plainArrays : Bool := false
  /-- Every prototype is null or an object with properties. -/
  objectPrototypes : Bool := false
  /-- Every string wrapper wraps a primitive string. -/
  stringWrappers : Bool := false
  /-- Elements transitions are asked for only to more general kinds. -/
  widening : Bool := false
deriving DecidableEq, Repr

namespace Heap

/-- Whether the rules allow to give an object a data property. -/
structure MayAdd (rules : Rules) (h : Heap) (id : ObjectId) (name : Name) : Prop where
  fresh : rules.freshNames → ∀ o, h.object? id = some o → (h.shapeOf o).isDictionary = false →
    (h.shapeOf o).descriptor? name = none
  array : rules.plainArrays → name = .length → ∀ o, h.object? id = some o →
    o.objectClass ≠ .array

/-- What may be the prototype of a new object. -/
structure MayInherit (rules : Rules) (h : Heap) (prototype : Value) : Prop where
  allocated : ∀ {p}, prototype = .object p → p.index < h.cells.size
  object : rules.objectPrototypes → ∀ p, prototype = .object p → h.isJsObject prototype

/-- Calls nothing, where a call is asked for. -/
def callNothing : Caller := fun _ _ _ => pure .undefined

end Heap

/-! ### Operations -/

/-- What a program does to a heap by itself. -/
inductive HeapOperation where
  | intern (name : Name)
  | number (value : Double)
  | boxedNumber (value : Double)
  | string (text : String)
  | internalize (text : String)
  | object
  | objectWithPrototype (prototype : Value)
  | array (elements : List Value)
  | arguments (callee : Value) (values : List Value) (strict : Bool)
  | stringWrapper (string : Value)
  | shared (name : String) (formals : Nat) (code : Option CodeId)
  | closure (shared : SharedId)
  | hostFunction (name : String) (formals : Nat) (host : HostFunction)
  | addProperty (id : ObjectId) (name : Name) (v : Value) (a : Attributes)
  | addConstant (id : ObjectId) (name : Name) (v : Value) (a : Attributes)
  | addAccessor (id : ObjectId) (name : Name) (getter setter : Value)
  | setField (id : ObjectId) (index : Nat) (v : Value)
  | setDictionaryValue (id : ObjectId) (name : Name) (v : Value)
  | normalize (id : ObjectId)
  | delete (id : ObjectId) (name : Name)
  | setInterceptor (id : ObjectId) (values : Table Name Value)
  | setCallHandler (id handler : ObjectId)
  | setGlobal (name : Name) (v : Value) (a : Attributes)
  | setContext (id : ObjectId) (context : Value)
  | setCode (id : ObjectId) (code : Option CodeId)
  | modifyShared (shared : SharedId) (f : SharedInfo → SharedInfo)
  | elementsShape (s : ShapeId) (kind : ElementsKind)
  | generalizeElements (id : ObjectId) (kind : ElementsKind)
  | setArrayLength (id : ObjectId) (v : Value)
  | scopes (noAllocation : Nat)
  | setElement (receiver : Value) (index : Nat) (v : Value)
  /-- A store that calls no setter. -/
  | store (receiver : Value) (name : Name) (v : Value) (strict : Bool)

namespace HeapOperation

/-- The heap after an operation, also if it failed. -/
def perform (h : Heap) : HeapOperation → Heap
  | intern n => h.intern n
  | number d => (Heap.newNumber d h).2
  | boxedNumber d => (Heap.boxNumber d h).2
  | string s => (Heap.newString s h).2
  | internalize s => (Heap.internalize s h).2
  | object => (Heap.newObject h).2
  | objectWithPrototype p => (Heap.newObjectWithPrototype p h).2
  | array vs => (Heap.newArray vs h).2
  | arguments f vs strict => (Heap.newArguments f vs strict h).2
  | stringWrapper v => (Heap.newStringWrapper v h).2
  | shared n k c => (Heap.newShared n k c h).2
  | closure s => (Heap.newFunction s h).2
  | hostFunction n k f => (Heap.newHostFunction n k f h).2
  | addProperty id n v a => h.addProperty id n v a
  | addConstant id n v a => h.addConstant id n v a
  | addAccessor id n g s => h.addAccessor id n g s
  | setField id i v => h.setField id i v
  | setDictionaryValue id n v => h.setDictionaryValue id n v
  | normalize id => h.normalize id
  | delete id n => (h.delete id n).2
  | setInterceptor id vs => h.setInterceptor id vs
  | setCallHandler id f => h.setCallHandler id f
  | setGlobal n v a => h.setGlobal n v a
  | setContext id v => h.modifyFunction id fun d => { d with context := v }
  | setCode id c => h.setFunctionCode id c
  | modifyShared s f => h.modifyShared s f
  | elementsShape s k => (h.elementsTransition s k).2
  | generalizeElements id k => h.generalizeElements id k
  | setArrayLength id v => (Heap.setArrayLength id v h).2
  | scopes n => { h with noAllocation := n }
  | setElement r i v => (Heap.setElement r i v h).2
  | store r n v strict => (Heap.setPropertyWith Heap.callNothing r n v strict h).2

/-- What the rules ask of an operation. Whatever they say, prototypes and shapes exist. -/
def Allowed (rules : Rules) (h : Heap) : HeapOperation → Prop
  | objectWithPrototype p => Heap.MayInherit rules h p
  | stringWrapper v => rules.stringWrappers → h.isString v
  | addProperty id n _ _ | addConstant id n _ _ => Heap.MayAdd rules h id n
  | addAccessor id n _ _ => rules.freshNames → ∀ o, h.object? id = some o →
    (h.shapeOf o).descriptor? n = none
  | elementsShape s k => s.index < h.shapes.size ∧ (rules.widening → (h.shape s).elementsKind.le k)
  | _ => True

end HeapOperation

/-! ### Accesses -/

/-- What a program asks of a heap that may call functions. -/
inductive Access where
  | getProperty (receiver : Value) (name : Name)
  | setProperty (receiver : Value) (name : Name) (v : Value) (strict : Bool)
  | getElement (receiver : Value) (index : Nat)
  | getNamed (receiver : Value) (name : Name)
  | setNamed (receiver : Value) (name : Name) (v : Value) (strict : Bool)
  | getKeyed (receiver key : Value)
  | setKeyed (receiver key v : Value) (strict : Bool)
  | call (callee receiver : Value) (args : List Value)

/-- The heap after an access, also if it failed. -/
def Access.perform (h : Heap) : Access → Heap
  | getProperty r n => (Heap.getProperty r n h).2
  | setProperty r n v strict => (Heap.setProperty r n v strict h).2
  | getElement r i => (Heap.getElement r i h).2
  | getNamed r n => (Heap.getNamed r n h).2
  | setNamed r n v strict => (Heap.setNamed r n v strict h).2
  | getKeyed r k => (Heap.getKeyed r k h).2
  | setKeyed r k v strict => (Heap.setKeyed r k v strict h).2
  | call f r args => (Heap.call f r args h).2

namespace Heap

/-! ### Outside the memory -/

section Outside

variable (h : Heap) (id : ObjectId) (name : Name)

theorem outside_transitionTarget (s : ShapeId) (d : Descriptor) :
    (h.transitionTarget s d).2.outside = h.outside := by
  unfold transitionTarget
  split
  · split <;> rfl
  · rfl

theorem outside_elementsTransition (s : ShapeId) (k : ElementsKind) :
    (h.elementsTransition s k).2.outside = h.outside := by
  unfold elementsTransition
  split
  · rfl
  · split <;> rfl

theorem outside_initialShape (prototype : Value) : (h.initialShape prototype).2.outside = h.outside := by
  unfold initialShape
  dsimp only
  cases h.initialShapes.get? prototype.objectId? <;> rfl

theorem outside_addProperty (v : Value) (a : Attributes) :
    (h.addProperty id name v a).outside = h.outside := by
  unfold addProperty
  split
  · rfl
  · dsimp only
    split
    · rfl
    · exact outside_transitionTarget h _ _

theorem outside_addConstant (v : Value) (a : Attributes) :
    (h.addConstant id name v a).outside = h.outside := by
  unfold addConstant
  split
  · rfl
  · dsimp only
    split
    · exact h.outside_addProperty id name v a
    · exact outside_transitionTarget h _ _

theorem outside_addAccessor (getter setter : Value) :
    (h.addAccessor id name getter setter).outside = h.outside := by
  unfold addAccessor
  split
  · rfl
  · exact outside_transitionTarget ..

theorem outside_setInterceptor (values : Table Name Value) :
    (h.setInterceptor id values).outside = h.outside := by
  unfold setInterceptor
  split <;> rfl

theorem outside_normalize : (h.normalize id).outside = h.outside := by
  unfold normalize
  split
  · rfl
  · dsimp only
    split <;> rfl

theorem outside_delete : (h.delete id name).2.outside = h.outside := by
  unfold delete
  dsimp only
  split
  · rfl
  · split
    · exact h.outside_normalize _
    · split
      · split <;> exact h.outside_normalize _
      · exact h.outside_normalize _

theorem outside_writeOwn (kind : PropertyKind) (v : Value) :
    (h.writeOwn id name kind v).outside = h.outside := by
  cases kind with
  | constant c =>
    change (h.constantToField id name v).outside = h.outside
    unfold constantToField
    split <;> rfl
  | _ => rfl

theorem outside_generalizeElements (k : ElementsKind) :
    (h.generalizeElements id k).outside = h.outside := by
  unfold generalizeElements
  split
  · rfl
  · split
    · exact outside_elementsTransition h _ k
    · rfl

theorem outside_intern (n : Name) : (h.intern n).outside = h.outside := by
  unfold intern
  split <;> rfl

variable {h} {id} {h' : Heap} {v : Value}

theorem outside_storeArrayLength (e : h.storeArrayLength id v = .ok h') : h'.outside = h.outside := by
  unfold storeArrayLength at e
  split at e
  · cases e
  · split at e
    · cases e
      rfl
    · split at e
      · cases e
      · injection e with e
        rw [← e]
        dsimp only [modifyObject]
        split
        · exact h.outside_generalizeElements id _
        · rfl

theorem outside_storeElement {index : Nat} (e : h.storeElement id index v = .ok h') :
    h'.outside = h.outside := by
  unfold storeElement at e
  split at e
  · cases e
    rfl
  · dsimp only at e
    split at e
    · cases e
    · injection e with e
      rw [← e]
      exact h.outside_generalizeElements id _

end Outside

end Heap

/-! ### Sequences of operations -/

namespace Heap

/-- Operations lead from a heap to another one, and each is fine where it is performed. -/
inductive Steps (fine : Heap → HeapOperation → Prop) (h : Heap) : Heap → Prop
  | refl : Steps fine h h
  | step {h' : Heap} (s : Steps fine h h') (op : HeapOperation) (ok : fine h' op) :
      Steps fine h (op.perform h')

variable {fine fine' : Heap → HeapOperation → Prop} {h h' h'' : Heap}

theorem Steps.single (op : HeapOperation) (ok : fine h op) : h.Steps fine (op.perform h) :=
  .step .refl op ok

theorem Steps.trans (s : h.Steps fine h') (s' : h'.Steps fine h'') : h.Steps fine h'' := by
  induction s' with
  | refl => exact s
  | step _ op ok ih => exact .step ih op ok

theorem Steps.mono (s : h.Steps fine h') (weaker : ∀ g op, fine g op → fine' g op) :
    h.Steps fine' h' := by
  induction s with
  | refl => exact .refl
  | step _ op ok ih => exact .step ih op (weaker _ op ok)

/-- What every operation keeps, a sequence of operations keeps. -/
theorem Steps.rel {R : Heap → Heap → Prop} (refl : R h h)
    (step : ∀ {g : Heap} (op : HeapOperation), R h g → fine g op → R h (op.perform g))
    (s : h.Steps fine h') : R h h' := by
  induction s with
  | refl => exact refl
  | step _ op ok ih => exact step op ih ok

end Heap

end Speculation
