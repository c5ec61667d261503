import Speculation.Cache.StubTable
import Speculation.Heap.Convert

/-!
# Guards

A specialized stub is right only for receivers like the one it was made for. Its guards say what
that means: the shape of the receiver, the shapes of the objects on the prototype chain up to the
holder, and, for objects in dictionary mode, whose shapes say nothing about their properties,
that they do not own the name. `chainGuards` collects the guards when a stub is made,
`guardsHold` checks them when it runs.
-/

namespace Speculation

namespace Heap

/-! ### Shapes of receivers -/

/-- The shape that stands for a receiver in guards. Small integers count as boxed numbers; other
immediate values have no shape. -/
def receiverShape? (h : Heap) (receiver : Value) : Option ShapeId :=
  match receiver with
  | .smi _ => some heapNumberShape
  | _ => h.mapOf? receiver

/-- Where stubs for a receiver are filed. -/
def cacheHolder (h : Heap) (receiver : Value) : CacheHolder :=
  if h.isJsObject receiver then .ownShape else .prototypeShape

/-- The shape under which stubs for a receiver are filed. -/
def filingShape? (h : Heap) (receiver : Value) (holder : CacheHolder) : Option ShapeId :=
  match holder with
  | .ownShape => if h.isJsObject receiver then h.mapOf? receiver else none
  | .prototypeShape => h.mapOf? (h.prototypeOf receiver)

/-- The shape under which a megamorphic site of a kind looks for stubs for a receiver. -/
def probeShape? (h : Heap) (kind : SiteKind) (receiver : Value) : Option ShapeId :=
  if kind.isCall && !h.isJsObject receiver then h.mapOf? (h.prototypeOf receiver)
  else h.receiverShape? receiver

/-! ### Guards along the chain -/

/-- What a stub assumes about the objects between its receiver and its holder. -/
structure ChainGuards where
  prototypeChecks : List (ObjectId × ShapeId) := []
  absentChecks : List Holder := []
deriving DecidableEq, Repr, Inhabited

/-- Guards for objects of the chain, up to and including the holder. -/
def guardsAlong (h : Heap) (holder : Option ObjectId) : List ObjectId → ChainGuards
  | [] => {}
  | id :: rest =>
    match h.object? id with
    | none => {}
    | some o =>
      if some id = holder then { prototypeChecks := [(id, o.shape)] }
      else
        let g := guardsAlong h holder rest
        if (h.shapeOf o).isDictionary then { g with absentChecks := .object id :: g.absentChecks }
        else { g with prototypeChecks := (id, o.shape) :: g.prototypeChecks }

/-- Guards for an access that ends at `holder`, or at the end of the chain without one. -/
def chainGuards (h : Heap) (receiver : Value) (holder : Option ObjectId) : ChainGuards :=
  let g := h.guardsAlong holder (h.chain (h.prototypeOf receiver))
  match h.asObject? receiver with
  | none => g
  | some o =>
    if receiver.objectId? = holder then {}
    else if (h.shapeOf o).isDictionary then { g with absentChecks := .receiver :: g.absentChecks }
    else g

/-- The specification of a stub for receivers like the given one. -/
def monomorphicSpec? (h : Heap) (kind : SiteKind) (mode : SiteMode) (handler : Handler)
    (receiver : Value) (holder : Option ObjectId) (name : Name) : Option StubSpec :=
  (h.receiverShape? receiver).map fun shape =>
    let g := h.chainGuards receiver holder
    { kind, state := .monomorphic, mode, handler
      name := some name
      receiverShapes := [shape]
      prototypeChecks := g.prototypeChecks
      absentChecks := g.absentChecks
      cacheHolder := h.cacheHolder receiver }

/-! ### Checking -/

/-- The object that a holder stands for. -/
def holderId? (h : Heap) (receiver : Value) : Holder → Option ObjectId
  | .receiver => receiver.objectId?.filter fun _ => h.isJsObject receiver
  | .object id => some id

/-- Whether an object's dictionary has a name. -/
def ownsInDictionary (h : Heap) (id : ObjectId) (name : Name) : Bool :=
  (h.dictionarySlot? id name).isSome

/-- Whether an object still has a shape. -/
def hasShape (h : Heap) (id : ObjectId) (shape : ShapeId) : Bool :=
  match h.object? id with
  | some o => o.shape == shape
  | none => false

/-- Whether all guards of a stub hold for an access. -/
def guardsHold (h : Heap) (spec : StubSpec) (receiver : Value) (name : Option Name) : Bool :=
  (spec.name.isNone || name == spec.name) &&
  (spec.receiverShapes.isEmpty ||
    (match h.receiverShape? receiver with
    | some shape => spec.receiverShapes.contains shape
    | none => false)) &&
  (spec.prototypeChecks.all fun c => h.hasShape c.1 c.2) &&
  (match spec.name with
  | none => true
  | some n => spec.absentChecks.all fun holder =>
      match h.holderId? receiver holder with
      | some id => !h.ownsInDictionary id n
      | none => false)

end Heap

/-- The shape under which a megamorphic site would find a stub: stubs for primitive receivers
stand under the shape of the first prototype they check. -/
def Stub.probeShape? (s : Stub) : Option ShapeId :=
  match s.spec.cacheHolder with
  | .ownShape => s.firstShape?
  | .prototypeShape => s.spec.prototypeChecks.head?.map Prod.snd

end Speculation
