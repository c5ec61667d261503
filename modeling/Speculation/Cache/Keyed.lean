import Speculation.Cache.Store

/-!
# Loads and stores by computed keys

Keys that are names take the named paths. Integer keys of objects specialize on the elements
kind: one shape gives a monomorphic stub, a few give a polymorphic one, and beyond the
configured number of shapes, or if the same shapes come again, the site goes generic for good.
`elementLoadSpec` and `elementStoreSpec` make that decision and only read the heap.
-/

namespace Speculation

/-- Why a site stops specializing. -/
inductive GiveUp where
  /-- The stub asked for it. -/
  | forced
  /-- The stub missed although it knows the shape. -/
  | sameShape
  | tooManyShapes
deriving DecidableEq, Repr

def GiveUp.reason : GiveUp → String
  | forced => "force generic"
  | sameShape => "same shape added twice"
  | tooManyShapes => "max polymorph exceeded"

namespace Heap

/-- The elements kind of a shape. -/
def kindOfShape (h : Heap) (s : ShapeId) : ElementsKind := (h.shape s).elementsKind

/-! ### Loads -/

/-- The stub for element loads of one shape. -/
def elementLoadOf (h : Heap) (kind : SiteKind) (mode : SiteMode) (s : ShapeId) : StubSpec :=
  { kind, state := .monomorphic, mode, handler := .loadElement (h.kindOfShape s)
    receiverShapes := [s] }

/-- The shapes that a site with element loads knows. -/
def loadShapes (target : Stub) : List ShapeId :=
  if target.handler = .loadIndexedString then [stringShape] else target.spec.receiverShapes

/-- What a polymorphic load does for a shape. -/
def elementLoadFor (h : Heap) (s : ShapeId) : ElementLoad :=
  if s = stringShape then .string else .elements (h.kindOfShape s)

/-- The stub after an element load of an object with shape `s`. An object that only generalized
its elements is expected to stay so, and replaces the shape that the site knew. -/
def elementLoadSpec (h : Heap) (site : Site) (limit : Nat) (s : ShapeId) :
    Except GiveUp StubSpec :=
  let target := site.target
  let shapes := loadShapes target
  let alone : StubSpec := h.elementLoadOf site.kind site.mode s
  match target.state, shapes with
  | .uninitialized, _ | .premonomorphic, _ | _, [] => .ok alone
  | state, first :: _ =>
    if state = .monomorphic && (h.kindOfShape first).generalizesTo (h.kindOfShape s) then .ok alone
    else if shapes.contains s then .error .sameShape
    else if limit < shapes.length + 1 then .error .tooManyShapes
    else
      let shapes := shapes ++ [s]
      .ok
        { kind := site.kind, state := .polymorphic, mode := site.mode
          handler := .loadElementPolymorphic (shapes.map h.elementLoadFor)
          receiverShapes := shapes }

/-- The stub after a load by a computed key that is no name. -/
def keyedLoadSpec (h : Heap) (site : Site) (limit : Nat) (receiver key : Value) (force : Bool) :
    Except GiveUp StubSpec :=
  let simple (handler : Handler) : StubSpec :=
    { kind := site.kind, state := .monomorphic, mode := site.mode, handler }
  let generic : StubSpec := .generic site.kind site.mode
  if force then .error .forced
  else if h.isString receiver && h.isNumber key then
    .ok (if site.targetState = .uninitialized then simple .loadIndexedString else generic)
  else if h.isNonStrictArguments receiver then .ok (simple .loadNonStrictArguments)
  else if h.isJsObject receiver && key.isSmi &&
      site.target.handler ≠ .loadNonStrictArguments then
    match h.mapOf? receiver with
    | some s => h.elementLoadSpec site limit s
    | none => .ok generic
  else .ok generic

/-! ### Stores -/

/-- The elements kind that a store forces an object into. -/
def forcedKind? (h : Heap) (id : ObjectId) (v : Value) : Option ElementsKind :=
  let kind := (h.elementsKind? (.object id)).getD .holeyTagged
  let required := kind.union (h.kindFor v)
  if required.storage = kind.storage then none else some ⟨required.storage, kind.holey⟩

/-- Whether a store appends to an array, or goes beyond its end. -/
def growsArray (h : Heap) (id : ObjectId) (key : Value) : Bool :=
  match h.arrayLength? (.object id), key with
  | some length, .smi i => decide (0 ≤ i ∧ length ≤ i)
  | _, _ => false

/-- The stub for element stores to one shape. -/
def elementStoreOf (h : Heap) (kind : SiteKind) (mode : SiteMode) (s : ShapeId) (grow : Bool) :
    StubSpec :=
  { kind, state := .monomorphic, mode := { mode with grow }
    handler := .storeElement (h.kindOfShape s) grow
    receiverShapes := [s] }

/-- The most general shape in a list that a shape has an elements transition to. -/
def mostGeneralTransition? (h : Heap) (s : ShapeId) (shapes : List ShapeId) : Option ShapeId :=
  let weight (t : ShapeId) : Nat :=
    2 * (h.kindOfShape t).storage.rank + (h.kindOfShape t).holey.toNat
  let reachable := shapes.filter fun t =>
    t ≠ s && (h.shape s).elementsTransitions.get? (h.kindOfShape t) = some t
  reachable.foldl
    (fun best t =>
      match best with
      | none => some t
      | some b => if weight b ≤ weight t then some t else some b)
    none

/-- What a polymorphic store does for a shape, given all shapes of the stub. -/
def elementStoreFor (h : Heap) (shapes : List ShapeId) (s : ShapeId) : ElementStore :=
  match h.mostGeneralTransition? s shapes with
  | some t => .transition t (h.kindOfShape t)
  | none => .keep (h.kindOfShape s)

/-- Appends a shape that is not there yet. -/
def addShapeOnce (shapes : List ShapeId) (s : ShapeId) : List ShapeId :=
  if shapes.contains s then shapes else shapes ++ [s]

/-- The stub after an element store to an object with shape `s`, which the store moves to shape
`moved`. -/
def elementStoreSpec (h : Heap) (site : Site) (limit : Nat) (s moved : ShapeId)
    (forced grow : Bool) : Except GiveUp StubSpec :=
  let target := site.target
  let known := target.spec.receiverShapes
  let alone : StubSpec := h.elementStoreOf site.kind site.mode moved grow
  match target.state, known with
  | .uninitialized, _ | .premonomorphic, _ | _, [] => .ok alone
  | state, first :: _ =>
    if state = .monomorphic && forced && (h.kindOfShape first).generalizesTo (h.kindOfShape s)
    then .ok alone
    else
      let shapes := addShapeOnce (addShapeOnce known s) moved
      if shapes = known then .error .sameShape
      else if limit < shapes.length then .error .tooManyShapes
      else
        .ok
          { kind := site.kind, state := .polymorphic
            mode := { site.mode with grow := site.mode.grow || grow }
            handler := .storeElementPolymorphic (shapes.map (h.elementStoreFor shapes))
            receiverShapes := shapes }

end Heap

namespace AtSite

/-- The stub of a decision; giving up is traced. -/
def settle : Except GiveUp StubSpec → Action Stub
  | .ok spec => request spec
  | .error why => do
    let site ← current
    trace s!"[{site.kind.name}: going generic ({why.reason})]"
    request (.generic site.kind site.mode)

/-- Resolves a miss on `receiver[key]`. -/
def resolveKeyedLoad (receiver key : Value) (force : Bool) : Action Value := do
  match Key.simplify (← heap) key with
  | .named name => resolveLoad receiver name
  | .computed key =>
    let site ← current
    let c ← config
    if c.useIc then
      install (← settle
        ((← heap).keyedLoadSpec site c.maxKeyedPolymorphism receiver key force))
      traceMiss ((← heap).toText key) site.targetState
    onHeap (Heap.getKeyed receiver key)

/-- The stub after a store by a computed key that is no name. The shape that the store leads to
is made if it does not exist yet. -/
def keyedStoreStub (receiver key v : Value) (force : Bool) : Action Stub := do
  let h ← heap
  let site ← current
  let generic : StubSpec := .generic site.kind site.mode
  if force then settle (.error .forced)
  else
    match h.holderId? receiver .receiver with
    | none => request generic
    | some id =>
      if h.isNonStrictArguments receiver then
        request
          { kind := site.kind, state := .monomorphic, mode := site.mode
            handler := .storeNonStrictArguments }
      -- An arguments stub gives way to the generic one, never to one for elements.
      else if key.isSmi && site.target.handler ≠ .storeNonStrictArguments then
        match h.mapOf? receiver with
        | none => request generic
        | some s =>
          let kind := h.forcedKind? id v
          let moved ← match kind with
            | some k => onHeap (Heap.run fun h => h.elementsTransition s k)
            | none => pure s
          settle ((← heap).elementStoreSpec site (← config).maxKeyedPolymorphism s moved
            kind.isSome (h.growsArray id key))
      else request generic

/-- Resolves a miss on `receiver[key] = v`. -/
def resolveKeyedStore (receiver key v : Value) (force : Bool) : Action Value := do
  match Key.simplify (← heap) key with
  | .named name => resolveStore receiver name v
  | .computed key =>
    let site ← current
    if (← config).useIc then
      install (← keyedStoreStub receiver key v force)
      traceMiss ((← heap).toText key) site.targetState
    onHeap (Heap.setKeyed receiver key v site.mode.strict)

end AtSite

end Speculation
