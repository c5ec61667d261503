import Speculation.Cache.Load

/-!
# Named stores

What a site does when its stub misses on `receiver.name = v`: it chooses a stub that would have
stored the value, and stores it by the general rules. Stores specialize on own properties, on
known transitions that add a property no prototype has, and on setters.
-/

namespace Speculation

namespace Heap

/-- Whether a store can be specialized on what was found. -/
def isCacheableStore (h : Heap) (id : ObjectId) : Lookup → Bool
  | .notFound => false
  | .transition _ _ d => !d.attributes.readOnly && !(h.lookupInPrototypes id d.name).isFound
  | found => !found.isReadOnly

/-- What a store to an object finds, and whether it can be specialized on it. -/
def lookupForStore (h : Heap) (id : ObjectId) (name : Name) : Bool × Lookup :=
  let first := match h.own id name with
    | .notFound => h.lookupTransition id name
    | found => found
  if !h.isCacheableStore id first then
    match h.lookup (.object id) name with
    | .property holder (.accessor g s) a =>
      (h.isCacheableStore id (.property holder (.accessor g s) a),
        .property holder (.accessor g s) a)
    | found => (false, found)
  else if first.isInterceptor then
    (h.isCacheableStore id (h.ownReal id name), h.ownReal id name)
  else (true, first)

/-- What a stub for a store to a field does. -/
def fieldStoreHandler? : Lookup → Option (Handler × Option ObjectId)
  | .property holder (.field index) _ => some (.storeField index none, some holder)
  | .transition _ target d =>
    match d.kind with
    | .field index =>
      if d.attributes = {} then some (.storeField index (some target), none) else none
    | _ => none
  | _ => none

/-- What a stub for a store does, and the holder up to which it checks the chain. -/
def storeHandler? (h : Heap) (receiver : Value) (id : ObjectId) :
    Lookup → Option (Handler × Option ObjectId)
  | .property holder .normal _ =>
    if h.isGlobalObject receiver then some (.storeGlobal id, some holder)
    else if holder = id then some (.storeNormal, some holder)
    else none
  | .property holder (.accessor _ setter) _ =>
    if h.isFunction setter && !h.isGlobalObject (.object holder) && h.isFast holder then
      some (.storeViaSetter setter, some holder)
    else none
  | found => fieldStoreHandler? found

/-- The stub for a store. Sites with computed keys specialize on fields only and go generic
otherwise. -/
def storePlan? (h : Heap) (mode : SiteMode) (kind : SiteKind) (receiver : Value) (id : ObjectId)
    (name : Name) (found : Lookup) : Option StubPlan :=
  let filed (p : Handler × Option ObjectId) : Option StubPlan :=
    (h.monomorphicSpec? kind mode p.1 receiver p.2 name).map .filed
  if kind = .keyedStore then
    match fieldStoreHandler? found with
    | some p => filed p
    | none => some (.common (.generic kind mode))
  else (h.storeHandler? receiver id found).bind filed

end Heap

namespace AtSite

/-- Chooses and installs a stub after a lookup. -/
def updateStore (old : SiteState) (receiver : Value) (id : ObjectId) (name : Name)
    (found : Lookup) : Action Unit := do
  let h ← heap
  let site ← current
  let plan :=
    if old = .uninitialized && site.kind.usesPremonomorphic then
      some (.common (.premonomorphic site.kind site.mode))
    else h.storePlan? site.mode site.kind receiver id name found
  match plan with
  | none => return
  | some plan =>
    match ← realize receiver name plan with
    | none => return
    | some stub =>
      advance old receiver name stub
      traceMiss name.text old

/-- Installs a stub that is not filed under a shape. -/
def installTraced (spec : StubSpec) (key : String) (old : SiteState) : Action Unit := do
  install (← request spec)
  traceMiss key old

/-- Resolves a miss on `receiver.name = v`. -/
def resolveStore (receiver : Value) (name : Name) (v : Value) : Action Value := do
  let h ← heap
  let site ← current
  let strict := site.mode.strict
  if receiver.isNullish then onHeap (Heap.raise (.nonObjectStore name.text (h.describe receiver)))
  else if strict && h.isString receiver && name = .length then
    onHeap (Heap.raise (.readOnly name.text (h.describe receiver)))
  else
    match h.holderId? receiver .receiver with
    | none => return v
    | some id =>
      match name.arrayIndex? with
      | some i => onHeap (Heap.setElement receiver i v)
      | none =>
        let old ← stateOfMiss receiver name
        let useIc := (← config).useIc
        if useIc && site.kind = .store && h.isArray receiver && name = .length && h.isFast id then
          installTraced
            { kind := .store, state := .monomorphic, mode := site.mode
              handler := .storeArrayLength, name := some name } name.text old
          onHeap (Heap.setProperty receiver name v strict)
        else if h.isGlobalProxy receiver then
          if useIc && site.kind = .store then
            installTraced
              { kind := .store, state := .megamorphic, mode := site.mode
                handler := .storeGlobalProxy } name.text old
          onHeap (Heap.setProperty receiver name v strict)
        else
          let (cacheable, found) := h.lookupForStore id name
          if cacheable then
            if useIc then updateStore old receiver id name found
            onHeap (Heap.setProperty receiver name v strict)
          else if strict && !found.isFound && h.isGlobalObject receiver then
            onHeap (Heap.raise (.notDefined name.text))
          else onHeap (Heap.setProperty receiver name v strict)

end AtSite

end Speculation
