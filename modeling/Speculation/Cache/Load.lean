import Speculation.Cache.Policy

/-!
# Named loads

What a site does when its stub misses on `receiver.name`: it finds the value by the general
rules and chooses a stub that would have found it. `loadSpec?` is that choice; it only reads the
heap. Sites with computed keys come here too if the key is a name, but specialize less.
-/

namespace Speculation

/-- The stub that a resolver wants. -/
inductive StubPlan where
  /-- A stub that is not filed under a shape. -/
  | common (spec : StubSpec)
  /-- A stub filed under the shape of the receiver. -/
  | filed (spec : StubSpec)
deriving DecidableEq, Repr

/-- The stub of a plan. -/
def AtSite.realize (receiver : Value) (name : Name) : StubPlan → AtSite.Action (Option Stub)
  | .common spec => return some (← AtSite.request spec)
  | .filed spec => AtSite.requestFiled receiver name spec

/-- How a stub refers to the holder of a property. -/
def Holder.relativeTo (receiver : Value) (id : ObjectId) : Holder :=
  if receiver = .object id then .receiver else .object id

namespace Heap

/-- Whether the shape of an object says which properties it has. -/
def isFast (h : Heap) (id : ObjectId) : Bool :=
  match h.object? id with
  | some o => !(h.shapeOf o).isDictionary
  | none => false

/-- What a stub for a load of a real property does. -/
def propertyLoadHandler? (h : Heap) (receiver : Value) (holder : ObjectId) (kind : PropertyKind)
    (attributes : Attributes) : Option Handler :=
  match kind with
  | .field index => some (.loadField (.relativeTo receiver holder) index)
  | .constant v => some (.loadConstant v)
  | .normal =>
    if h.isGlobalObject (.object holder) then some (.loadGlobal holder attributes.dontDelete)
    else if receiver = .object holder then some .loadNormal
    else none
  | .accessor getter _ =>
    if h.isFunction getter && !h.isGlobalObject (.object holder) && h.isFast holder then
      some (.loadViaGetter (.relativeTo receiver holder) getter)
    else none

/-- What a stub for a load does, and the holder up to which it checks the chain. -/
def loadHandler? (h : Heap) (receiver : Value) (found : Lookup) :
    Option (Handler × Option ObjectId) :=
  match found with
  | .notFound => some (.loadNonexistent, none)
  | .property holder kind attributes =>
    (h.propertyLoadHandler? receiver holder kind attributes).map fun f => (f, some holder)
  | .interceptor holder => some (.loadInterceptor (.relativeTo receiver holder), some holder)
  | .transition _ _ _ => none

/-- The stub for a named load. -/
def loadPlan? (h : Heap) (mode : SiteMode) (kind : SiteKind) (receiver : Value) (name : Name)
    (found : Lookup) : Option StubPlan :=
  (h.loadHandler? receiver found).bind fun (handler, holder) =>
    (h.monomorphicSpec? kind mode handler receiver holder name).map .filed

/-- The stub for a load by a computed key that is a name: fields, constants and interceptors are
worth a stub, other properties make the site generic. -/
def keyedLoadPlan? (h : Heap) (mode : SiteMode) (kind : SiteKind) (receiver : Value) (name : Name)
    (found : Lookup) : Option StubPlan :=
  match found with
  | .notFound | .transition _ _ _ => none
  | .property _ (.field _) _ | .property _ (.constant _) _ | .interceptor _ =>
    h.loadPlan? mode kind receiver name found
  | .property _ _ _ => some (.common (.generic kind mode))

/-- What a stub for a property does that no shape describes. -/
def intrinsicHandler? (h : Heap) (receiver : Value) (name : Name) : Option Handler :=
  if name = .length && h.isStringWrapper receiver then some .loadStringWrapperLength
  else if name = .length && h.isString receiver then some .loadStringLength
  else if name = .length && h.isArray receiver then some .loadArrayLength
  else if name = .prototype && h.isFunction receiver then some .loadFunctionPrototype
  else none

/-- The stub after a load of a property that no shape describes. -/
def intrinsicSpec? (h : Heap) (kind : SiteKind) (mode : SiteMode) (old : SiteState)
    (receiver : Value) (name : Name) (handler : Handler) : Option StubSpec :=
  let specialized : StubSpec :=
    { kind, state := .monomorphic, mode, handler, name := some name }
  match old with
  | .uninitialized => some (.premonomorphic kind mode)
  | .premonomorphic => some specialized
  | .monomorphic =>
    if h.isStringWrapper receiver then some specialized else some (.megamorphic kind mode)
  | .megamorphic => none
  | _ => some (.megamorphic kind mode)

end Heap

namespace AtSite

/-- Loads a property that no shape describes. -/
def resolveIntrinsic (old : SiteState) (receiver : Value) (name : Name) :
    Action (Option Value) := do
  let h ← heap
  match h.intrinsicHandler? receiver name, h.intrinsic? receiver name with
  | some handler, some v =>
    if (← config).useIc then
      let site ← current
      match h.intrinsicSpec? site.kind site.mode old receiver name handler with
      | none => return some v
      | some spec =>
        install (← request spec)
        traceMiss name.text old
        return some v
    else return some v
  | _, _ => return none

/-- Chooses and installs a stub after a lookup. -/
def updateLoad (old : SiteState) (receiver : Value) (name : Name) (found : Lookup) :
    Action Unit := do
  let h ← heap
  let site ← current
  if h.isJsObject receiver && !h.isGlobalProxy receiver then
    let plan :=
      if old = .uninitialized && site.kind.usesPremonomorphic then
        some (.common (.premonomorphic site.kind site.mode))
      else if site.kind = .keyedLoad then
        h.keyedLoadPlan? site.mode site.kind receiver name found
      else h.loadPlan? site.mode site.kind receiver name found
    match plan with
    | none => return
    | some plan =>
      match ← realize receiver name plan with
      | none => return
      | some stub =>
        advance old receiver name stub
        traceMiss name.text old
  else return

/-- Resolves a miss on `receiver.name`. -/
def resolveLoad (receiver : Value) (name : Name) : Action Value := do
  let h ← heap
  if receiver.isNullish then onHeap (Heap.raise (.nonObjectLoad name.text (h.describe receiver)))
  else
    let old ← stateOfMiss receiver name
    match ← resolveIntrinsic old receiver name with
    | some v => return v
    | none =>
      match name.arrayIndex? with
      | some i =>
        let site ← current
        if site.kind = .keyedLoad && (← config).useIc then
          install (← request (.generic site.kind site.mode))
          traceMiss name.text old
        onHeap (Heap.getElement receiver i)
      | none =>
        let found := (← heap).lookup receiver name
        if !found.isFound && h.isGlobalObject receiver then
          onHeap (Heap.raise (.notDefined name.text))
        else
          if (← config).useIc then updateLoad old receiver name found
          onHeap (Heap.readLookup receiver found name)

end AtSite

end Speculation
