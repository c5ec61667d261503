import Speculation.Cache.Keyed

/-!
# Calls of properties

A call site finds the function to call. Unlike a load, a named call whose stub misses decides
only once it knows what to install whether a prototype changed, whether a method of strings was
called with a position outside the string, or whether the site goes megamorphic.
-/

namespace Speculation

namespace Heap

/-- A call of a property that does not exist. -/
def missingMethod (h : Heap) (receiver : Value) (name : Name) : Exception :=
  if h.isGlobalObject receiver then .notDefined name.text
  else .undefinedMethod name.text (h.describe receiver)

/-- Whether an interceptor was found that has no answer and hides no real property. -/
def answersNothing (h : Heap) (found : Lookup) (name : Name) : Bool :=
  match found with
  | .interceptor holder =>
    (h.interceptorValue? holder name).isNone && !(h.lookupReal holder name).isFound
  | _ => false

/-- Whether an object in dictionary mode stands between the receiver and the holder. -/
def dictionaryBefore (h : Heap) (receiver : Value) (holder : ObjectId) : Bool :=
  let start := if receiver.isReference then receiver else h.prototypeOf receiver
  ((h.chain start).takeWhile fun id => id ≠ holder).any fun id =>
    match h.object? id with
    | some o => (h.shapeOf o).isDictionary
    | none => false

/-- The mode of a call site after a method of strings was first called with a position outside
the string. -/
def refinedMode? (h : Heap) (found : Lookup) (receiver : Value) (mode : SiteMode)
    (args : List Value) : Option SiteMode :=
  match found with
  | .property _ (.constant f) _ =>
    if !mode.outOfBounds && h.outsideString f receiver args then
      some { mode with outOfBounds := true }
    else none
  | _ => none

/-- What a stub for a call does, and the holder up to which it checks the chain. -/
def callHandler? (h : Heap) (receiver : Value) (name : Name) : Lookup → Option (Handler × ObjectId)
  | .property holder (.field index) _ =>
    some (.callField (.relativeTo receiver holder) index, holder)
  | .property holder (.constant f) _ =>
    if h.isFunction f then some (.callConstant f, holder) else none
  | .property holder .normal _ =>
    if !h.isJsObject receiver then none
    else if h.isGlobalObject (.object holder) then
      match h.dictionaryValue? holder name with
      | some f => if h.isFunction f then some (.callGlobal holder f, holder) else none
      | none => none
    else if receiver = .object holder then some (.callNormal, holder)
    else none
  | .interceptor holder => some (.callInterceptor (.relativeTo receiver holder), holder)
  | _ => none

/-- The specification of a stub for a call. -/
def callSpec? (h : Heap) (kind : SiteKind) (mode : SiteMode) (receiver : Value) (name : Name)
    (found : Lookup) : Option StubSpec :=
  (h.callHandler? receiver name found).bind fun (handler, holder) =>
    h.monomorphicSpec? kind mode handler receiver (some holder) name

end Heap

namespace AtSite

/-- The stub for a call of what was found, filed under the shape of the receiver. -/
def callStub (mode : SiteMode) (receiver : Value) (name : Name) (found : Lookup) :
    Action (Option Stub) := do
  match (← heap).callSpec? (← current).kind mode receiver name found with
  | none => return none
  | some spec => requestFiled receiver name spec

/-- The stub to install after a miss, and the state from which the site goes on. -/
def chooseCall (old : SiteState) (receiver : Value) (name : Name) (found : Lookup)
    (args : List Value) : Action (SiteState × Option Stub) := do
  let h ← heap
  let site ← current
  match old with
  | .uninitialized =>
    if site.kind.usesPremonomorphic then
      return (old, some (← request (.premonomorphic site.kind site.mode)))
    else return (old, ← callStub site.mode receiver name found)
  | .monomorphic =>
    let refined :=
      if site.kind = .call then h.refinedMode? found receiver site.mode args else none
    match refined with
    | some mode => return (old, ← callStub mode receiver name found)
    | none =>
      let stale ← if site.kind = .call then unfile site.target receiver name else pure false
      if stale then return (.prototypeFailure, ← callStub site.mode receiver name found)
      else return (old, some (← request (.megamorphic site.kind site.mode)))
  | _ => return (old, ← callStub site.mode receiver name found)

/-- Installs a stub for a call, starting from the state of the miss. -/
def advanceCall (old : SiteState) (receiver : Value) (name : Name) (stub : Stub) :
    Action Unit := do
  let h ← heap
  let site ← current
  match old with
  | .uninitialized | .premonomorphic | .prototypeFailure => install stub
  | .monomorphic =>
    if stub.state ≠ .monomorphic then share name site.target.probeShape? site.target
    install stub
  | .megamorphic => share name (h.probeShape? site.kind receiver) stub
  | .polymorphic | .generic | .debugStub => return

/-- Chooses and installs a stub after a lookup. -/
def updateCall (old : SiteState) (receiver : Value) (name : Name) (found : Lookup)
    (args : List Value) : Action Unit := do
  let h ← heap
  let cacheable : Bool := match found with
    | .property holder _ _ | .interceptor holder =>
      receiver == .object holder || !h.dictionaryBefore receiver holder
    | _ => false
  if cacheable then
    match ← chooseCall old receiver name found args with
    | (_, none) => return
    | (state, some stub) =>
      advanceCall state receiver name stub
      traceMiss name.text state
  else return

/-- Resolves the function that a missed `receiver.name(…)` calls. -/
def resolveCall (receiver : Value) (name : Name) (args : List Value) : Action Value := do
  let h ← heap
  if receiver.isNullish then onHeap (Heap.raise (.nonObjectCall name.text (h.describe receiver)))
  else
    let old ← stateOfMiss receiver name
    let element ← match name.arrayIndex? with
      | some i => onHeap (some <$> Heap.getElement receiver i)
      | none => pure none
    match element.filter (← heap).isCallable with
    | some f => return f
    | none =>
      let h ← heap
      let found := h.lookup receiver name
      if !found.isFound then onHeap (Heap.raise (h.missingMethod receiver name))
      else
        if (← config).useIc then updateCall old receiver name found args
        if h.answersNothing found name then onHeap (Heap.raise (h.missingMethod receiver name))
        else
          let f ← onHeap (Heap.readLookup receiver found name)
          let h ← heap
          if h.isCallable f then return f
          else onHeap (Heap.raise (.propertyNotFunction name.text (h.describe receiver)))

/-- Resolves the function that a missed `receiver[key](…)` calls. -/
def resolveKeyedCall (receiver key : Value) (args : List Value) : Action Value := do
  let h ← heap
  match (Key.computed key).name? h with
  | some name => resolveCall receiver name args
  | none =>
    if receiver.isNullish then
      onHeap (Heap.raise (.nonObjectCall (h.toText key) (h.describe receiver)))
    else
      let site ← current
      if (← config).useIc && site.targetState ≠ .megamorphic then
        let spec : StubSpec :=
          if h.isNonStrictArguments receiver then
            { kind := site.kind, state := .megamorphic, mode := site.mode
              handler := .callArguments }
          else .megamorphic site.kind site.mode
        installTraced spec (h.toText key) site.targetState
      let f ← onHeap (Heap.getKeyed receiver key)
      let h ← heap
      if h.isCallable f then return f
      else onHeap (Heap.raise (.propertyNotFunction (h.toText key) (h.describe receiver)))

end AtSite

end Speculation
