import Speculation.Cache.Dispatch
import Speculation.Engine.Basic

/-!
# How sites change

A site moves from fresh through premonomorphic to monomorphic, and from there, after a miss on
another kind of receiver, to megamorphic or, for elements, to polymorphic and generic. A
monomorphic site whose stub is still filed under the shape of the receiver can only have missed
because a prototype changed; it may then specialize again in place.

Which of these steps a kind of site takes is in `SiteKind.usesPremonomorphic`,
`checksPrototypesOnMiss` and `usesStubCache`. Nothing is installed while inline caching is
switched off.
-/

namespace Speculation

namespace SiteKind

/-- Whether sites of this kind run once before they specialize. -/
def usesPremonomorphic (k : SiteKind) : Bool := k.isPropertyAccess

/-- Whether a miss of sites of this kind first checks for changed prototypes. Named calls check
only once they know what to install. -/
def checksPrototypesOnMiss : SiteKind → Bool
  | load | store => true
  | _ => false

/-- Whether sites of this kind share their stubs through the stub cache. -/
def usesStubCache : SiteKind → Bool
  | load | store | call | keyedCall => true
  | _ => false

end SiteKind

/-- A site together with the engine it runs in. -/
structure AtSite where
  site : Site
  engine : Engine
deriving Repr, Inhabited

namespace AtSite

/-- Operations at a site; changes made before a failure stay. -/
abbrev Action := ExceptT Fault (StateM AtSite)

/-- Performs an operation of the heap. -/
def onHeap {α : Type} (a : Heap.Action α) : Action α := fun s =>
  let (r, h) := a s.engine.heap
  (r, { s with engine := { s.engine with heap := h } })

def heap : Action Heap := return (← get).engine.heap

def modifyHeap (f : Heap → Heap) : Action Unit :=
  modify fun s => { s with engine := { s.engine with heap := f s.engine.heap } }

def config : Action Config := return (← get).engine.config

/-- The site as it is now. -/
def current : Action Site := return (← get).site

/-! ### Stubs -/

/-- The stub of a specification. -/
def request (spec : StubSpec) : Action Stub := fun s =>
  let (stub, engine) := s.engine.requestStub spec
  (.ok stub, { s with engine })

/-- The stub of a specification, filed under the shape of the receiver. A stub that is filed
already is used again; receivers without a shape to file under get none. -/
def requestFiled (receiver : Value) (name : Name) (spec : StubSpec) : Action (Option Stub) := do
  let h ← heap
  match h.filingShape? receiver spec.cacheHolder with
  | none => return none
  | some shape =>
    match (h.shape shape).cachedStub? name fun t => t.spec == spec with
    | some stub => return some stub
    | none =>
      let stub ← request spec
      modifyHeap fun h => h.modifyShape shape fun t => t.keepStub name stub
      return some stub

/-- Installs a stub, unless inline caching is switched off. -/
def install (stub : Stub) : Action Unit := do
  if (← config).useIc then modify fun s => { s with site := s.site.patch stub } else return

/-- Enters a stub into the stub cache. -/
def share (name : Name) (shape : Option ShapeId) (stub : Stub) : Action Unit :=
  match shape with
  | none => return
  | some shape =>
    modify fun s =>
      { s with engine := { s.engine with stubCache := s.engine.stubCache.set name shape stub } }

/-! ### Traces -/

/-- Writes a line to the trace of inline caches. -/
def trace (text : String) : Action Unit := do
  if (← config).traceIc then modify fun s => { s with engine := s.engine.log .cache text }
  else return

/-- Traces a resolved miss. -/
def traceMiss (key : String) (old : SiteState) : Action Unit := do
  let site ← current
  trace s!"[{site.kind.name} ({old.mark}->{site.state.mark}) #{key}]"

/-! ### Prototype failures -/

/-- Removes a stub from the shape it is filed under for a receiver; tells whether it was
there. -/
def unfile (stub : Stub) (receiver : Value) (name : Name) : Action Bool := do
  let h ← heap
  match h.filingShape? receiver stub.spec.cacheHolder with
  | none => return false
  | some shape =>
    if (h.shape shape).keepsStub name stub.id then
      modifyHeap fun h => h.modifyShape shape fun t => t.forgetStub name stub.id
      return true
    else return false

/-- The state from which a miss on a named property is resolved. -/
def stateOfMiss (receiver : Value) (name : Name) : Action SiteState := do
  let site ← current
  if site.targetState = .monomorphic && !receiver.isNullish && site.kind.checksPrototypesOnMiss
  then
    return if ← unfile site.target receiver name then .prototypeFailure else .monomorphic
  else return site.targetState

/-! ### Installing what a resolver chose -/

/-- Installs a stub for a named property, starting from the state of the miss. A monomorphic site
that meets another kind of receiver hands its stubs to the stub cache. -/
def advance (old : SiteState) (receiver : Value) (name : Name) (stub : Stub) : Action Unit := do
  let site ← current
  let h ← heap
  match old with
  | .uninitialized | .premonomorphic | .prototypeFailure => install stub
  | .monomorphic =>
    if site.target.id = stub.id then return
    else
      if site.kind.usesStubCache then
        share name site.target.probeShape? site.target
        share name (h.probeShape? site.kind receiver) stub
      install (← request (.megamorphic site.kind site.mode))
  | .megamorphic =>
    if site.kind.usesStubCache then share name (h.probeShape? site.kind receiver) stub
  | .polymorphic => install (← request (.generic site.kind site.mode))
  | .generic | .debugStub => return

/-- Returns a site to its first stub. Operator sites keep what they have recorded, except
comparisons of objects of one shape. -/
def clear : Action Unit := do
  let site ← current
  let reset (spec : StubSpec) : Action Unit := do
    let stub ← request spec
    modify fun s => { s with site := s.site.patch stub }
  if site.targetState = .uninitialized then return
  else
    match site.kind, site.target.handler with
    | .compare, .compare f =>
      if f.state = .knownObject then reset (CompareFeedback.fresh f.op).spec else return
    | .compare, _ | .unaryOp, _ | .binaryOp, _ | .toBoolean, _ => return
    | kind, _ => reset (.fresh kind site.mode)

/-! ### Looking for a stub in the stub cache -/

/-- The monomorphic stub that the stub cache has for an access; the search is counted. -/
def probe (stub : Stub) (receiver : Value) (key : Key) : Action (Option StubSpec) := do
  let h ← heap
  match key.name? h, h.probeShape? stub.kind receiver with
  | some name, some shape =>
    let (found, cache) := (← get).engine.stubCache.get ⟨name, shape, stub.kind⟩
    modify fun s => { s with engine := { s.engine with stubCache := cache } }
    match found with
    | some t => return if t.state = .monomorphic then some t.spec else none
    | none => return none
  | _, _ => return none

/-- Runs the installed stub of a load. -/
def dispatchLoad (receiver : Value) (key : Key) : Action Outcome := do
  let stub := (← current).target
  if stub.handler = .megamorphic then
    match ← probe stub receiver key with
    | some spec => onHeap (Heap.runLoad spec receiver key)
    | none => return .miss
  else onHeap (Heap.runLoad stub.spec receiver key)

/-- Runs the installed stub of a store. -/
def dispatchStore (receiver : Value) (key : Key) (v : Value) : Action Outcome := do
  let stub := (← current).target
  if stub.handler = .megamorphic then
    match ← probe stub receiver key with
    | some spec => onHeap (Heap.runStore spec receiver key v)
    | none => return .miss
  else onHeap (Heap.runStore stub.spec receiver key v)

/-- Runs the installed stub of a call; a hit is the function to call. Megamorphic sites other than
named calls fall back on the general rules. -/
def dispatchCall (receiver : Value) (key : Key) (args : List Value) : Action Outcome := do
  let stub := (← current).target
  if stub.handler = .megamorphic then
    let found ← match ← probe stub receiver key with
      | some spec => onHeap (Heap.runCall spec receiver key args)
      | none => pure .miss
    match found with
    | .hit f => return .hit f
    | _ =>
      if stub.kind = .call then return .miss else onHeap (Heap.calleeByKey receiver key)
  else onHeap (Heap.runCall stub.spec receiver key args)

end AtSite

end Speculation
