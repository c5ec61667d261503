import Speculation.Cache.StubCache
import Speculation.Cache.StubTable
import Speculation.Code.Registry
import Speculation.Config
import Speculation.Frame.Stack
import Speculation.Heap.Access

/-!
# The engine

An `Engine` is everything that one thread of execution changes: the heap, the stubs and the
stub cache, the code space, the code that is being given up, and the stack. It also keeps the
trace, which is written only where the configuration asks for it and survives failures.
-/

namespace Speculation

/-- The part of the engine that a line of the trace is about. -/
inductive Channel where
  /-- Inline caches. -/
  | cache
  /-- Bailouts from optimized code. -/
  | bailout
  /-- Replacement of running interpreted frames. -/
  | replacement
deriving DecidableEq, Repr, Inhabited

def Channel.name : Channel → String
  | cache => "ic"
  | bailout => "deopt"
  | replacement => "osr"

/-- A line of the trace. -/
structure TraceLine where
  channel : Channel
  text : String
deriving DecidableEq, Repr, Inhabited

/-- What an engine is given from outside. -/
structure Surroundings where
  host : Host := .idle
  /-- The draws that the stub cache evicts by. -/
  draws : List Nat := []
deriving Repr, Inhabited

/-- The state of one thread of execution. -/
structure Engine where
  heap : Heap
  stubs : StubTable := {}
  stubCache : StubCache
  config : Config
  codeSpace : CodeSpace
  /-- Code that was given up while frames may still run it. -/
  registry : CodeRegistry := {}
  stack : Stack := {}
  /-- Functions that run optimized code, in the order in which they began to. -/
  optimized : List ObjectId := []
  trace : List TraceLine := []
deriving Repr, Inhabited

namespace Engine

/-- Operations that may fail; changes made before a failure stay. -/
abbrev Action := ExceptT Fault (StateM Engine)

/-- An engine before anything has run. -/
def ofConfig (config : Config) (around : Surroundings := {}) : Engine :=
  { heap := { Heap.initial with host := around.host }
    stubCache := StubCache.ofCapacity config.stubCacheCapacity around.draws
    config
    codeSpace := Builtins.install {} }

/-- Performs an operation of the heap. -/
def onHeap {α : Type} (a : Heap.Action α) : Action α := fun e =>
  let (r, h) := a e.heap
  (r, { e with heap := h })

/-- Writes a line of the trace. -/
def log (e : Engine) (channel : Channel) (text : String) : Engine :=
  { e with trace := e.trace ++ [⟨channel, text⟩] }

/-- The stub of a specification. -/
def requestStub (e : Engine) (spec : StubSpec) : Stub × Engine :=
  let (stub, stubs) := e.stubs.request spec
  (stub, { e with stubs })

/-! ### New sites -/

/-- A property or call site that has not run. -/
def newSite (e : Engine) (kind : SiteKind) (mode : SiteMode) : Site × Engine :=
  let (stub, e) := e.requestStub (.fresh kind mode)
  (.ofStub stub, e)

def newCompareSite (e : Engine) (op : CompareOperator) : Site × Engine :=
  let (stub, e) := e.requestStub (CompareFeedback.fresh op).spec
  (.ofStub stub, e)

def newUnarySite (e : Engine) (op : UnaryOperator) : Site × Engine :=
  let (stub, e) := e.requestStub (UnaryFeedback.fresh op).spec
  (.ofStub stub, e)

def newBinarySite (e : Engine) (op : BinaryOperator) : Site × Engine :=
  let (stub, e) := e.requestStub (BinaryFeedback.fresh op).spec
  (.ofStub stub, e)

def newToBooleanSite (e : Engine) : Site × Engine :=
  let (stub, e) := e.requestStub (TestedTypes.spec {})
  (.ofStub stub, e)

end Engine

end Speculation
