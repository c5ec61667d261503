import Speculation.Cache.Kind
import Speculation.ElementsKind
import Speculation.Feedback.Types

/-!
# Stubs

A stub is a specialized way to perform an operation. It records the state of the site it is made
for, the shapes it accepts, what it assumes about the prototype chain, and the `Handler` that
does the work once these guards hold. Stubs do not change; a stub is identified by its number,
and stubs with equal specifications are made only once where that is asked for.
-/

namespace Speculation

/-- The object that a stub reads a property from. -/
inductive Holder where
  | receiver
  /-- A fixed object on the prototype chain. -/
  | object (id : ObjectId)
deriving DecidableEq, Repr, Inhabited

/-- What a polymorphic keyed load does for one shape. -/
inductive ElementLoad where
  | elements (kind : ElementsKind)
  /-- A character of a primitive string. -/
  | string
deriving DecidableEq, Repr, Inhabited

/-- What a polymorphic keyed store does for one shape. -/
inductive ElementStore where
  | keep (kind : ElementsKind)
  /-- Moves the receiver to another shape first. -/
  | transition (target : ShapeId) (kind : ElementsKind)
deriving DecidableEq, Repr, Inhabited

/-- The shape under which a stub is filed. -/
inductive CacheHolder where
  | ownShape
  /-- The shape of the prototype of a primitive receiver. -/
  | prototypeShape
deriving DecidableEq, Repr, Inhabited

/-- What a stub does once its guards hold. -/
inductive Handler where
  /-- Always misses; for sites that have not run. -/
  | fresh
  /-- Always misses; delays specialization by one run. -/
  | premonomorphic
  /-- Asks the stub cache. -/
  | megamorphic
  /-- Everything by the general rules; never misses. -/
  | generic
  | loadField (holder : Holder) (index : Nat)
  | loadConstant (value : Value)
  /-- The property is absent along the chain. -/
  | loadNonexistent
  | loadNormal
  | loadGlobal (global : ObjectId) (dontDelete : Bool)
  | loadViaGetter (holder : Holder) (getter : Value)
  | loadInterceptor (holder : Holder)
  | loadStringLength
  | loadStringWrapperLength
  | loadArrayLength
  | loadFunctionPrototype
  | loadElement (kind : ElementsKind)
  | loadElementPolymorphic (targets : List ElementLoad)
  | loadIndexedString
  | loadNonStrictArguments
  | storeField (index : Nat) (transition : Option ShapeId)
  | storeNormal
  | storeGlobal (global : ObjectId)
  | storeViaSetter (setter : Value)
  | storeArrayLength
  | storeGlobalProxy
  | storeElement (kind : ElementsKind) (grow : Bool)
  | storeElementPolymorphic (targets : List ElementStore)
  | storeNonStrictArguments
  | callField (holder : Holder) (index : Nat)
  | callConstant (function : Value)
  | callNormal
  | callGlobal (global : ObjectId) (function : Value)
  | callInterceptor (holder : Holder)
  | callArguments
  | compare (feedback : CompareFeedback)
  | unaryOp (feedback : UnaryFeedback)
  | binaryOp (feedback : BinaryFeedback)
  | toBoolean (types : TestedTypes)
deriving DecidableEq, Repr, Inhabited

def Handler.name : Handler → String
  | fresh => "Initialize"
  | premonomorphic => "PreMonomorphic"
  | megamorphic => "Megamorphic"
  | generic => "Generic"
  | loadField _ _ => "LoadField"
  | loadConstant _ => "LoadConstant"
  | loadNonexistent => "LoadNonexistent"
  | loadNormal => "LoadNormal"
  | loadGlobal _ _ => "LoadGlobal"
  | loadViaGetter _ _ => "LoadViaGetter"
  | loadInterceptor _ => "LoadInterceptor"
  | loadStringLength => "StringLength"
  | loadStringWrapperLength => "StringWrapperLength"
  | loadArrayLength => "ArrayLength"
  | loadFunctionPrototype => "FunctionPrototype"
  | loadElement _ => "LoadElement"
  | loadElementPolymorphic _ => "LoadElementPolymorphic"
  | loadIndexedString => "IndexedString"
  | loadNonStrictArguments => "LoadNonStrictArguments"
  | storeField _ _ => "StoreField"
  | storeNormal => "StoreNormal"
  | storeGlobal _ => "StoreGlobal"
  | storeViaSetter _ => "StoreViaSetter"
  | storeArrayLength => "StoreArrayLength"
  | storeGlobalProxy => "StoreGlobalProxy"
  | storeElement _ _ => "StoreElement"
  | storeElementPolymorphic _ => "StoreElementPolymorphic"
  | storeNonStrictArguments => "StoreNonStrictArguments"
  | callField _ _ => "CallField"
  | callConstant _ => "CallConstant"
  | callNormal => "CallNormal"
  | callGlobal _ _ => "CallGlobal"
  | callInterceptor _ => "CallInterceptor"
  | callArguments => "CallArguments"
  | compare _ => "Compare"
  | unaryOp _ => "UnaryOp"
  | binaryOp _ => "BinaryOp"
  | toBoolean _ => "ToBoolean"

/-- Everything that determines what a stub does. -/
structure StubSpec where
  kind : SiteKind
  state : SiteState
  mode : SiteMode
  handler : Handler
  /-- The name that the stub is made for; a key must match it. -/
  name : Option Name := none
  /-- The shapes that the stub accepts, in the order in which they came. -/
  receiverShapes : List ShapeId := []
  /-- Objects of the chain with the shape each must still have. -/
  prototypeChecks : List (ObjectId × ShapeId) := []
  /-- Objects in dictionary mode that must not own the name. -/
  absentChecks : List Holder := []
  cacheHolder : CacheHolder := .ownShape
deriving DecidableEq, Repr, Inhabited

/-- A stub: a specification and its number. -/
structure Stub where
  id : Nat
  spec : StubSpec
deriving DecidableEq, Repr, Inhabited

namespace Stub

def kind (s : Stub) : SiteKind := s.spec.kind

def state (s : Stub) : SiteState := s.spec.state

def mode (s : Stub) : SiteMode := s.spec.mode

def handler (s : Stub) : Handler := s.spec.handler

def name (s : Stub) : Option Name := s.spec.name

/-- The first shape that the stub checks. -/
def firstShape? (s : Stub) : Option ShapeId := s.spec.receiverShapes.head?

/-- Whether the guards look at objects other than the receiver. -/
def dependsOnPrototypes (s : Stub) : Bool := !s.spec.prototypeChecks.isEmpty

def text (s : Stub) : String :=
  let shapes := s.spec.receiverShapes.map ShapeId.text
  let listed := if shapes.isEmpty then "" else " [" ++ ", ".intercalate shapes ++ "]"
  s!"stub#{s.id} {s.kind.name} {s.handler.name}" ++ listed

end Stub

/-! ### Specifications of operator stubs -/

def CompareFeedback.spec (f : CompareFeedback) : StubSpec :=
  { kind := .compare, state := f.state.siteState, mode := {}, handler := .compare f }

def UnaryFeedback.spec (f : UnaryFeedback) : StubSpec :=
  { kind := .unaryOp, state := f.operand.siteState, mode := {}, handler := .unaryOp f }

def BinaryFeedback.spec (f : BinaryFeedback) : StubSpec :=
  { kind := .binaryOp, state := f.overall.siteState, mode := {}, handler := .binaryOp f }

def TestedTypes.spec (t : TestedTypes) : StubSpec :=
  { kind := .toBoolean, state := t.siteState, mode := {}, handler := .toBoolean t }

end Speculation
