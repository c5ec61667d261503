import Speculation.Cache.Guards
import Speculation.Cache.Key
import Speculation.Heap.Access

/-!
# Running stubs

What a stub does for concrete operands: it checks its guards and then performs the access or
misses. A stub for elements may also ask that the site stop specializing.

`runLoad`, `runStore` and `runCall` cover every stub but the megamorphic one, which first looks
for such a stub in the stub cache.
-/

namespace Speculation

/-- The outcome of running a stub. -/
inductive Outcome where
  | hit (v : Value)
  | miss
  /-- A miss after which the site should stop specializing. -/
  | missForGood
deriving DecidableEq, Repr, Inhabited

/-- A hit with the value, if there is one. -/
def Outcome.ofOption : Option Value → Outcome
  | some v => hit v
  | none => miss

namespace Heap

/-! ### Elements -/

/-- Whether a value can be stored without changing the elements kind. -/
def fitsKind (h : Heap) (kind : ElementsKind) (v : Value) : Bool :=
  match kind.storage with
  | .smi => v.isSmi
  | .double => h.isNumber v
  | .tagged => true

/-- Loads an element of the receiver itself. -/
def loadElement (h : Heap) (receiver : Value) (key : Key) : Outcome :=
  match key.elementIndex? with
  | none => .missForGood
  | some i =>
    match h.asObject? receiver with
    | none => .miss
    | some o =>
      match o.elements[i]? with
      | some v => if v.isHole then .missForGood else .hit v
      | none => .missForGood

/-- Loads a character of a primitive string. -/
def loadCharacter (receiver : Value) (key : Key) : Action Outcome := do
  match key.elementIndex?, (← get).string? receiver with
  | some i, some s =>
    match (Text.units s)[i]? with
    | some u => return .hit (← newString (Text.textOfUnit u))
    | none => return .miss
  | _, _ => return .miss

/-- Loads an element of a non-strict arguments object. -/
def loadArgument (h : Heap) (receiver : Value) (key : Key) : Outcome :=
  if h.isNonStrictArguments receiver then
    match key.elementIndex?, h.asObject? receiver with
    | some i, some o => .ofOption (o.elements[i]?.filter fun v => !v.isHole)
    | _, _ => .miss
  else .miss

/-- Stores an element of an object whose elements kind admits the value, after moving the object
to `target` if that is given. Arrays may grow by one where that is allowed. -/
def storeElementFast (h : Heap) (id : ObjectId) (key : Key) (v : Value) (kind : ElementsKind)
    (grow : Bool) (target : Option ShapeId) : Outcome × Heap :=
  match key.elementIndex? with
  | none => (.missForGood, h)
  | some i =>
    if !h.fitsKind kind v then (.miss, h)
    else
      match h.object? id with
      | none => (.miss, h)
      | some o =>
        let appends := decide (i = o.elements.size) && grow && h.isArray (.object id)
        if decide (i < o.elements.size) || appends then
          (.hit v, h.modifyObject id fun o =>
            { o with
              shape := target.getD o.shape
              elements := if appends then o.elements.push v else o.elements.set! i v })
        else (.missForGood, h)

/-- Stores an element of a non-strict arguments object. -/
def storeArgument (h : Heap) (id : ObjectId) (key : Key) (v : Value) : Outcome × Heap :=
  if h.isNonStrictArguments (.object id) then
    match key.elementIndex?, h.object? id with
    | some i, some o =>
      if i < o.elements.size then
        (.hit v, h.modifyObject id fun o => { o with elements := o.elements.set! i v })
      else (.miss, h)
    | _, _ => (.miss, h)
  else (.miss, h)

/-- What a polymorphic stub has for the shape of the receiver. -/
def targetFor? {α : Type} (h : Heap) (shapes : List ShapeId) (targets : List α)
    (receiver : Value) : Option α :=
  match h.receiverShape? receiver with
  | none => none
  | some s => (shapes.idxOf? s).bind fun i => targets[i]?

/-! ### Loads -/

/-- Reads a property by the general rules. -/
def getByKey (receiver : Value) : Key → Action Value
  | .named n => getNamed receiver n
  | .computed v => getKeyed receiver v

/-- Loads by a stub whose guards hold. -/
def loadByHandler (spec : StubSpec) (receiver : Value) (key : Key) : Action Outcome := do
  let h ← get
  let name := key.name? h
  match spec.handler with
  | .loadField holder index =>
    return .ofOption ((h.holderId? receiver holder).map fun id => h.fieldValue id index)
  | .loadConstant v => return .hit v
  | .loadNonexistent => return .hit .undefined
  | .loadNormal =>
    return .ofOption (name.bind fun n =>
      (h.holderId? receiver .receiver).bind fun id => h.dictionaryValue? id n)
  | .loadGlobal global _ => return .ofOption (name.bind fun n => h.dictionaryValue? global n)
  | .loadViaGetter _ getter => return .hit (← call getter receiver [])
  | .loadInterceptor holder =>
    match name with
    -- return .hit (← getProperty receiver n) => A name that the interceptor does not answer is
    -- read the slow way.
    | none => return .miss
    | some n =>
      match (h.holderId? receiver holder).bind fun id => h.interceptorValue? id n with
      | some v => return .hit v
      | none => return .hit (← getProperty receiver n)
  | .loadStringLength =>
    return .ofOption ((h.string? receiver).map fun s => .smi (Text.unitLength s))
  | .loadStringWrapperLength =>
    if h.isStringWrapper receiver then
      return .ofOption ((h.stringLength? receiver).map fun n => .smi n)
    else return .miss
  | .loadArrayLength => return .ofOption ((h.arrayLength? receiver).map fun n => .smi n)
  | .loadFunctionPrototype =>
    return .ofOption ((h.functionData? receiver).map fun d => d.prototype)
  | .loadElement _ => return h.loadElement receiver key
  | .loadElementPolymorphic targets =>
    match h.targetFor? spec.receiverShapes targets receiver with
    | some (.elements _) => return h.loadElement receiver key
    | some .string => loadCharacter receiver key
    | none => return .miss
  | .loadIndexedString => loadCharacter receiver key
  | .loadNonStrictArguments => return h.loadArgument receiver key
  | _ => return .miss

/-- Loads by a stub. -/
def runLoad (spec : StubSpec) (receiver : Value) (key : Key) : Action Outcome := do
  match spec.handler with
  | .fresh | .premonomorphic | .megamorphic => return .miss
  | .generic => return .hit (← getByKey receiver key)
  | _ =>
    if (← get).guardsHold spec receiver (key.name? (← get)) then loadByHandler spec receiver key
    else return .miss

/-! ### Stores -/

/-- Writes a property by the general rules. -/
def setByKey (receiver : Value) (v : Value) (strict : Bool) : Key → Action Value
  | .named n => setNamed receiver n v strict
  | .computed k => setKeyed receiver k v strict

/-- Overwrites a writable dictionary entry. -/
def storeInDictionary (id : ObjectId) (name : Option Name) (v : Value) : Action Outcome := do
  let h ← get
  match name with
  | none => return .miss
  | some n =>
    match h.dictionarySlot? id n with
    | some e =>
      if e.attributes.readOnly then return .miss
      else
        set (h.setDictionaryValue id n v)
        return .hit v
    | none => return .miss

/-- Writes a field and moves the object to the shape that has it. -/
def storeNewField (h : Heap) (id : ObjectId) (index : Nat) (target : ShapeId) (v : Value) :
    Heap :=
  h.modifyObject id fun o =>
    let padding := List.replicate (index + 1 - o.fields.length) Value.undefined
    { o with shape := target, fields := (o.fields ++ padding).set index v }

/-- Stores to the object `id` by a stub whose guards hold. -/
def storeByHandler (spec : StubSpec) (receiver : Value) (id : ObjectId) (key : Key)
    (v : Value) : Action Outcome := do
  let h ← get
  let name := key.name? h
  match spec.handler with
  | .storeField index none =>
    set (h.setField id index v)
    return .hit v
  | .storeField index (some target) =>
    set (h.storeNewField id index target v)
    return .hit v
  | .storeNormal => storeInDictionary id name v
  | .storeGlobal global => storeInDictionary global name v
  | .storeViaSetter setter =>
    let _ ← call setter receiver [v]
    return .hit v
  | .storeArrayLength =>
    match v with
    | .smi i =>
      if h.isArray receiver && decide (0 ≤ i) then
        setArrayLength id v
        return .hit v
      else return .miss
    | _ => return .miss
  | .storeGlobalProxy =>
    match name with
    | none => return .miss
    | some n =>
      let _ ← setProperty receiver n v spec.mode.strict
      return .hit v
  | .storeElement kind grow => run fun h => h.storeElementFast id key v kind grow none
  | .storeElementPolymorphic targets =>
    match h.targetFor? spec.receiverShapes targets receiver with
    | some (.keep kind) => run fun h => h.storeElementFast id key v kind spec.mode.grow none
    | some (.transition target kind) =>
      run fun h => h.storeElementFast id key v kind spec.mode.grow (some target)
    | none => return .miss
  | .storeNonStrictArguments => run fun h => h.storeArgument id key v
  | _ => return .miss

/-- Stores by a stub. -/
def runStore (spec : StubSpec) (receiver : Value) (key : Key) (v : Value) : Action Outcome := do
  match spec.handler with
  | .fresh | .premonomorphic | .megamorphic => return .miss
  | .generic =>
    let _ ← setByKey receiver v spec.mode.strict key
    return .hit v
  | _ =>
    let h ← get
    if h.guardsHold spec receiver (key.name? h) then
      match h.holderId? receiver .receiver with
      | some id => storeByHandler spec receiver id key v
      | none => return .miss
    else return .miss

/-! ### Calls -/

/-- Whether a method of strings is called with a position outside the string; NaN is the first
position. -/
def outsideString (h : Heap) (function receiver : Value) (args : List Value) : Bool :=
  let isMethod := match h.functionShared? function with
    | some s => s.method.isSome
    | none => false
  match h.string? receiver, args.head?.bind h.numberValue? with
  | some s, some d =>
    isMethod &&
      (if d.isNaN then Text.unitLength s == 0
      else d.isInfinite || decide (d.truncate < 0 ∨ Text.unitLength s ≤ d.truncate))
  | _, _ => false

/-- Only functions are hits of call stubs. -/
def hitFunction (h : Heap) (v : Value) : Outcome := if h.isFunction v then .hit v else .miss

/-- Only functions are hits of call stubs. -/
def hitFunction? (h : Heap) : Option Value → Outcome
  | some v => h.hitFunction v
  | none => .miss

/-- Finds the function to call by a stub whose guards hold. -/
def calleeByHandler (spec : StubSpec) (receiver : Value) (key : Key) (args : List Value) :
    Action Outcome := do
  let h ← get
  let name := key.name? h
  match spec.handler with
  | .callField holder index =>
    return h.hitFunction? ((h.holderId? receiver holder).map fun id => h.fieldValue id index)
  | .callConstant f =>
    if !spec.mode.outOfBounds && h.outsideString f receiver args then return .miss
    else return h.hitFunction f
  | .callNormal =>
    return h.hitFunction? (name.bind fun n =>
      (h.holderId? receiver .receiver).bind fun id => h.dictionaryValue? id n)
  -- The cell has to hold the very function that the stub was compiled for.
  | .callGlobal global f =>
    return h.hitFunction?
      ((name.bind fun n => h.dictionaryValue? global n).filter fun v => v == f)
  | .callInterceptor _ =>
    match name with
    | none => return .miss
    | some n =>
      let v ← getProperty receiver n
      return (← get).hitFunction v
  | .callArguments =>
    match h.loadArgument receiver key with
    | .hit v => return h.hitFunction v
    | _ => return .miss
  | _ => return .miss

/-- Finds the function to call by the general rules. -/
def calleeByKey (receiver : Value) (key : Key) : Action Outcome := do
  let v ← getByKey receiver key
  return (← get).hitFunction v

/-- Finds the function to call by a stub. -/
def runCall (spec : StubSpec) (receiver : Value) (key : Key) (args : List Value) :
    Action Outcome := do
  match spec.handler with
  | .fresh | .premonomorphic | .megamorphic => return .miss
  | .generic => calleeByKey receiver key
  | _ =>
    let h ← get
    if h.guardsHold spec receiver (key.name? h) then calleeByHandler spec receiver key args
    else return .miss

end Heap

end Speculation
