import Speculation.Heap.Create

/-!
# Calls and named access

Getters and setters make reading and writing properties call functions. `invoke` follows call
handlers to the value that a call arrives at, with a bound on their number; a longer path than
there are cells leads in a circle, and never ends.

`getProperty` and `setProperty` are the general rules of named access, to which every stub must
conform. A property of a string, array or function that no shape describes is read before any
lookup.
-/

namespace Speculation

namespace Heap

/-- A way to call a function: callee, receiver and arguments. -/
abbrev Caller := Value → Value → List Value → Action Value

/-! ### Stores -/

/-- A store to a property that cannot be written: an exception in strict code, ignored
otherwise. -/
def refuseStore (receiver : Value) (name : Name) (v : Value) (strict : Bool) : Action Value := do
  if strict then raise (.readOnly name.text ((← get).describe receiver)) else return v

/-- Writes an own data property where it is kept. -/
def writeOwn (h : Heap) (id : ObjectId) (name : Name) (kind : PropertyKind) (v : Value) : Heap :=
  match kind with
  | .field i => h.setField id i v
  | .normal => h.setDictionaryValue id name v
  | .constant _ => h.constantToField id name v
  | .accessor _ _ => h

/-- Stores a named property, with `call` to invoke setters. The result is the stored value. -/
def setPropertyWith (call : Caller) (receiver : Value) (name : Name) (v : Value)
    (strict : Bool) : Action Value := do
  let h ← get
  match receiver.objectId?.filter fun _ => h.isJsObject receiver with
  | none => return v
  | some id =>
    let id := h.resolveProxy id
    if name = .length && h.isArray (.object id) then
      runExcept fun h => h.storeArrayLength id v
      return v
    else
      match h.lookupReal id name with
      -- A read-only property refuses the store also where it is inherited.
      | .property holder kind attributes =>
        match kind with
        | .accessor _ setter =>
          if h.isCallable setter then
            let _ ← call setter (.object id) [v]
            return v
          else refuseStore receiver name v strict
        | _ =>
          if attributes.readOnly then refuseStore receiver name v strict
          else if holder = id then
            set (h.writeOwn id name kind v)
            return v
          else
            set (h.addProperty id name v {})
            return v
      | _ =>
        set (h.addProperty id name v {})
        return v

/-! ### Host functions -/

/-- The text that a method of strings works on. -/
def thisString (method : String) (receiver : Value) : Action String := do
  let h ← get
  match h.string? receiver with
  | some s => return s
  | none =>
    match h.classOf? receiver with
    | some (.stringWrapper inner) => return (h.string? inner).getD ""
    | _ => raise (.notAString method (h.describe receiver))

/-- The position argument of a method of strings, if it lies inside. -/
def position? (h : Heap) (args : List Value) (length : Nat) : Option Nat :=
  let d := match args with
    | v :: _ => h.toNumber v
    | [] => .zero false
  if d.isNaN then (if 0 < length then some 0 else none)
  else if d.isInfinite then none
  else if 0 ≤ d.truncate ∧ d.truncate < length then some d.truncate.toNat
  else none

/-- What a host function does. Those that the host provides see the memory only. -/
def runHost (f : HostFunction) (receiver : Value) (args : List Value) : Action Value :=
  match f with
  | .provided i => fun h =>
    let (r, m) := h.host.run i receiver args h.toMemory
    (r.mapError Fault.inHost, { h with toMemory := m })
  | .charAt => do
    let units := Text.units (← thisString "charAt" receiver)
    match (← get).position? args units.length with
    | some i => newString (Text.textOfUnit (units.getD i 0))
    | none => newString ""
  | .charCodeAt => do
    let units := Text.units (← thisString "charCodeAt" receiver)
    match (← get).position? args units.length with
    | some i => return .smi (units.getD i 0)
    | none => boxNumber .nan

/-! ### Calls -/

/-- Runs a function; no other value can be called. -/
def enter (callee receiver : Value) (args : List Value) : Action Value := do
  let h ← get
  match h.functionData? callee with
  | none => raise (.notCallable (h.describe callee))
  | some data =>
    match data.host with
    | some f => runHost f receiver args
    | none => throw (.refused (.interpretedFunction (h.sharedInfo data.shared).name))

/-- Calls a value. An object with a call handler passes the call on to it, with itself as the
receiver. -/
def invoke : Nat → Caller
  | 0, _, _, _ => throw .endlessCall
  | depth + 1, callee, receiver, args => do
    match (← get).delegate? callee with
    | some d => invoke depth d callee args
    | none => enter callee receiver args

/-- Lists a call. -/
def noteCall (h : Heap) (callee receiver : Value) (args : List Value) : Heap :=
  { h with invocations := h.invocations ++ [⟨h.toMemory, callee, receiver, args⟩] }

/-- Calls a value. -/
def call (callee receiver : Value) (args : List Value) : Action Value := do
  modify fun h => h.noteCall callee receiver args
  invoke ((← get).cells.size + 1) callee receiver args

/-! ### Named access -/

/-- Stores a named property. -/
def setProperty (receiver : Value) (name : Name) (v : Value) (strict : Bool) : Action Value :=
  setPropertyWith call receiver name v strict

/-- Calls a getter; one that cannot be called yields `undefined`. -/
def callGetter (getter receiver : Value) : Action Value := do
  if (← get).isCallable getter then call getter receiver [] else return .undefined

/-- Reads the real property that a lookup found. -/
def readReal (receiver : Value) (found : Lookup) (name : Name) : Action Value := do
  match found with
  | .property holder kind _ =>
    match kind with
    | .field i => return (← get).fieldValue holder i
    | .constant v => return v
    | .normal => return ((← get).dictionaryValue? holder name).getD .undefined
    | .accessor getter _ => callGetter getter receiver
  | _ => return .undefined

/-- Reads what a lookup found. An interceptor without an answer lets the real properties from its
holder on show through. -/
def readLookup (receiver : Value) (found : Lookup) (name : Name) : Action Value := do
  match found with
  | .interceptor holder =>
    match (← get).interceptorValue? holder name with
    | some v => return v
    | none => readReal receiver ((← get).lookupReal holder name) name
  | _ => readReal receiver found name

/-- Reads a named property. -/
def getProperty (receiver : Value) (name : Name) : Action Value := do
  match (← get).intrinsic? receiver name with
  | some v => return v
  | none => readLookup receiver ((← get).lookup receiver name) name

/-! ### Indexed access -/

/-- Reads an element; the characters of a string come before the elements along the chain. -/
def getElement (receiver : Value) (index : Nat) : Action Value := do
  let h ← get
  match (h.indexedString? receiver).bind fun s => (Text.units s)[index]? with
  | some u => newString (Text.textOfUnit u)
  | none => return h.chainElement receiver index

/-- Stores an element. -/
def setElement (receiver : Value) (index : Nat) (v : Value) : Action Value := do
  let h ← get
  match receiver.objectId?.filter fun _ => h.isJsObject receiver with
  | none => return v
  | some id =>
    runExcept fun h => h.storeElement (h.resolveProxy id) index v
    return v

/-- Sets the length of an array. -/
def setArrayLength (id : ObjectId) (v : Value) : Action Unit :=
  runExcept fun h => h.storeArrayLength id v

end Heap

end Speculation
