import Speculation.Heap.Call

/-!
# General access

Reading and writing properties as the program does, without any cache: `undefined` and `null`
have no properties, and any value can be a key. A key that denotes an array index selects an
element; every other key is converted to a name.
-/

namespace Speculation

namespace Heap

/-- The name that a key converts to; it counts as used from then on. -/
def nameOfKey (key : Value) : Action Name := do
  let n : Name := ⟨(← get).toText key⟩
  modify fun h => h.intern n
  return n

/-- `receiver.name` -/
def getNamed (receiver : Value) (name : Name) : Action Value := do
  if receiver.isNullish then raise (.nonObjectLoad name.text ((← get).describe receiver))
  else getProperty receiver name

/-- `receiver[key]` -/
def getKeyed (receiver key : Value) : Action Value := do
  let h ← get
  if receiver.isNullish then raise (.nonObjectLoad (h.toText key) (h.describe receiver))
  else
    match h.arrayIndex? key with
    | some i => getElement receiver i
    | none => getProperty receiver (← nameOfKey key)

/-- `receiver.name = v`; a name that spells an array index stores an element. -/
def setNamed (receiver : Value) (name : Name) (v : Value) (strict : Bool) : Action Value := do
  if receiver.isNullish then raise (.nonObjectStore name.text ((← get).describe receiver))
  else
    match name.arrayIndex? with
    | some i => setElement receiver i v
    | none => setProperty receiver name v strict

/-- `receiver[key] = v` -/
def setKeyed (receiver key : Value) (v : Value) (strict : Bool) : Action Value := do
  let h ← get
  if receiver.isNullish then raise (.nonObjectStore (h.toText key) (h.describe receiver))
  else
    match h.arrayIndex? key with
    | some i => setElement receiver i v
    | none => setProperty receiver (← nameOfKey key) v strict

end Heap

end Speculation
