import Speculation.Double.Arithmetic
import Speculation.Heap.Call

/-!
# A sample host

A host with a few functions to try calls with. Two of them store a property, which may call a
setter in turn; how deeply its functions may call each other is a number that the host is given.
-/

namespace Speculation

/-- The functions of the sample host. -/
inductive SampleFunction where
  /-- Returns seven. -/
  | seven
  /-- Returns the receiver. -/
  | this
  /-- Returns the first argument. -/
  | first
  /-- Returns the number of arguments. -/
  | count
  /-- Returns the sum of the arguments. -/
  | sum
  /-- Stores the first argument in the property `seen` of the receiver. -/
  | record
  /-- Stores one in the property `grown` of the receiver and returns eight. -/
  | grow
  /-- Throws a range error. -/
  | raise
deriving DecidableEq, Repr, Inhabited

namespace SampleFunction

def ofName? : String → Option SampleFunction
  | "seven" => some seven
  | "this" => some this
  | "first" => some first
  | "count" => some count
  | "sum" => some sum
  | "record" => some record
  | "grow" => some grow
  | "throw" => some raise
  | _ => none

/-- The functions in the order of their places. -/
def all : List SampleFunction := [seven, this, first, count, sum, record, grow, raise]

/-- The function as a host function. -/
def provided (f : SampleFunction) : HostFunction := .provided (all.idxOf f)

/-- Name of the property that `record` writes. -/
def seenName : Name := ⟨"seen"⟩

/-- Name of the property that `grow` writes. -/
def grownName : Name := ⟨"grown"⟩

/-- Stores a property whose name is used from then on. -/
def put (receiver : Value) (name : Name) (v result : Value) : Heap.Action Value := do
  modify fun h => h.intern name
  let _ ← Heap.setProperty receiver name v false
  return result

/-- What a function does to a heap. -/
def perform (f : SampleFunction) (receiver : Value) (args : List Value) : Heap.Action Value :=
  match f with
  | seven => return .smi 7
  | this => return receiver
  | first => return args.headD .undefined
  | count => return .smi args.length
  | sum => do
    let h ← get
    Heap.newNumber (args.foldl (fun d v => d.add (h.toNumber v)) (.zero false))
  | record => put receiver seenName (args.headD .undefined) .undefined
  | grow => put receiver grownName (.smi 1) (.smi 8)
  | raise => do
    let h ← get
    Heap.raise (.byHost .rangeError "host" s!"thrown for {h.describe receiver}")

end SampleFunction

/-- The sample host, whose functions may call each other to some depth. -/
def Host.sample : Nat → Host
  | 0 => ⟨fun _ _ _ m => (.error .endlessHost, m)⟩
  | depth + 1 => ⟨fun i receiver args m =>
    match SampleFunction.all[i]? with
    | none => (.ok .undefined, m)
    | some f =>
      let (r, h) := f.perform receiver args { m with host := .sample depth }
      (r, h.toMemory)⟩

end Speculation
