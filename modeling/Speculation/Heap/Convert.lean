import Speculation.Heap.Lookup

/-!
# Conversions

How values convert to numbers, truth values and strings, which keys are array indices, and the
lengths of strings and arrays. Objects with properties are never converted through their
methods: as numbers they are NaN, as strings they have one fixed text.
-/

namespace Speculation

namespace Heap

/-- The number a value converts to. -/
def toNumber (h : Heap) (v : Value) : Double :=
  match v with
  | .smi i => Double.ofInt i
  | .undefined | .hole | .argumentsMarker => .nan
  | .null => .zero false
  | .boolean b => Double.ofNat (if b then 1 else 0)
  | .object _ =>
    match h.get? v with
    | some (.number d) => d
    | some (.string s _) => Double.ofText s
    | _ => .nan

/-- The truth value of a value. -/
def toBoolean (h : Heap) (v : Value) : Bool :=
  match v with
  | .smi i => i != 0
  | .undefined | .null | .hole => false
  | .boolean b => b
  | .argumentsMarker => true
  | .object _ =>
    match h.get? v with
    | some (.number d) => !d.isZero && !d.isNaN
    | some (.string s _) => !s.isEmpty
    | _ => true

/-- The text a value converts to. -/
def toText (h : Heap) (v : Value) : String :=
  match h.get? v with
  | some (.number d) => d.toText
  | some (.string s _) => s
  | some (.object _) => "[object Object]"
  | none => v.display

/-- The array index that a number is. -/
def indexOfNumber? (d : Double) : Option Nat :=
  if d.isIntegral && decide (0 ≤ d.truncate ∧ d.truncate ≤ Text.maxArrayIndex) then
    some d.truncate.toNat
  else none

/-- The array index that a key denotes. -/
def arrayIndex? (h : Heap) (key : Value) : Option Nat :=
  match key with
  | .smi i => if 0 ≤ i then some i.toNat else none
  | _ =>
    match h.get? key with
    | some (.number d) => indexOfNumber? d
    | some (.string s _) => Text.arrayIndex? s
    | _ => none

/-- The length of a string or string wrapper. -/
def stringLength? (h : Heap) (v : Value) : Option Nat :=
  match h.string? v with
  | some s => some (Text.unitLength s)
  | none =>
    match h.classOf? v with
    | some (.stringWrapper inner) => (h.string? inner).map Text.unitLength
    | _ => none

/-- The length of an array. -/
def arrayLength? (h : Heap) (v : Value) : Option Nat :=
  match h.asObject? v with
  | some o =>
    match o.objectClass with
    | .array => some o.elements.size
    | _ => none
  | none => none

/-- Properties that no shape describes: the lengths of strings and arrays, and the `prototype`
of functions. -/
def intrinsic? (h : Heap) (receiver : Value) (name : Name) : Option Value :=
  if name = .length then
    ((h.stringLength? receiver).or (h.arrayLength? receiver)).map fun n => .smi n
  else if name = .prototype then (h.functionData? receiver).map (·.prototype)
  else none

end Heap

end Speculation
