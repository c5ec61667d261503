import Speculation.Heap.Convert

/-!
# Keys of accesses

A site accesses a property either by a name that is fixed in the code or by a computed value.
Some computed values are names or small integers in disguise.
-/

namespace Speculation

/-- What selects the property of an access. -/
inductive Key where
  | named (name : Name)
  | computed (value : Value)
deriving DecidableEq, Repr, Inhabited

namespace Key

/-- The name that a key is, if it is one as it stands: an internalized string whose text has
been used as a name. -/
def name? (h : Heap) : Key → Option Name
  | named n => some n
  | computed v =>
    if h.isInternalized v then
      match h.string? v with
      | some s => if h.names.contains ⟨s⟩ then some ⟨s⟩ else none
      | none => none
    else none

/-- The computed value. -/
def value? : Key → Option Value
  | named _ => none
  | computed v => some v

/-- The element that a small non-negative integer selects. -/
def elementIndex? : Key → Option Nat
  | computed (.smi i) => if 0 ≤ i then some i.toNat else none
  | _ => none

/-- A key in its simplest form: numbers that are small integers become these; NaN, `undefined`
and internalized strings become names. -/
def simplify (h : Heap) (v : Value) : Key :=
  if h.isHeapNumber v then
    match h.numberValue? v with
    | some d =>
      if d.isNaN then .named .nan
      else if d.isIntegral && Value.fitsSmi d.truncate then .computed (.smi d.truncate)
      else .computed v
    | none => .computed v
  else if v.isUndefined then .named .undefined
  else
    match (computed v).name? h with
    | some n => .named n
    | none => .computed v

end Key

end Speculation
