import Speculation.Heap.Convert

/-!
# Feedback of truth tests

The type that a truth test sees. A test site records the set of types it has met.
-/

namespace Speculation

/-- The type of a tested value. -/
def TestedType.observed (h : Heap) (v : Value) : TestedType :=
  match v with
  | .undefined => .undefined
  | .boolean _ => .boolean
  | .null => .null
  | .smi _ => .smi
  | .hole | .argumentsMarker => .internalObject
  | .object _ =>
    if h.isHeapNumber v then .heapNumber
    else if h.isString v then .string
    else .specObject

/-- The trace of a change. -/
def TestedTypes.transitionText (old new : TestedTypes) : String :=
  s!"[ToBooleanIC ({old.text}->{new.text})]"

end Speculation
