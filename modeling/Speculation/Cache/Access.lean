import Speculation.Cache.Call

/-!
# Accesses through sites

The operations that code performs through its sites: each runs the installed stub and, if that
misses, resolves the miss. Their results and effects on objects are those of the general rules
in `Heap.Access`; what a site has cached only decides how the result is found.
-/

namespace Speculation

namespace AtSite

/-- `receiver.name` -/
def load (receiver : Value) (name : Name) : Action Value := do
  match ← dispatchLoad receiver (.named name) with
  | .hit v => return v
  | .miss | .missForGood => resolveLoad receiver name

/-- `receiver.name = v`, with the value `v` -/
def store (receiver : Value) (name : Name) (v : Value) : Action Value := do
  match ← dispatchStore receiver (.named name) v with
  | .hit v => return v
  | .miss | .missForGood => resolveStore receiver name v

/-- `receiver[key]` -/
def keyedLoad (receiver key : Value) : Action Value := do
  match ← dispatchLoad receiver (.computed key) with
  | .hit v => return v
  | .miss => resolveKeyedLoad receiver key false
  | .missForGood => resolveKeyedLoad receiver key true

/-- `receiver[key] = v`, with the value `v` -/
def keyedStore (receiver key v : Value) : Action Value := do
  match ← dispatchStore receiver (.computed key) v with
  | .hit v => return v
  | .miss => resolveKeyedStore receiver key v false
  | .missForGood => resolveKeyedStore receiver key v true

/-- `receiver.name(args)` -/
def call (receiver : Value) (name : Name) (args : List Value) : Action Value := do
  let callee ← match ← dispatchCall receiver (.named name) args with
    | .hit f => pure f
    | .miss | .missForGood => resolveCall receiver name args
  onHeap (Heap.call callee receiver args)

/-- `receiver[key](args)` -/
def keyedCall (receiver key : Value) (args : List Value) : Action Value := do
  let callee ← match ← dispatchCall receiver (.computed key) args with
    | .hit f => pure f
    | .miss | .missForGood => resolveKeyedCall receiver key args
  onHeap (Heap.call callee receiver args)

end AtSite

end Speculation
