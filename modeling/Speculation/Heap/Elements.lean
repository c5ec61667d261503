import Speculation.Heap.Property

/-!
# Elements

Indexed properties. Elements of an object are a dense array; a hole lets the prototype's element
show through. A store may open a gap of holes behind the end, up to a limit, and moves the
object to a more general elements kind if the stored value or the gap asks for it.
-/

namespace Speculation

namespace Heap

/-- The largest gap that one store may open. -/
def maxGap : Nat := 2 ^ 20

/-- The array with exactly `n` elements, cut off or filled up with holes. -/
def resize (elements : Array Value) (n : Nat) : Array Value :=
  if n ≤ elements.size then elements.extract 0 n
  else elements ++ Array.replicate (n - elements.size) .hole

/-- Moves an object to a more general elements kind; any other kind changes nothing. -/
def generalizeElements (h : Heap) (id : ObjectId) (kind : ElementsKind) : Heap :=
  match h.object? id with
  | none => h
  | some o =>
    if (h.shapeOf o).elementsKind.generalizesTo kind then
      let (target, h) := h.elementsTransition o.shape kind
      h.setShape id target
    else h

/-- The string whose characters are the elements of a value. -/
def indexedString? (h : Heap) (v : Value) : Option String :=
  match h.classOf? v with
  | some (.stringWrapper inner) => h.string? inner
  | _ => h.string? v

/-- The own element of an object, holes excepted. -/
def ownElement? (h : Heap) (id : ObjectId) (index : Nat) : Option Value :=
  (h.object? id).bind fun o => o.elements[index]?.filter fun v => !v.isHole

/-- The element found along the chain of a value, which ends at the first object without
properties. -/
def chainElement (h : Heap) (receiver : Value) (index : Nat) : Value :=
  let ids := (h.chain (h.lookupStart receiver)).takeWhile fun id => (h.object? id).isSome
  (ids.findSome? fun id => h.ownElement? id index).getD .undefined

/-- Replaces or appends an element, filling a gap with holes. -/
def writeElement (h : Heap) (id : ObjectId) (index : Nat) (v : Value) : Heap :=
  h.modifyObject id fun o =>
    { o with elements :=
        if index < o.elements.size then o.elements.set! index v
        else (resize o.elements index).push v }

/-- Stores an element of an object with properties. -/
def storeElement (h : Heap) (id : ObjectId) (index : Nat) (v : Value) : Except Exception Heap :=
  match h.object? id with
  | none => .ok h
  | some o =>
    let length := o.elements.size
    if length + maxGap < index then .error (.elementTooFar index length)
    else
      let kind := (h.shapeOf o).elementsKind.union (h.kindFor v)
      let kind := if length < index then kind.toHoley else kind
      .ok ((h.generalizeElements id kind).writeElement id index v)

/-- Sets the length of an array. -/
def storeArrayLength (h : Heap) (id : ObjectId) (v : Value) : Except Exception Heap :=
  match h.arrayIndex? v with
  | none => .error (.invalidArrayLength (h.describe v))
  | some length =>
    match h.object? id with
    | none => .ok h
    | some o =>
      if o.elements.size + maxGap < length then .error (.invalidArrayLength (toString length))
      else
        let h :=
          if o.elements.size < length then
            h.generalizeElements id (h.shapeOf o).elementsKind.toHoley
          else h
        .ok (h.modifyObject id fun o => { o with elements := resize o.elements length })

end Heap

end Speculation
