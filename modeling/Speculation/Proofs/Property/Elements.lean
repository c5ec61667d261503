import Speculation.Proofs.Cache.ElementLoad
import Speculation.Proofs.Property.Store

/-!
# Reading back what was written to elements

A store of an element, and a new length of an array, give one object other elements and perhaps a shape
of another elements kind; `h.Refills h' id elements` says this and that nothing else is different. A store
fills the gap that it opens with holes, and a hole is no own element, so that a load of any other element
goes along the chain as before.

A load of the element itself ends at the object that was written, with one exception: a store to the global
proxy is a store to the global object, which is the prototype of the proxy, but a load does not go there if
the proxy has the element of its own. The general rules never give it one, but a stub may.
-/

namespace Speculation

namespace Heap

variable {rules : Rules} {h h' h'' : Heap} {id r : ObjectId} {o p : JsObject} {i j : Nat} {v : Value}
  {elements elements' : Array Value} {kind : ElementsKind}

/-! ### Arrays with holes -/

/-- The elements after a store of one of them. -/
def written (elements : Array Value) (i : Nat) (v : Value) : Array Value :=
  if i < elements.size then elements.set! i v else (resize elements i).push v

theorem getElem?_resize (elements : Array Value) (n i : Nat) :
    (resize elements n)[i]? = if i < n then some (elements.getD i .hole) else none := by
  unfold resize
  split
  · rename_i shorter
    by_cases hi : i < n
    · have inside : i < elements.size := by omega
      simp [hi, inside]
    · simp [hi]
  · rename_i longer
    rw [Array.getElem?_append, Array.getElem?_replicate]
    split
    · rename_i inside
      have hi : i < n := by omega
      simp [inside, hi]
    · rename_i outside
      by_cases hi : i < n
      · have gap : i - elements.size < n - elements.size := by omega
        simp [hi, gap]
      · have gap : ¬ i - elements.size < n - elements.size := by omega
        simp [hi, gap]

theorem size_written (elements : Array Value) (i : Nat) (v : Value) :
    (written elements i v).size = max elements.size (i + 1) := by
  unfold written
  split
  · simp
    omega
  · simp [size_resize]
    omega

theorem getElem?_written_self (elements : Array Value) (i : Nat) (v : Value) :
    (written elements i v)[i]? = some v := by
  unfold written
  split
  · rename_i inside
    simp [inside]
  · rw [Array.getElem?_push, if_pos (size_resize elements i).symm]

/-- A store changes one element; what it opens is full of holes. -/
theorem filter_written_ne (hj : j ≠ i) :
    ((written elements i v)[j]?.filter fun v => !v.isHole) =
      elements[j]?.filter fun v => !v.isHole := by
  unfold written
  split
  · simp [Ne.symm hj]
  · rename_i outside
    rw [Array.getElem?_push, size_resize, if_neg hj, getElem?_resize]
    by_cases inside : j < elements.size
    · have before : j < i := by omega
      simp [before, inside]
    · rw [Array.getElem?_eq_none (by omega)]
      split
      · simp [Option.filter, Value.isHole]
      · rfl

/-! ### Other elements of one object -/

/-- The heap `h'` is `h` with other elements of the object `id`, and perhaps another kind of them. -/
structure Refills (h h' : Heap) (id : ObjectId) (elements : Array Value) : Prop where
  size : h'.cells.size = h.cells.size
  cell : ∀ j, j ≠ id → h'.cell? j = h.cell? j
  object : ∀ {o}, h.object? id = some o →
    ∃ s, h'.object? id = some { o with shape := s, elements := elements }

theorem Refills.trans (a : h.Refills h' id elements) (b : h'.Refills h'' id elements') :
    h.Refills h'' id elements' where
  size := b.size.trans a.size
  cell j hj := (b.cell j hj).trans (a.cell j hj)
  object ho := by
    obtain ⟨s, ho'⟩ := a.object ho
    obtain ⟨s', ho''⟩ := b.object ho'
    exact ⟨s', ho''⟩

/-- A new vector for one object refills it. -/
theorem refills_modifyObject {f : Array Value → Array Value} (ho : h.object? id = some o) :
    h.Refills (h.modifyObject id fun o => { o with elements := f o.elements }) id (f o.elements) where
  size := size_cells_modifyObject
  cell j hj := cell?_modifyObject_ne (Ne.symm hj)
  object {x} hx := by
    obtain rfl := Option.some.inj (ho.symm.trans hx)
    exact ⟨o.shape, by simp [ho]⟩

theorem generalizeElements_refills (ho : h.object? id = some o) (kind : ElementsKind) :
    h.Refills (h.generalizeElements id kind) id o.elements := by
  have stay : h.Refills h id o.elements := ⟨rfl, fun _ _ => rfl, fun {x} hx => by
    obtain rfl := Option.some.inj (ho.symm.trans hx)
    exact ⟨o.shape, ho⟩⟩
  unfold generalizeElements
  simp only [ho]
  split
  · have cells := cells_elementsTransition (h := h) o.shape kind
    refine ⟨by simp [setShape, cells], fun j hj => ?_, fun {x} hx => ?_⟩
    · rw [setShape, cell?_modifyObject_ne (Ne.symm hj), cell?, cell?, cells]
    · obtain rfl := Option.some.inj (ho.symm.trans hx)
      have same : (h.elementsTransition o.shape kind).2.object? id = some o := by
        rw [← ho, object?, object?, cell?, cell?, cells]
      exact ⟨_, by rw [setShape, object?_modifyObject_self, same]; rfl⟩
  · exact stay

/-- A store refills the object with the vector that was written. -/
theorem storeElement_refills (ho : h.object? id = some o) (stored : h.storeElement id i v = .ok h') :
    h.Refills h' id (written o.elements i v) := by
  obtain ⟨kind, -, -, -, rfl⟩ := storeElement_eq_ok ho stored
  have widened := generalizeElements_refills ho kind
  obtain ⟨s, hs⟩ := widened.object ho
  have filled := refills_modifyObject (f := fun elements => written elements i v) hs
  exact widened.trans filled

/-- A new length refills the object with the vector of this length. -/
theorem storeArrayLength_refills {n : Nat} (index : h.arrayIndex? v = some n)
    (ho : h.object? id = some o) (stored : h.storeArrayLength id v = .ok h') :
    h.Refills h' id (resize o.elements n) := by
  simp only [storeArrayLength, index, ho] at stored
  split at stored
  · cases stored
  injection stored with stored
  rw [← stored]
  split
  · have widened := generalizeElements_refills ho (h.shapeOf o).elementsKind.toHoley
    obtain ⟨s, hs⟩ := widened.object ho
    have filled := refills_modifyObject (f := fun elements => resize elements n) hs
    exact widened.trans filled
  · exact refills_modifyObject (f := fun elements => resize elements n) ho

/-! ### When a write fails -/

/-- A store of an element succeeds unless it leaves too large a gap. -/
theorem storeElement_of_object (ho : h.object? id = some o) (i : Nat) (v : Value) :
    if o.elements.size + maxGap < i then
      h.storeElement id i v = .error (.elementTooFar i o.elements.size)
    else ∃ h', h.storeElement id i v = .ok h' := by
  simp only [storeElement, ho]
  split
  · rfl
  · exact ⟨_, rfl⟩

/-- A new length is set unless it is no index or leaves too large a gap. -/
theorem storeArrayLength_of_object (ho : h.object? id = some o) (v : Value) :
    if (h.arrayIndex? v).any (· ≤ o.elements.size + maxGap) then
      ∃ h', h.storeArrayLength id v = .ok h'
    else ∃ text, h.storeArrayLength id v = .error (.invalidArrayLength text) := by
  simp only [storeArrayLength, ho]
  cases h.arrayIndex? v with
  | none => exact ⟨_, rfl⟩
  | some n =>
    by_cases far : o.elements.size + maxGap < n
    · simp [far]
    · simp [far, Nat.le_of_not_lt far]

theorem runExcept_of_ok {f : Heap → Except Exception Heap} (e : f h = .ok h') :
    runExcept f h = (.ok (), h') := by
  simp only [runExcept, Computation.get_bind, e]
  rfl

theorem runExcept_of_error {f : Heap → Except Exception Heap} {x : Exception} (e : f h = .error x) :
    runExcept f h = (.error (.raised x), h) := by
  simp only [runExcept, Computation.get_bind, e]
  rfl

section Receiver

variable (hp : h.object? r = some p)

include hp

/-- A store to an object is a store to the object that it stands for. -/
theorem setElement_eq (i : Nat) (v : Value) :
    setElement (.object r) i v h =
      (runExcept (fun h => h.storeElement (h.resolveProxy r) i v) >>= fun _ => pure v) h := by
  simp only [setElement, Computation.get_bind, Value.objectId?, Option.filter_some,
    isJsObject_object hp, if_true]

theorem setElement_of_ok (stored : h.storeElement (h.resolveProxy r) i v = .ok h') :
    setElement (.object r) i v h = (.ok v, h') := by
  rw [setElement_eq hp]
  exact Computation.bind_ok (runExcept_of_ok stored)

theorem setElement_of_error {x : Exception}
    (refused : h.storeElement (h.resolveProxy r) i v = .error x) :
    setElement (.object r) i v h = (.error (.raised x), h) := by
  rw [setElement_eq hp]
  exact Computation.bind_error (runExcept_of_error refused)

/-- An object that wraps no string has no characters in front of its elements. -/
theorem getElement_eq (bare : h.isStringWrapper (.object r) = false) (i : Nat) :
    getElement (.object r) i h = (.ok (h.chainElement (.object r) i), h) := by
  have object : h.asObject? (.object r) = some p := hp
  have none : h.wrappedUnit? (.object r) i = none := by simp [wrappedUnit?, bare]
  simp only [getElement, Computation.get_bind, indexedUnit?_of_asObject? object, none]
  rfl

end Receiver

/-! ### What is read afterwards -/

namespace Refills

theorem object?_ne (f : h.Refills h' id elements) (hj : r ≠ id) : h'.object? r = h.object? r := by
  simp only [object?, f.cell r hj]

variable (f : h.Refills h' id elements) (ho : h.object? id = some o)

include f ho

theorem isSome_object? (r : ObjectId) : (h'.object? r).isSome = (h.object? r).isSome := by
  by_cases hr : r = id
  · obtain ⟨s, ho'⟩ := f.object ho
    rw [hr, ho, ho']
    rfl
  · rw [f.object?_ne hr]

/-- An own element is one of the new ones, or it belongs to another object. -/
theorem ownElement?_eq (r : ObjectId) (j : Nat) :
    h'.ownElement? r j =
      if r = id then elements[j]?.filter fun v => !v.isHole else h.ownElement? r j := by
  split
  · rename_i hr
    obtain ⟨s, ho'⟩ := f.object ho
    rw [hr, ownElement?, ho', Option.bind_some]
  · rename_i hr
    rw [ownElement?, ownElement?, f.object?_ne hr]

/-- Where every object has the element that it had, every load gives what it gave. -/
theorem chainElement_eq (ob : h.Obeys rules) (l : Leads rules h h') (hp : h.object? r = some p)
    (same : ∀ k, h'.ownElement? k j = h.ownElement? k j) :
    h'.chainElement (.object r) j = h.chainElement (.object r) j := by
  have js := isJsObject_object hp
  have chain : h'.chain (.object r) = h.chain (.object r) :=
    l.grows.chain ob l.obeys fun k e => by
      cases e
      exact index_lt_of_object? hp
  simp only [chainElement, lookupStart, js, l.grows.isJsObject js, if_true, chain,
    f.isSome_object? ho, same]

end Refills

/-- A load from a proxy goes on to what the proxy stands for. -/
theorem Obeys.chainElement_proxy (ob : h.Obeys rules) (hp : h.object? r = some p)
    (proxy : h.resolveProxy r ≠ r) (i : Nat) :
    h.chainElement (.object r) i =
      (h.ownElement? r i).getD (h.chainElement (.object (h.resolveProxy r)) i) := by
  obtain ⟨g, ho, -⟩ := ob.globalObject
  obtain ⟨global, above⟩ := ob.of_proxy proxy
  have js := isJsObject_object hp
  have js' := isJsObject_object ho
  rw [global]
  simp only [chainElement, lookupStart, js, js', if_true, ob.chain_object r, above]
  rw [List.takeWhile_cons_of_pos (by simp [hp]), List.findSome?_cons]
  cases h.ownElement? r i <;> rfl

/-- An element that the object has is found first. -/
theorem chainElement_of_ownElement? (own : h.ownElement? id i = some v) :
    h.chainElement (.object id) i = v := by
  obtain ⟨o, ho, kept⟩ := Option.bind_eq_some_iff.mp own
  obtain ⟨there, full⟩ := Option.filter_eq_some_iff.mp kept
  exact chainElement_own (show h.asObject? (.object id) = some o from ho) there (by simpa using full)

/-- What is read after a store: the value that was stored, unless a proxy has the element of its own, and
what was read before under every other index. -/
theorem Obeys.storeElement_read (ob : h.Obeys rules) (hp : h.object? r = some p) (full : v ≠ .hole)
    (stored : h.storeElement (h.resolveProxy r) i v = .ok h') :
    h'.chainElement (.object r) i =
        (if h.resolveProxy r = r then v else (h.ownElement? r i).getD v) ∧
      ∀ j ≠ i, h'.chainElement (.object r) j = h.chainElement (.object r) j := by
  obtain ⟨o, ho⟩ := ob.object?_resolveProxy hp
  have refills := storeElement_refills ho stored
  have l : Leads rules h h' := storeElement_leads ob stored
  have notHole : v.isHole = false := by cases v <;> first | rfl | exact absurd rfl full
  have this : h'.chainElement (.object (h.resolveProxy r)) i = v := by
    refine chainElement_of_ownElement? ?_
    rw [refills.ownElement?_eq ho, if_pos rfl, getElem?_written_self, Option.filter_some,
      if_pos (by simp [notHole])]
  refine ⟨?_, fun j hj => refills.chainElement_eq ho ob l hp fun k => ?_⟩
  · split
    · rename_i real
      rwa [real] at this
    · rename_i proxy
      obtain ⟨x, hx, -⟩ := l.grows.object hp
      have same := l.grows.resolveProxy hp
      rw [l.obeys.chainElement_proxy hx (by rwa [same]), same, this, refills.ownElement?_eq ho,
        if_neg (Ne.symm proxy)]
  · rw [refills.ownElement?_eq ho]
    split
    · rename_i hk
      rw [filter_written_ne hj, hk, ownElement?, ho, Option.bind_some]
    · rfl

/-- A store of an element succeeds or leaves the heap as it is. -/
theorem Obeys.setElement_spec (ob : h.Obeys rules) (hp : h.object? r = some p)
    (bare : h.isStringWrapper (.object r) = false) (full : v ≠ .hole) (i : Nat) :
    ∃ o, h.object? (h.resolveProxy r) = some o ∧
      if o.elements.size + maxGap < i then
        setElement (.object r) i v h = (.error (.raised (.elementTooFar i o.elements.size)), h)
      else ∃ h' elements, setElement (.object r) i v h = (.ok v, h') ∧
        getElement (.object r) i h' =
          (.ok (if h.resolveProxy r = r then v else (h.ownElement? r i).getD v), h') ∧
        (∀ j ≠ i, (getElement (.object r) j h').1 = (getElement (.object r) j h).1) ∧
        h.Refills h' (h.resolveProxy r) elements ∧ elements.size = max o.elements.size (i + 1) := by
  obtain ⟨o, ho⟩ := ob.object?_resolveProxy hp
  refine ⟨o, ho, ?_⟩
  have outcome := storeElement_of_object ho i v
  split at outcome
  · rename_i far
    rw [if_pos far]
    exact setElement_of_error hp outcome
  · rename_i near
    rw [if_neg near]
    obtain ⟨h', stored⟩ := outcome
    have l : Leads rules h h' := storeElement_leads ob stored
    obtain ⟨p', hp', class', -⟩ := l.grows.object hp
    -- Storing an element does not make a string wrapper of the receiver.
    have bare' : h'.isStringWrapper (.object r) = false := by
      rw [isStringWrapper_object hp', ← ObjectClass.instanceType_fixed, class',
        ObjectClass.instanceType_fixed, ← isStringWrapper_object hp, bare]
    obtain ⟨this, others⟩ := ob.storeElement_read hp full stored
    refine ⟨h', _, setElement_of_ok hp stored, ?_, fun j hj => ?_, storeElement_refills ho stored,
      size_written o.elements i v⟩
    · rw [getElement_eq hp' bare', this]
    · rw [getElement_eq hp' bare', getElement_eq hp bare, others j hj]

/-- So does a new length of an array. -/
theorem setArrayLength_spec (ho : h.object? id = some o) (w : Value) :
    if (h.arrayIndex? w).any (· ≤ o.elements.size + maxGap) then
      ∃ h' elements, setArrayLength id w h = (.ok (), h') ∧ h.Refills h' id elements ∧
        h.arrayIndex? w = some elements.size ∧
        ∀ k < elements.size, elements[k]? = some (o.elements.getD k .hole)
    else ∃ text, setArrayLength id w h = (.error (.raised (.invalidArrayLength text)), h) := by
  have outcome := storeArrayLength_of_object ho w
  split at outcome
  · rename_i near
    rw [if_pos near]
    obtain ⟨h', stored⟩ := outcome
    obtain ⟨n, index, -⟩ := (Option.any_eq_true ..).mp near
    refine ⟨h', _, runExcept_of_ok stored, storeArrayLength_refills index ho stored, ?_, fun k hk => ?_⟩
    · rw [size_resize, index]
    · rw [size_resize] at hk
      rw [getElem?_resize, if_pos hk]
  · rename_i far
    rw [if_neg far]
    obtain ⟨text, refused⟩ := outcome
    exact ⟨text, runExcept_of_error refused⟩

end Heap

/-- **A store of an element is read back, and a store that fails changes nothing.** In every reachable heap,
let the receiver be an object that wraps no string, and let `o` be the object that it stands for. A store of
a value other than the hole fails, with a range error, exactly if the index is more than `2 ^ 20` behind the
end of the elements of `o`; then the heap is as it was. Otherwise a load of the element gives the value, and
a load of any other element what it gave before; `o` has as many elements as it takes, and nothing else is
different. Only a global proxy that has the element of its own gives that element instead of the value.

To set the length of an object fails with a range error and changes nothing, or leaves the elements of the
object cut off or filled up with holes to that length, and nothing else different. -/
theorem element_stores_read_back {rules : Rules} {s : Session} (reachable : s.Reachable rules)
    {r : ObjectId} {p : JsObject} (object : s.engine.heap.object? r = some p)
    (bare : s.engine.heap.isStringWrapper (.object r) = false) {v : Value} (full : v ≠ .hole) (i : Nat) :
    let h := s.engine.heap
    let target := h.resolveProxy r
    (∃ o, h.object? target = some o ∧
      if o.elements.size + 2 ^ 20 < i then
        let refusal : Exception := .elementTooFar i o.elements.size
        refusal.kind = .rangeError ∧ Heap.setElement (.object r) i v h = (.error (.raised refusal), h)
      else ∃ h' elements, Heap.setElement (.object r) i v h = (.ok v, h') ∧
        Heap.getElement (.object r) i h' =
          (.ok (if target = r then v else (h.ownElement? r i).getD v), h') ∧
        (∀ j ≠ i, (Heap.getElement (.object r) j h').1 = (Heap.getElement (.object r) j h).1) ∧
        h.Refills h' target elements ∧ elements.size = max o.elements.size (i + 1)) ∧
    ∀ (id : ObjectId) (o : JsObject) (w : Value), h.object? id = some o →
      if (h.arrayIndex? w).any (· ≤ o.elements.size + 2 ^ 20) then
        ∃ h' elements, Heap.setArrayLength id w h = (.ok (), h') ∧ h.Refills h' id elements ∧
          h.arrayIndex? w = some elements.size ∧
          ∀ k < elements.size, elements[k]? = some (o.elements.getD k .hole)
      else ∃ refusal : Exception, refusal.kind = .rangeError ∧
        Heap.setArrayLength id w h = (.error (.raised refusal), h) := by
  intro h target
  have ob : h.Obeys rules := reachable.sound.engine.heap
  constructor
  · obtain ⟨o, ho, outcome⟩ := ob.setElement_spec object bare full i
    refine ⟨o, ho, ?_⟩
    split
    · rename_i far
      exact ⟨rfl, (if_pos far).mp outcome⟩
    · rename_i near
      exact (if_neg near).mp outcome
  · intro id o w ho
    have outcome := Heap.setArrayLength_spec ho w
    split
    · rename_i near
      exact (if_pos near).mp outcome
    · rename_i far
      obtain ⟨text, refused⟩ := (if_neg far).mp outcome
      exact ⟨_, rfl, refused⟩

/-- An array gets a gap, in which an element of its prototype still shows. -/
theorem element_stores_read_back_gap :
    let array : Value := .object ⟨10⟩
    let session := (Session.ofConfig {}).run [
      .onHeap (.setElement (.object Heap.arrayPrototype) 1 (.smi 7)), .onHeap (.array [.smi 1])]
    let h := session.engine.heap
    ∃ h' elements, Heap.setElement array 3 (.smi 9) h = (.ok (.smi 9), h') ∧
      h.Refills h' ⟨10⟩ elements ∧ elements.size = 4 ∧
      Heap.getElement array 3 h' = (.ok (.smi 9), h') ∧
      (Heap.getElement array 1 h').1 = .ok (.smi 7) ∧
      (Heap.getElement array 2 h').1 = .ok .undefined := by
  intro array session h
  have reachable : session.Reachable {} := .run (.initial {}) ⟨trivial, trivial, trivial⟩
  obtain ⟨p, hp⟩ : ∃ p, h.object? ⟨10⟩ = some p := ⟨_, rfl⟩
  have real : h.resolveProxy ⟨10⟩ = ⟨10⟩ := by decide +kernel
  have bare : h.isStringWrapper array = false := by decide +kernel
  have size : p.elements.size = 1 := by
    cases hp
    decide +kernel
  obtain ⟨o, ho, outcome⟩ := (element_stores_read_back reachable hp bare (v := .smi 9) (by simp) 3).1
  rw [real] at ho
  obtain rfl := Option.some.inj (ho.symm.trans hp)
  rw [if_neg (by omega)] at outcome
  obtain ⟨h', elements, stored, this, others, refills, longer⟩ := outcome
  rw [real] at refills
  rw [if_pos real] at this
  refine ⟨h', elements, stored, refills, by omega, this, ?_, ?_⟩
  · rw [others 1 (by decide)]
    rfl
  · rw [others 2 (by decide)]
    rfl

/-- A stub gave the global proxy an element of its own, which a store to the proxy does not change. -/
theorem proxy_element_hides_store :
    let proxy : Value := .object Heap.globalProxy
    let session := (Session.ofConfig {}).run [
      .onHeap (.setArrayLength Heap.globalProxy (.smi 1)), .newSite .keyedStore {},
      .atSite 0 (.keyedStore proxy (.smi 0) (.smi 5)), .atSite 0 (.keyedStore proxy (.smi 0) (.smi 6))]
    let h := session.engine.heap
    let stored := Heap.setElement proxy 0 (.smi 7) h
    session.Reachable {} ∧ h.isJsObject proxy ∧ h.isStringWrapper proxy = false ∧
      stored.1.toOption = some (.smi 7) ∧
      (Heap.getElement proxy 0 stored.2).1.toOption = some (.smi 6) := by
  intro proxy session h stored
  exact ⟨.run (.initial {}) ⟨trivial, trivial, trivial, trivial, trivial⟩, by decide +kernel⟩

end Speculation
