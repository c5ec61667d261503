import Speculation.Proofs.Cache.ElementLoad
import Speculation.Proofs.Heap.Elements

/-!
# Hits of element stores

A stub for element stores overwrites an element of its receiver or appends one, if the elements
kind that it was made for admits the value. The general rules would write the same elements and
widen the kind just as far as the value asks (`storeElement_within`). A polymorphic stub may widen
it further: it moves the receiver along a transition that was recorded when the stub was made. Such
a transition still starts from the shape of the receiver, it changes nothing but the kind, and it
only leads to wider kinds, since no object could have followed another one.

There is one exception. The general rules pass a store to the global proxy on to the global object,
whereas a stub writes to the elements of the proxy. Named stores do not differ in this way, since
no stub is made for them.
-/

namespace Speculation

/-- Whether a handler writes elements by position. -/
def Handler.storesElements : Handler → Bool
  | .storeElement _ _ | .storeElementPolymorphic _ | .storeNonStrictArguments => true
  | _ => false

namespace Heap

variable {rules : Rules} {h h' : Heap} {id : ObjectId} {o : JsObject} {key : Key} {v w : Value}
  {i : Nat} {kind : ElementsKind} {spec : StubSpec}

/-! ### The general rules -/

/-- What the general rules do for a position inside the elements of an object or right behind
them: no gap opens, and the kind is the least one that admits the value, too. -/
theorem storeElement_within (ob : h.Obeys rules) (ho : h.object? id = some o)
    (hi : i ≤ o.elements.size) (v : Value) :
    ∃ g x, h.storeElement id i v = .ok g ∧ g.object? id = some x ∧
      x.elements = putElement o.elements i v ∧
      (g.shapeOf x).elementsKind = (h.shapeOf o).elementsKind.union (h.kindFor v) := by
  obtain ⟨s, hs, kind⟩ := generalizeElements_spec ob ho
    (ElementsKind.le_union (h.shapeOf o).elementsKind (h.kindFor v))
  have near : ¬ o.elements.size + maxGap < i := by omega
  have noGap : ¬ o.elements.size < i := by omega
  simp only [storeElement, ho, near, noGap, if_false]
  refine ⟨_, { o with shape := s, elements := putElement o.elements i v }, rfl, ?_, rfl, kind⟩
  have written : (resize o.elements o.elements.size).push v = o.elements.push v := by simp [resize]
  rcases Nat.lt_or_eq_of_le hi with lt | rfl
  · simp [writeElement, hs, putElement, lt]
  · simp [writeElement, hs, putElement, written]

/-- A store with a key that selects an element, to an object that is no proxy. -/
theorem setKeyed_element {k : Value} (ho : h.object? id = some o)
    (real : h.resolveProxy id = id) (hk : h.arrayIndex? k = some i)
    {g : Heap} (stored : h.storeElement id i v = .ok g) (strict : Bool) :
    setKeyed (.object id) k v strict h = (.ok v, g) := by
  have js := isJsObject_object ho
  simp only [setKeyed, Computation.get_bind, Value.isNullish, Bool.false_eq_true, if_false, hk,
    setElement, Value.objectId?, Option.filter, js, if_true]
  have run : (runExcept fun h => h.storeElement (h.resolveProxy id) i v) h = (.ok (), g) := by
    simp only [runExcept, Computation.get_bind, real, stored, Computation.set_apply]
  exact Computation.bind_ok run

/-! ### Stores by stubs -/

/-- The heap `h'` has other elements of the object `id` than `h` and may have a wider elements kind
for them; all else is as in `h`. -/
structure WritesElements (h : Heap) (id : ObjectId) (o o' : JsObject) (h' : Heap) : Prop where
  before : h.object? id = some o
  after : h'.object? id = some o'
  others : ∀ j, j ≠ id → h'.cell? j = h.cell? j
  shapes : h'.shapes = h.shapes
  named : o' = { o with shape := o'.shape, elements := o'.elements }
  layout : (h'.shapeOf o').derive = (h.shapeOf o).withElements (h'.shapeOf o').elementsKind
  wider : (h.shapeOf o).elementsKind.le (h'.shapeOf o').elementsKind

/-- What a store of `v` by a stub has in common with a store to the elements of the object `id` by
the general rules, which ends in the heap `g`: the elements, and a kind that is not narrower. Unless
the object is a proxy, this is what the general rules do for the key. -/
def AgreesWithGeneral (h : Heap) (id : ObjectId) (key : Key) (v : Value) (h' : Heap) : Prop :=
  ∃ o o' g x k i, h.WritesElements id o o' h' ∧ key = .computed k ∧ h.arrayIndex? k = some i ∧
    h.storeElement id i v = .ok g ∧ g.object? id = some x ∧ o'.elements = x.elements ∧
    (g.shapeOf x).elementsKind.le (h'.shapeOf o').elementsKind ∧
    ((∀ p, o.objectClass ≠ .globalProxy p) →
      ∀ strict, setKeyed (.object id) k v strict h = (.ok v, g))

/-- The shape `s` admits the value `v` for objects of the shape of `o`, and differs from that at most
in a wider elements kind. -/
structure Admits (h : Heap) (o : JsObject) (v : Value) (s : ShapeId) : Prop where
  layout : (h.shape s).derive = (h.shapeOf o).withElements (h.shape s).elementsKind
  wider : (h.shapeOf o).elementsKind.le (h.shape s).elementsKind
  value : (h.kindFor v).le (h.shape s).elementsKind

theorem agreesWithGeneral_of_admits (ob : h.Obeys rules) (ho : h.object? id = some o)
    (hi : key.elementIndex? = some i) (within : i ≤ o.elements.size) {s : ShapeId}
    (admits : h.Admits o v s) :
    h.AgreesWithGeneral id key v
      (h.modifyObject id fun o => { o with shape := s, elements := putElement o.elements i v }) := by
  obtain ⟨k, rfl, hk⟩ := key_of_elementIndex? (h := h) hi
  obtain ⟨g, x, stored, hx, elements, kind⟩ := storeElement_within ob ho within v
  refine ⟨o, { o with shape := s, elements := putElement o.elements i v }, g, x, k, i,
    ⟨ho, by simp [ho], fun j hj => cell?_modifyObject_ne (Ne.symm hj), rfl, rfl, admits.layout,
      admits.wider⟩, rfl, hk, stored, hx, elements.symm, ?_, fun real => ?_⟩
  · rw [kind, ElementsKind.union_le, Bool.and_eq_true]
    exact ⟨admits.wider, admits.value⟩
  · exact setKeyed_element ho (resolveProxy_eq_self ho real) hk stored

/-- A value that fits a kind is admitted by it; only the hole is not, whatever the kind. -/
theorem kindFor_le_of_fitsKind (fits : h.fitsKind kind v) (full : v ≠ .hole) :
    (h.kindFor v).le kind := by
  refine kindFor_le_iff.2 ⟨fun e => absurd e full, fun _ e => ?_, fun _ e => ?_⟩ <;>
    simpa [fitsKind, e] using fits

theorem admits_self (fits : h.fitsKind (h.shapeOf o).elementsKind v) (full : v ≠ .hole) :
    h.Admits o v o.shape :=
  ⟨rfl, ElementsKind.le_refl _, kindFor_le_of_fitsKind fits full⟩

/-- A stub for elements that admits the value stores it like the general rules. -/
theorem storeElementFast_agrees (ob : h.Obeys rules) (ho : h.object? id = some o) {grow : Bool}
    {target : Option ShapeId} (admits : h.fitsKind kind v → h.Admits o v (target.getD o.shape))
    (hit : h.storeElementFast id key v kind grow target = (.hit w, h')) :
    h.AgreesWithGeneral id key v h' := by
  obtain ⟨m, missed, e⟩ | ⟨i, x, hi, hx, within, fits, e⟩ :=
    h.storeElementFast_cases id key v kind grow target
  · exact absurd (congrArg Prod.fst (e.symm.trans hit)) (missed w)
  · obtain rfl := Option.some.inj (ho.symm.trans hx)
    obtain ⟨-, rfl⟩ := Prod.mk.inj (e.symm.trans hit)
    have agrees := agreesWithGeneral_of_admits ob ho hi within (admits fits)
    rwa [modifyObject_congr fun y hy => by rw [Option.some.inj (ho.symm.trans hy)]] at agrees

/-- Arguments have elements of any kind, so that no store widens theirs. -/
theorem storeArgument_agrees (ob : h.Obeys rules) (full : v ≠ .hole)
    (hit : h.storeArgument id key v = (.hit w, h')) : h.AgreesWithGeneral id key v h' := by
  obtain ⟨m, missed, e⟩ | ⟨i, o, hi, ho, within, fits, e⟩ := storeArgument_cases ob id key v
  · exact absurd (congrArg Prod.fst (e.symm.trans hit)) (missed w)
  · obtain ⟨-, rfl⟩ := Prod.mk.inj (e.symm.trans hit)
    have agrees := agreesWithGeneral_of_admits ob ho hi within (admits_self fits full)
    rwa [modifyObject_congr fun y hy => by rw [← Option.some.inj (ho.symm.trans hy)]] at agrees

/-- A transition of a polymorphic stub leads to a wider kind, from the shape that the receiver
has. -/
theorem admits_of_transition (ob : h.Obeys rules) (sound : spec.Sound rules h) {s : ShapeId}
    (listed : s ∈ spec.receiverShapes) (ho : h.object? id = some o)
    (known : (h.shape o.shape).elementsTransitions.get? (h.kindOfShape s) = some s)
    (fits : h.fitsKind (h.kindOfShape s) v) (full : v ≠ .hole) : h.Admits o v s where
  layout := ((ob.shape (ob.object ho).shape_lt).elementsTransitions known).2.1
  wider := (sound.usable s listed).widened _ _ known
  value := kindFor_le_of_fitsKind fits full

theorem run_eq_ok {α : Type} {f : Heap → α × Heap} {x : α} (e : run f h = (.ok x, h')) :
    f h = (x, h') := by
  injection e with e₁ e₂
  injection e₁ with e₁
  exact Prod.ext e₁ e₂

/-- So does every stub that stores elements. -/
theorem agreesWithGeneral_of_handler (ob : h.Obeys rules) (sound : spec.Sound rules h)
    (elements : spec.handler.storesElements) (ho : h.object? id = some o)
    (hold : h.guardsHold spec (.object id) (key.name? h)) (full : v ≠ .hole)
    (hit : storeByHandler spec (.object id) id key v h = (.ok (.hit w), h')) :
    h.AgreesWithGeneral id key v h' := by
  simp only [storeByHandler, Computation.get_bind] at hit
  cases hh : spec.handler with
  | storeElement kind grow =>
    obtain rfl := kind_of_storeElement sound hh ho hold
    simp only [hh] at hit
    have hit := run_eq_ok hit
    exact storeElementFast_agrees ob ho (fun fits => admits_self fits full) hit
  | storeElementPolymorphic targets =>
    simp only [hh] at hit
    cases ht : h.targetFor? spec.receiverShapes targets (.object id) with
    | none =>
      rw [ht] at hit
      cases hit
    | some target =>
      rw [ht] at hit
      cases storesElements_of_sound sound hh ho ht with
      | keep =>
        have hit := run_eq_ok hit
        exact storeElementFast_agrees ob ho (fun fits => admits_self fits full) hit
      | @transition s listed other known =>
        have hit := run_eq_ok hit
        have admits (fits : h.fitsKind (h.kindOfShape s) v) : h.Admits o v s :=
          admits_of_transition ob sound listed ho known fits full
        exact storeElementFast_agrees ob ho admits hit
  | storeNonStrictArguments =>
    simp only [hh] at hit
    exact storeArgument_agrees ob full (run_eq_ok hit)
  | _ => simp [Handler.storesElements, hh] at elements

end Heap

/-- **A hit of an element store leaves the elements that the general rules leave**, and apart from
them changes at most the elements kind of the receiver, which ends up no narrower than it was and
no narrower than by the general rules. For the global proxy the general rules are those for the
elements of the proxy, not those for the key. -/
theorem element_store_hit {rules : Rules} {session : Session} (reachable : session.Reachable rules)
    {spec : StubSpec} (has : session.HasStub spec) (elements : spec.handler.storesElements)
    {receiver v w : Value} {key : Key} (full : v ≠ .hole) {h' : Heap}
    (hit : Heap.runStore spec receiver key v session.engine.heap = (.ok (.hit w), h')) :
    ∃ id, receiver = .object id ∧ session.engine.heap.AgreesWithGeneral id key v h' := by
  have sound := reachable.sound.stub has
  have ob := reachable.sound.engine.heap
  have guarded : Heap.guardedStore spec receiver key v session.engine.heap = (.ok (.hit w), h') := by
    rw [← hit, Heap.runStore]
    cases hh : spec.handler <;> first | rfl | simp [Handler.storesElements, hh] at elements
  simp only [Heap.guardedStore, Computation.get_bind] at guarded
  split at guarded
  · rename_i hold
    cases hid : session.engine.heap.holderId? receiver .receiver with
    | none =>
      rw [hid] at guarded
      cases guarded
    | some id =>
      rw [hid] at guarded
      obtain ⟨o, rfl, ho⟩ := Heap.object_of_holderId? hid
      exact ⟨id, rfl, Heap.agreesWithGeneral_of_handler ob sound elements ho hold full guarded⟩
  · cases guarded

/-- A polymorphic stub that widens the kind of an array further than the stored value asks. -/
theorem element_store_hit_polymorphic :
    let array : ObjectId := ⟨10⟩
    let session := (Session.ofConfig {}).run [
      .onHeap (.array [.smi 7]), .onHeap (.array [.smi 8]), .newSite .keyedStore {},
      .atSite 0 (.keyedStore (.object array) (.smi 0) (.smi 1)),
      .atSite 0 (.keyedStore (.object ⟨11⟩) (.smi 0) (.boolean true))]
    let h := session.engine.heap
    session.Reachable {} ∧ ∃ site ∈ session.sites,
      let stored :=
        Heap.runStore site.target.spec (.object array) (.computed (.smi 0)) (.smi 2) h
      stored.1.toOption = some (.hit (.smi 2)) ∧
        h.AgreesWithGeneral array (.computed (.smi 0)) (.smi 2) stored.2 ∧
        h.elementsKind? (.object array) = some .packedSmi ∧
        stored.2.elementsKind? (.object array) = some .packed := by
  intro array session h
  have reachable : session.Reachable {} :=
    .run (.initial {}) ⟨trivial, trivial, trivial, trivial, trivial, trivial⟩
  have kinds : ∃ site ∈ session.sites, site.target.spec.handler.storesElements ∧
      let stored :=
        Heap.runStore site.target.spec (.object array) (.computed (.smi 0)) (.smi 2) h
      stored.1.toOption = some (.hit (.smi 2)) ∧
        h.elementsKind? (.object array) = some .packedSmi ∧
        stored.2.elementsKind? (.object array) = some .packed := by decide +kernel
  obtain ⟨site, mem, special, hit, before, after⟩ := kinds
  refine ⟨reachable, site, mem, hit, ?_, before, after⟩
  obtain ⟨id, e, agrees⟩ := element_store_hit reachable (.installed mem) special (by decide)
    (Computation.eq_ok_of_toOption hit)
  cases e
  exact agrees

/-- An element of the global proxy, by the stub that a store to the same element made. -/
theorem element_store_proxy_differs :
    let proxy : Value := .object Heap.globalProxy
    let session := (Session.ofConfig {}).run [
      .onHeap (.setArrayLength Heap.globalProxy (.smi 1)), .newSite .keyedStore {},
      .atSite 0 (.keyedStore proxy (.smi 0) (.smi 5))]
    let h := session.engine.heap
    session.Reachable {} ∧ ∃ site ∈ session.sites, site.target.spec.handler.storesElements ∧
      let stored := Heap.runStore site.target.spec proxy (.computed (.smi 0)) (.smi 6) h
      let general := Heap.setKeyed proxy (.smi 0) (.smi 6) false h
      stored.1.toOption = some (.hit (.smi 6)) ∧ general.1.toOption = some (.smi 6) ∧
        (stored.2.asObject? proxy).map (·.elements) = some #[.smi 6] ∧
        (general.2.asObject? proxy).map (·.elements) = some #[.hole] := by
  intro proxy session h
  refine ⟨.run (.initial {}) ⟨trivial, trivial, trivial, trivial⟩, by decide +kernel⟩

end Speculation
