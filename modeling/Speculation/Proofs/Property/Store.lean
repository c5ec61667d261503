import Speculation.Proofs.Property.Updates

/-!
# A store writes one property

A store of a named property looks the name up before it writes anything. What the lookup finds decides
everything: a read-only property refuses the store, an own one is written where it is kept, and an
inherited one, or none, leads to a new property of the object. An accessor is the only thing that could
have any other effect.

So a store without accessors (`store_writes_one_property`) leaves the heap as it is, or changes what one
object owns under one name and nothing else. The object has to fit its shape, as all objects do if
properties are added only under new names.
-/

namespace Speculation

namespace Heap

variable {rules : Rules} {h : Heap} {r : ObjectId} {o : JsObject} {name : Name}

/-- The attributes that an object has for a name, or those of a new property. -/
def ownAttributes (h : Heap) (id : ObjectId) (name : Name) : Attributes :=
  ((h.ownProperty? id name).map (·.attributes)).getD {}

theorem isJsObject_of_resolveProxy (ho : h.object? (h.resolveProxy r) = some o) :
    h.isJsObject (.object r) = true := by
  cases hr : h.object? r with
  | some x => exact isJsObject_object hr
  | none => simp [resolveProxy, hr] at ho

/-- Real lookups find properties. -/
theorem property_of_lookupReal {id : ObjectId} (found : h.lookupReal id name ≠ .notFound) :
    ∃ holder kind a, h.lookupReal id name = .property holder kind a := by
  rw [lookupReal_eq] at found ⊢
  obtain ⟨-, j, -, -, -, hj⟩ := firstFound_split rfl found
  rw [← hj] at found ⊢
  rcases h.ownReal_cases j name with e | ⟨kind, a, e⟩
  · exact absurd e found
  · exact ⟨_, kind, a, e⟩

/-- The route of a store that finds no accessor. -/
theorem storeRoute_data (ho : h.object? (h.resolveProxy r) = some o)
    (length : ¬ (name = .length ∧ h.isArray (.object (h.resolveProxy r))))
    (data : ∀ kind, (h.lookupReal (h.resolveProxy r) name).kind? = some kind →
      kind.isAccessor = false) :
    h.storeRoute (.object r) name =
      if (h.lookupReal (h.resolveProxy r) name).isReadOnly then .refused
      else match h.lookupReal (h.resolveProxy r) name with
        | .property holder kind _ =>
          if holder = h.resolveProxy r then .write (h.resolveProxy r) kind else .add (h.resolveProxy r)
        | _ => .add (h.resolveProxy r) := by
  have js := isJsObject_of_resolveProxy ho
  have ordinary : (decide (name = .length) && h.isArray (.object (h.resolveProxy r))) = false := by
    simpa [Bool.and_eq_false_iff] using length
  simp only [storeRoute, Value.objectId?, Option.filter_some, js, if_true, ordinary,
    Bool.false_eq_true, if_false]
  by_cases found : h.lookupReal (h.resolveProxy r) name = .notFound
  · rw [found]
    rfl
  · obtain ⟨holder, kind, a, e⟩ := property_of_lookupReal found
    rw [e] at data ⊢
    cases kind with
    | accessor g s => cases data _ rfl
    | _ => rfl

/-- **A store without accessors**: it is refused, or it writes one property of the object that the
receiver stands for. It calls nothing. -/
theorem Obeys.setPropertyWith_data (ob : h.Obeys rules) (ho : h.object? (h.resolveProxy r) = some o)
    (fit : (h.propertiesOf o).Fit)
    (length : ¬ (name = .length ∧ h.isArray (.object (h.resolveProxy r))))
    (data : ∀ kind, (h.lookupReal (h.resolveProxy r) name).kind? = some kind →
      kind.isAccessor = false) (call : Caller) (v : Value) (strict : Bool) :
    if (h.lookupReal (h.resolveProxy r) name).isReadOnly then
      setPropertyWith call (.object r) name v strict h = refuseStore (.object r) name v strict h
    else ∃ h', setPropertyWith call (.object r) name v strict h = (.ok v, h') ∧
      h.Updates h' (h.resolveProxy r) name (some ⟨.data v, h.ownAttributes (h.resolveProxy r) name⟩) := by
  -- The route says how the store goes; that it may go so follows from well-formedness alone.
  have spec := ob.storeRoute_spec (.object r) name
  have route := storeRoute_data ho length data
  have hr := ob.resolveProxy_resolveProxy r
  rw [setPropertyWith_apply]
  generalize h.resolveProxy r = id at ho length data route hr ⊢
  have add (adds : h.StoreAdds id name) : h.Updates (h.addProperty id name v {}) id name
      (some ⟨.data v, h.ownAttributes id name⟩) := by
    have fresh : h.ownAttributes id name = {} := by simp [ownAttributes, ownProperty?, adds.absent]
    rw [fresh]
    exact addProperty_updates ob ho hr fit adds.absent adds.array v {}
  split
  · rename_i ro
    rw [route, if_pos ro]
  · rename_i rw
    rw [if_neg rw] at route
    split at route
    · rename_i holder kind a found
      split at route
      · rename_i own
        rw [route] at spec ⊢
        obtain ⟨-, b, owned, -⟩ := spec
        have kept : h.ownAttributes id name = b := by simp [ownAttributes, ownProperty?, owned]
        rw [ownReal_eq hr ho, Lookup.ofOwned_eq_property] at owned
        rw [kept]
        exact ⟨_, rfl, writeOwn_updates ob ho fit owned.2 (data kind (by rw [found]; rfl)) v⟩
      · -- An inherited property stays where it is.
        rw [route] at spec ⊢
        exact ⟨_, rfl, add spec⟩
    · rw [route] at spec ⊢
      exact ⟨_, rfl, add spec⟩

/-- A store that meets no accessor writes the property, adds it, or is refused. -/
theorem Obeys.setProperty_data (ob : h.Obeys rules) (ho : h.object? (h.resolveProxy r) = some o)
    (fit : (h.propertiesOf o).Fit)
    (length : ¬ (name = .length ∧ h.isArray (.object (h.resolveProxy r))))
    (data : ∀ kind, (h.lookupReal (h.resolveProxy r) name).kind? = some kind →
      kind.isAccessor = false) (v : Value) (strict : Bool) :
    if (h.lookupReal (h.resolveProxy r) name).isReadOnly then
      setProperty (.object r) name v strict h = refuseStore (.object r) name v strict h
    else ∃ h', setProperty (.object r) name v strict h = (.ok v, h') ∧
      h.Updates h' (h.resolveProxy r) name (some ⟨.data v, h.ownAttributes (h.resolveProxy r) name⟩) :=
  ob.setPropertyWith_data ho fit length data call v strict

/-- What a global proxy stands for is there. -/
theorem Obeys.object?_resolveProxy (ob : h.Obeys rules) {x : JsObject} (hx : h.object? r = some x) :
    ∃ o, h.object? (h.resolveProxy r) = some o := by
  by_cases real : h.resolveProxy r = r
  · exact ⟨x, by rw [real, hx]⟩
  · obtain ⟨o, ho, -⟩ := ob.globalObject
    exact ⟨o, by rw [(ob.of_proxy real).1, ho]⟩

end Heap

/-- **A store of a named property writes that property and nothing else.** In every reachable heap, let
the receiver be an object with properties, and let what it stands for fit its shape. Unless the name is
the length of an array, or an accessor is found under it, a store does this: if the property found first
is read-only, the heap stays as it is, and strict code gets a type error. Otherwise the store succeeds, the
object owns the value under the name, with the attributes that it had there or none, and nothing else is
different: no other own property of any object, no elements, no prototype and no elements kind. -/
theorem store_writes_one_property {rules : Rules} {s : Session} (reachable : s.Reachable rules)
    {r : ObjectId} (object : s.engine.heap.isJsObject (.object r)) {name : Name} (v : Value)
    (strict : Bool) :
    let h := s.engine.heap
    let target := h.resolveProxy r
    let found := h.lookupReal target name
    let refusal : Exception := .readOnly name.text (h.describe (.object r))
    (∀ o, h.object? target = some o → (h.propertiesOf o).Fit) →
    ¬ (name = .length ∧ h.isArray (.object target)) →
    (∀ kind, found.kind? = some kind → kind.isAccessor = false) →
    if found.isReadOnly then
      refusal.kind = .typeError ∧ Heap.setProperty (.object r) name v strict h =
        (if strict then .error (.raised refusal) else .ok v, h)
    else ∃ h', Heap.setProperty (.object r) name v strict h = (.ok v, h') ∧
      h.Updates h' target name (some ⟨.data v, h.ownAttributes target name⟩) := by
  intro h target found refusal fit length data
  have ob : h.Obeys rules := reachable.sound.engine.heap
  obtain ⟨x, hx⟩ : ∃ x, h.object? r = some x := Option.isSome_iff_exists.mp object
  obtain ⟨o, ho⟩ := ob.object?_resolveProxy hx
  have store := ob.setProperty_data ho (fit o ho) length data v strict
  split at store
  · rename_i readOnly
    rw [if_pos readOnly, store]
    refine ⟨rfl, ?_⟩
    cases strict <;> rfl
  · rename_i writable
    rw [if_neg writable]
    exact store

/-- A constant that is not enumerated becomes a field, and one that is read-only stays. -/
theorem store_writes_one_property_constant :
    let session := (Session.ofConfig {}).run [
      .onHeap .object,
      .onHeap (.addConstant ⟨10⟩ ⟨"x"⟩ (.smi 1) { dontEnum := true }),
      .onHeap (.addConstant ⟨10⟩ ⟨"k"⟩ (.smi 1) { readOnly := true })]
    let h := session.engine.heap
    (∃ h', Heap.setProperty (.object ⟨10⟩) ⟨"x"⟩ (.smi 3) true h = (.ok (.smi 3), h') ∧
      h.Updates h' ⟨10⟩ ⟨"x"⟩ (some ⟨.data (.smi 3), { dontEnum := true }⟩)) ∧
    Heap.setProperty (.object ⟨10⟩) ⟨"k"⟩ (.smi 3) true h =
      (.error (.raised (.readOnly "k" "#<Object>")), h) := by
  intro session h
  let created := (Session.ofConfig {}).perform (.onHeap .object)
  let given := created.perform (.onHeap (.addConstant ⟨10⟩ ⟨"x"⟩ (.smi 1) { dontEnum := true }))
  -- The names added are new to the object.
  have fresh : ∀ o, created.engine.heap.object? ⟨10⟩ = some o →
      (created.engine.heap.shapeOf o).descriptor? ⟨"x"⟩ = none := by
    intro o ho
    cases ho
    decide +kernel
  have fresh' : ∀ o, given.engine.heap.object? ⟨10⟩ = some o →
      (given.engine.heap.shapeOf o).descriptor? ⟨"k"⟩ = none := by
    intro o ho
    cases ho
    decide +kernel
  have reachable : session.Reachable { freshNames := true } :=
    .run (.initial {}) ⟨trivial, ⟨fun _ o ho _ => fresh o ho, fun r => by cases r⟩,
      ⟨fun _ o ho _ => fresh' o ho, fun r => by cases r⟩, trivial⟩
  have object : h.isJsObject (.object ⟨10⟩) := by decide +kernel
  have fit : ∀ o, h.object? (h.resolveProxy ⟨10⟩) = some o → (h.propertiesOf o).Fit :=
    fun o ho => reachable.sound.engine.heap.fit rfl ho
  have data (name : Name)
      (constant : (h.lookupReal (h.resolveProxy ⟨10⟩) name).kind? = some (.constant (.smi 1))) :
      ∀ kind, (h.lookupReal (h.resolveProxy ⟨10⟩) name).kind? = some kind →
        kind.isAccessor = false := by
    intro kind hk
    obtain rfl := Option.some.inj (constant.symm.trans hk)
    rfl
  have write := store_writes_one_property reachable object (.smi 3) true fit
    (fun length => absurd length.1 (by decide)) (data ⟨"x"⟩ (by decide +kernel))
  have refuse := store_writes_one_property reachable object (.smi 3) true fit
    (fun length => absurd length.1 (by decide)) (data ⟨"k"⟩ (by decide +kernel))
  rw [if_neg (by decide +kernel)] at write
  rw [if_pos (by decide +kernel)] at refuse
  exact ⟨write, refuse.2⟩

end Speculation
