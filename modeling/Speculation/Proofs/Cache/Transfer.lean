import Speculation.Proofs.Cache.Origin

/-!
# Lookups of pinned receivers

A stub is made after a lookup in one heap and runs in a later one. Where its guards hold, an object
of the shape of one that was pinned owns what that one owned: nothing, unless its dictionary does
(`Twin.own_absent`), fields and constants (`Twin.own_described`), everything if it is fast
(`Twin.own_fast`), an interceptor (`Twin.own_interceptor`), and a dictionary entry where there still
is one (`Twin.own_entry`).

`StoreFinds` lists what a store can be specialized on.
-/

namespace Speculation

namespace Heap

variable {rules : Rules} {h₀ h : Heap} {name : Name}

/-! ### The receiver -/

namespace Twin

variable {id id' : ObjectId} {o o' : JsObject}

/-- A fast receiver owns what its shape says. -/
theorem owned?_fast (t : Twin h₀ h id id' o o') (ob₀ : h₀.Obeys rules) (g : h₀.Grows h)
    (fast : (h₀.shapeOf o).isDictionary = false) :
    (h.shapeOf o').owned? o'.dictionary name = (h₀.shapeOf o).owned? o.dictionary name := by
  have layout := t.layout ob₀ g
  have fast' : (h.shapeOf o').isDictionary = false := by
    simpa [fast] using congrArg Shape.isDictionary layout
  have hd : (h.shapeOf o').descriptors = (h₀.shapeOf o).descriptors := by
    simpa using congrArg Shape.descriptors layout
  rw [Shape.owned?_fast fast', Shape.owned?_fast fast, Shape.descriptor?, Shape.descriptor?, hd]

/-- A receiver that owned nothing owns nothing, unless its dictionary does. -/
theorem owned?_none (t : Twin h₀ h id id' o o') (ob₀ : h₀.Obeys rules) (g : h₀.Grows h)
    (hn : (h₀.shapeOf o).owned? o.dictionary name = none)
    (hd : (h₀.shapeOf o).isDictionary → o'.dictionary.get? name = none) :
    (h.shapeOf o').owned? o'.dictionary name = none := by
  cases hi : (h₀.shapeOf o).isDictionary with
  | false => rw [t.owned?_fast ob₀ g hi, hn]
  | true =>
    have hds : (h.shapeOf o').descriptors = (h₀.shapeOf o).descriptors := by
      simpa using congrArg Shape.descriptors (t.layout ob₀ g)
    have hdesc := Shape.descriptor?_of_owned?_none hn
    rw [Shape.descriptor?] at hdesc
    rw [Shape.owned?_absent (hd hi), Shape.descriptor?, hds, hdesc]
    rfl

theorem hasInterceptor_eq (t : Twin h₀ h id id' o o') (ob₀ : h₀.Obeys rules) (g : h₀.Grows h) :
    (h.shapeOf o').hasInterceptor = (h₀.shapeOf o).hasInterceptor := by
  simpa using congrArg Shape.hasInterceptor (t.layout ob₀ g)

theorem isDictionary_eq (t : Twin h₀ h id id' o o') (ob₀ : h₀.Obeys rules) (g : h₀.Grows h) :
    (h.shapeOf o').isDictionary = (h₀.shapeOf o).isDictionary := by
  simpa using congrArg Shape.isDictionary (t.layout ob₀ g)

/-- There is one global object. -/
theorem eq_of_global (t : Twin h₀ h id id' o o') (ob₀ : h₀.Obeys rules) (ob : h.Obeys rules)
    (g : h₀.Grows h) (hg : h₀.isGlobalObject (.object id)) : id' = id := by
  have hg' := isGlobalObject_object t.after
  rw [t.instanceType_eq ob₀ ob g, ← isGlobalObject_object t.before, hg] at hg'
  rw [ob.eq_globalObject hg', ob₀.eq_globalObject hg]

section Real

variable (t : Twin h₀ h id id' o o') (ob₀ : h₀.Obeys rules) (g : h₀.Grows h)
  (real₀ : h₀.resolveProxy id = id) (real : h.resolveProxy id' = id')

include t ob₀ g real₀ real

/-- A receiver like one that lacked a name lacks it, too, unless its dictionary has it. -/
theorem own_absent (absent : h₀.own id name = .notFound)
    (hd : (h₀.shapeOf o).isDictionary → o'.dictionary.get? name = none) :
    h.own id' name = .notFound := by
  rw [own_eq real₀ t.before] at absent
  rw [own_eq real t.after, t.hasInterceptor_eq ob₀ g]
  split at absent
  · cases absent
  · rw [if_neg ‹_›, Lookup.ofOwned_eq_notFound]
    exact t.owned?_none ob₀ g (Lookup.ofOwned_eq_notFound.1 absent) hd

/-- A property of a fast twin stands where it stood. -/
theorem own_fast (fast : (h₀.shapeOf o).isDictionary = false) {kind : PropertyKind} {a : Attributes}
    (own₀ : h₀.own id name = .property id kind a) : h.own id' name = .property id' kind a := by
  rw [own_eq real₀ t.before] at own₀
  rw [own_eq real t.after, t.hasInterceptor_eq ob₀ g, t.owned?_fast ob₀ g fast]
  split at own₀
  · cases own₀
  · rw [if_neg ‹_›]
    simpa using own₀

/-- An interceptor is one of the shape. -/
theorem own_interceptor (own₀ : h₀.own id name = .interceptor id) :
    h.own id' name = .interceptor id' := by
  rw [own_eq real₀ t.before] at own₀
  rw [own_eq real t.after, t.hasInterceptor_eq ob₀ g]
  split at own₀
  · rw [if_pos ‹_›]
  · cases e : (h₀.shapeOf o).owned? o.dictionary name <;> simp [e, Lookup.ofOwned] at own₀

/-- Fields and constants are where they were. -/
theorem own_described {kind : PropertyKind} {a : Attributes} (hk : kind ≠ .normal)
    (ha : kind.isAccessor = false) (own₀ : h₀.own id name = .property id kind a) :
    h.own id' name = .property id' kind a := by
  have legal := ob₀.shape (ob₀.object t.before).shape_lt
  refine t.own_fast ob₀ g real₀ real ?_ own₀
  rw [own_eq real₀ t.before] at own₀
  split at own₀
  · cases own₀
  · exact legal.fast_of_owned? (Lookup.ofOwned_eq_property.1 own₀).2 hk ha

/-- A dictionary entry, where there still is one. -/
theorem own_entry {a : Attributes} (own₀ : h₀.own id name = .property id .normal a) {v : Value}
    (value : h.dictionaryValue? id' name = some v) :
    ∃ a', h.own id' name = .property id' .normal a' := by
  have legal₀ := ob₀.shape (ob₀.object t.before).shape_lt
  rw [own_eq real₀ t.before] at own₀
  obtain ⟨e, he, -⟩ : ∃ e, o'.dictionary.get? name = some e ∧ e.value = v := by
    simpa [dictionaryValue?, dictionarySlot?, t.after] using value
  refine ⟨e.attributes, ?_⟩
  split at own₀
  · cases own₀
  · rename_i hi
    obtain ⟨hd, -⟩ := legal₀.entry_of_owned? (Lookup.ofOwned_eq_property.1 own₀).2
    have hd' : (h.shapeOf o').isDictionary := by
      rw [t.isDictionary_eq ob₀ g]
      exact hd
    rw [own_eq real t.after, t.hasInterceptor_eq ob₀ g, if_neg hi, Shape.owned?_present hd' he]
    rfl

end Real

end Twin

theorem Grows.isCallable (g : h₀.Grows h) {v : Value} (hf : h₀.isFunction v) : h.isCallable v := by
  have function : h.isFunction v := by
    cases v with
    | object j =>
      unfold isFunction classOf? asObject? at hf
      cases ho : h₀.object? j with
      | none => simp [Value.objectId?, ho] at hf
      | some x =>
        obtain ⟨x', hx', hc, -⟩ := g.object ho
        have hf : h₀.isFunction (.object j) := by simpa [isFunction, classOf?, asObject?] using hf
        rw [isFunction_object ho] at hf
        rw [isFunction_object hx', ← ObjectClass.instanceType_fixed, hc,
          ObjectClass.instanceType_fixed]
        exact hf
    | _ => simp [isFunction, classOf?, asObject?, Value.objectId?] at hf
  simp [Heap.isCallable, function]

/-! ### The objects above it -/

/-- A place that was in use has an object only if it had one. -/
theorem Grows.object_back (g : h₀.Grows h) {j : ObjectId} (hj : j.index < h₀.cells.size)
    (ho : (h.object? j).isSome) : ∃ o, h₀.object? j = some o := by
  obtain ⟨o', ho'⟩ := Option.isSome_iff_exists.1 ho
  obtain ⟨c, hc⟩ : ∃ c, h₀.cell? j = some c := ⟨_, Array.getElem?_eq_getElem hj⟩
  cases c with
  | object o => exact ⟨o, object?_eq_some.2 hc⟩
  | _ =>
    have hc' := g.primitive hc (by simp)
    rw [object?_eq_some.1 ho'] at hc'
    cases hc'

/-! ### Lookups for stores -/

/-- What a store to an object can be specialized on. -/
inductive StoreFinds (h : Heap) (id : ObjectId) (name : Name) : Lookup → Prop where
  /-- A writable property of its own. -/
  | own {kind : PropertyKind} {a : Attributes} (found : h.ownReal id name = .property id kind a)
      (writable : a.readOnly = false) : StoreFinds h id name (.property id kind a)
  /-- An accessor further up. -/
  | inherited {j : ObjectId} {getter setter : Value} {a : Attributes}
      (absent : h.own id name = .notFound)
      (found : h.lookup (.object id) name = .property j (.accessor getter setter) a) :
      StoreFinds h id name (.property j (.accessor getter setter) a)
  /-- A known transition that adds a property which no prototype has. -/
  | transition {target : ShapeId} {d : Descriptor} (absent : h.own id name = .notFound)
      (found : h.lookupTransition id name = .transition id target d)
      (nowhere : h.lookupInPrototypes id name = .notFound) :
      StoreFinds h id name (.transition id target d)

/-- A transition that is found adds the name to the object that it is found for. -/
theorem lookupTransition_eq_transition {id j : ObjectId} {target : ShapeId} {d : Descriptor}
    (e : h.lookupTransition id name = .transition j target d) : j = id ∧ d.name = name ∧
      ∃ o, h.object? id = some o ∧ (h.shapeOf o).transitions.get? name = some target ∧
        (h.shape target).lastAdded? = some d := by
  unfold lookupTransition at e
  split at e
  · cases e
  · rename_i o ho
    split at e
    · cases e
    · rename_i t ht
      split at e
      · rename_i d' hd
        split at e
        · cases e
          exact ⟨rfl, ‹_›, o, ho, ht, hd⟩
        · cases e
      · cases e

/-- A search for a transition finds one of this object, or none. -/
theorem lookupTransition_cases (h : Heap) (id : ObjectId) (name : Name) :
    h.lookupTransition id name = .notFound ∨
      ∃ target d, h.lookupTransition id name = .transition id target d := by
  unfold lookupTransition
  split
  · exact .inl rfl
  · split
    · exact .inl rfl
    · split
      · split
        · exact .inr ⟨_, _, rfl⟩
        · exact .inl rfl
      · exact .inl rfl

/-- What a store uses of a lookup along the whole chain: an accessor. -/
def lookupAccessor (h : Heap) (id : ObjectId) (name : Name) : Bool × Lookup :=
  match h.lookup (.object id) name with
  | .property holder (.accessor g s) a =>
    (h.isCacheableStore id (.property holder (.accessor g s) a),
      .property holder (.accessor g s) a)
  | found => (false, found)

/-- An accessor that is found for a store can be written. -/
theorem lookupAccessor_spec {id : ObjectId} {found : Lookup}
    (e : h.lookupAccessor id name = (true, found)) : ∃ j g s a,
      h.lookup (.object id) name = .property j (.accessor g s) a ∧ a.readOnly = false ∧
      found = .property j (.accessor g s) a := by
  unfold lookupAccessor at e
  split at e
  · rename_i j g s a hl
    obtain ⟨hc, rfl⟩ := Prod.mk.inj e
    exact ⟨j, g, s, a, hl, by simpa [isCacheableStore, Lookup.isReadOnly] using hc, rfl⟩
  · cases e

/-- What is found for a store is what stores may do with the object. -/
theorem lookupForStore_spec (ob : h.Obeys rules) {id : ObjectId} {o : JsObject} {found : Lookup}
    (ho : h.object? id = some o) (hr : h.resolveProxy id = id)
    (e : h.lookupForStore id name = (true, found)) : StoreFinds h id name found := by
  have absent (hown : h.own id name = .notFound) : StoreFinds h id name found := by
    simp only [lookupForStore, hown] at e
    split at e
    · -- If the first lookup is no use, only an accessor further up is.
      obtain ⟨j, g, s, a, hl, -, rfl⟩ := lookupAccessor_spec e
      exact .inherited hown hl
    · rename_i hc
      rcases h.lookupTransition_cases id name with ht | ⟨target, d, ht⟩
      · simp [ht, isCacheableStore] at hc
      · obtain ⟨-, hn, -⟩ := lookupTransition_eq_transition ht
        rw [ht] at e hc
        simp only [Lookup.isInterceptor, Bool.false_eq_true, if_false] at e
        cases e
        refine .transition hown ht ?_
        cases hp : h.lookupInPrototypes id name <;>
          simp [isCacheableStore, hn, hp, Lookup.isFound] at hc ⊢
  -- What the object owns decides: nothing, an interceptor, or a property of its own.
  rcases h.own_cases id name with hown | hown | hown
  · exact absent hown
  · simp only [lookupForStore, hown, hr] at e
    simp only [isCacheableStore, Lookup.isReadOnly, Bool.not_false, Bool.not_true,
      Bool.false_eq_true, if_false, Lookup.isInterceptor, if_true] at e
    obtain ⟨hc, rfl⟩ := Prod.mk.inj e
    rcases h.ownReal_cases id name with hreal | ⟨k, a, hreal⟩
    · simp [hreal] at hc
    · rw [hr] at hreal
      rw [hreal] at hc ⊢
      exact .own hreal (by simpa using hc)
  · rw [hr] at hown
    rcases h.ownReal_cases id name with hreal | ⟨k, a, hreal⟩
    · exact absent (hown.trans hreal)
    · rw [hr] at hreal
      have hown' := hown.trans hreal
      simp only [lookupForStore, hown'] at e
      cases ha : a.readOnly with
      | false =>
        simp only [isCacheableStore, Lookup.isReadOnly, ha, Bool.not_false, Bool.not_true,
          Bool.false_eq_true, if_false, Lookup.isInterceptor] at e
        cases e
        exact .own hreal ha
      -- A read-only property is skipped for an accessor further up, but the lookup from the
      -- object stops at that same property.
      | true =>
        simp only [isCacheableStore, Lookup.isReadOnly, ha, Bool.not_true, Bool.not_false,
          if_true] at e
        obtain ⟨j, g, s, a', hl, hw, rfl⟩ := lookupAccessor_spec e
        rw [ob.lookup_object ho, firstFound, hown'] at hl
        cases hl
        simp [ha] at hw

/-! ### Stores that add a property -/

section Transition

variable {id id' : ObjectId} {o o' : JsObject} {spec : StubSpec} {found : Lookup}
  {holder : Option ObjectId} {index : Nat} {target : ShapeId}

/-- The transition that a stub for a new field was made for. -/
theorem StoreOrigin.transition (so : h₀.StoreOrigin spec id o name found holder)
    (ob₀ : h₀.Obeys rules) (hh : spec.handler = .storeField index (some target)) :
    holder = none ∧ h₀.own id name = .notFound ∧ h₀.lookupInPrototypes id name = .notFound ∧
      (h₀.shapeOf o).transitions.get? name = some target ∧
      (h₀.shape target).lastAdded? = some ⟨name, .field index, {}⟩ := by
  have hr := resolveProxy_eq_self so.object so.proxy
  have finds := lookupForStore_spec ob₀ so.object hr so.cacheable
  have handler := so.handler
  rw [hh] at handler
  -- Only a transition compiles to a store that adds a field; the other two kinds of lookup give
  -- other handlers.
  cases finds with
  | own hown hw =>
    rename_i kind a
    cases kind with
    | field i => simp [storeHandler?, fieldStoreHandler?] at handler
    | constant v => simp [storeHandler?, fieldStoreHandler?] at handler
    | normal =>
      simp only [storeHandler?] at handler
      split at handler
      · simp at handler
      · simp at handler
    | accessor g s =>
      simp only [storeHandler?] at handler
      split at handler <;> simp at handler
  | inherited hown hl =>
    simp only [storeHandler?] at handler
    split at handler <;> simp at handler
  | transition hown ht nowhere =>
    rename_i t d
    obtain ⟨-, hn, o₁, ho₁, hget, hlast⟩ := lookupTransition_eq_transition ht
    obtain rfl := Option.some.inj (so.object.symm.trans ho₁)
    obtain ⟨n, kind, a⟩ := d
    simp only [storeHandler?, fieldStoreHandler?] at handler
    split at handler
    · split at handler
      · simp at handler
        simp_all
      · cases handler
    · cases handler

/-- The same transition starts from the shape of every receiver that passes the guards. -/
theorem Twin.transition (t : Twin h₀ h id id' o o') (ob₀ : h₀.Obeys rules) (ob : h.Obeys rules)
    (g : h₀.Grows h) (hget : (h₀.shapeOf o).transitions.get? name = some target)
    (hlast : (h₀.shape target).lastAdded? = some ⟨name, .field index, {}⟩) :
    (h.shapeOf o').transitions.get? name = some target ∧
      (h.shape target).lastAdded? = some ⟨name, .field index, {}⟩ ∧
      target.index < h.shapes.size ∧ index = (h.shapeOf o').fieldCount ∧
      (h.shape target).derive = ((h.shapeOf o').extended ⟨name, .field index, {}⟩).derive := by
  have hget' : (h.shapeOf o').transitions.get? name = some target := by
    rw [shapeOf, t.shape]
    exact g.transition hget
  have legal₀ := ob₀.shape (ob₀.object t.before).shape_lt
  have legal := ob.shape (ob.object t.after).shape_lt
  obtain ⟨hlt₀, -⟩ := legal₀.transitions hget
  obtain ⟨hlt, -, d, hn, hf, hl⟩ := legal.transitions hget'
  have hdesc : (h.shape target).descriptors = (h.shapeOf o').descriptors ++ [d] := by
    simpa [shapeOf] using congrArg Shape.descriptors hl
  have hlast' : (h.shape target).lastAdded? = (h₀.shape target).lastAdded? := by
    have : (h.shape target).descriptors = (h₀.shape target).descriptors := by
      simpa using congrArg Shape.descriptors (g.layout hlt₀)
    rw [Shape.lastAdded?, Shape.lastAdded?, this]
  -- The shape added to is the same one, so the property last added is as well.
  have hd : d = ⟨name, .field index, {}⟩ := by
    have e := hlast'.trans hlast
    rw [Shape.lastAdded?, hdesc, List.getLast?_concat] at e
    exact Option.some.inj e
  subst hd
  exact ⟨hget', hlast'.trans hlast, hlt, hf index rfl, hl⟩

end Transition

/-! ### Stubs whose guards hold -/

/-- A stub that was made for the object `id` of an earlier heap passes its guards for `id'`. -/
structure Guarded (rules : Rules) (h₀ h : Heap) (name : Name) (holder : Option ObjectId)
    (id id' : ObjectId) (o o' : JsObject) : Prop extends Twin h₀ h id id' o o' where
  obeys₀ : h₀.Obeys rules
  obeys : h.Obeys rules
  grows : h₀.Grows h
  above : some id ≠ holder →
    Checks h name (h₀.guardsAlong holder (h₀.chain (h₀.prototypeOf (.object id))))
  absent : some id ≠ holder → (h₀.shapeOf o).isDictionary → o'.dictionary.get? name = none

/-- Where the guards of a stub hold, the receiver is guarded like the one that the stub was made for. -/
theorem guarded_of_guardsHold {kind : SiteKind} {mode : SiteMode} {handler : Handler}
    {id : ObjectId} {o : JsObject} {holder : Option ObjectId} {spec : StubSpec}
    (ob₀ : h₀.Obeys rules) (ob : h.Obeys rules) (g : h₀.Grows h) (ho : h₀.object? id = some o)
    (hs : h₀.monomorphicSpec? kind mode handler (.object id) holder name = some spec)
    {receiver : Value} {key : Option Name} (hold : h.guardsHold spec receiver key) :
    key = some name ∧ ∃ id' o', receiver = .object id' ∧
      Guarded rules h₀ h name holder id id' o o' := by
  obtain ⟨hk, id', o', hr, t, hg⟩ := guardsHold_spec ob₀ ho hs hold
  exact ⟨hk, id', o', hr, t, ob₀, ob, g, fun hne => (hg hne).1, fun hne => (hg hne).2⟩

/-- A receiver like one that lacked the name lacks it, too. -/
theorem Guarded.own_absent {holder : Option ObjectId} {id id' : ObjectId} {o o' : JsObject}
    (gd : Guarded rules h₀ h name holder id id' o o') (hp : ∀ g, o.objectClass ≠ .globalProxy g)
    (hne : some id ≠ holder) (absent : h₀.own id name = .notFound) :
    h.own id' name = .notFound := by
  obtain ⟨hr₀, hr⟩ := gd.toTwin.resolveProxy_eq_self gd.obeys₀ gd.obeys gd.grows hp
  exact gd.toTwin.own_absent gd.obeys₀ gd.grows hr₀ hr absent (gd.absent hne)

end Heap

/-- A stub for a lookup that passes its guards. -/
theorem StubSpec.Sound.load {rules : Rules} {h : Heap} {spec : StubSpec} (s : spec.Sound rules h)
    (ob : h.Obeys rules) {receiver : Value} {key : Option Name}
    (hold : h.guardsHold spec receiver key)
    (named : ∀ h₀, spec.Origin h₀ → ∃ id o name holder, h₀.LoadOrigin spec id o name holder) :
    ∃ h₀ name holder id id' o o', h₀.LoadOrigin spec id o name holder ∧ key = some name ∧
      receiver = .object id' ∧ Heap.Guarded rules h₀ h name holder id id' o o' := by
  obtain ⟨h₀, ob₀, g, -, -, c⟩ := s
  obtain ⟨id, o, name, holder, l⟩ := named h₀ c
  obtain ⟨hk, id', o', hr, gd⟩ := Heap.guarded_of_guardsHold ob₀ ob g l.object l.guards hold
  exact ⟨h₀, name, holder, id, id', o, o', l, hk, hr, gd⟩

/-- A stub for a named store that passes its guards. -/
theorem StubSpec.Sound.store {rules : Rules} {h : Heap} {spec : StubSpec} (s : spec.Sound rules h)
    (ob : h.Obeys rules) {receiver : Value} {key : Option Name}
    (hold : h.guardsHold spec receiver key)
    (named : ∀ h₀, spec.Origin h₀ →
      ∃ id o name found holder, h₀.StoreOrigin spec id o name found holder) :
    ∃ h₀ name found holder id id' o o', h₀.StoreOrigin spec id o name found holder ∧
      key = some name ∧ receiver = .object id' ∧
      Heap.Guarded rules h₀ h name holder id id' o o' := by
  obtain ⟨h₀, ob₀, g, -, -, c⟩ := s
  obtain ⟨id, o, name, found, holder, l⟩ := named h₀ c
  obtain ⟨hk, id', o', hr, gd⟩ := Heap.guarded_of_guardsHold ob₀ ob g l.object l.guards hold
  exact ⟨h₀, name, found, holder, id, id', o, o', l, hk, hr, gd⟩

end Speculation
