import Speculation.Proofs.Cache.Absence
import Speculation.Proofs.Cache.ElementStore
import Speculation.Proofs.Cache.Owners
import Speculation.Proofs.Heap.ReadOnly

/-!
# Hits of named stores

A stub for a named store that hits does what `setProperty` does: it takes the route that the
general rules take (`storeRoute`), since its guards pin the lookup that it was made from, and on
that route it writes the same slot, adds the same property or calls the same setter
(`StoreOrigin.stands`). A store that adds a property ends at the shape that the general rules would
find, because transitions are followed where they are known.

There is one exception. The general rules set the length of every array themselves, whereas a stub
for an array in dictionary mode may have been made from a setter `length` of a prototype.
-/

namespace Speculation

namespace Heap

variable {rules : Rules} {h₀ h : Heap} {name : Name} {id id' j : ObjectId} {o o' : JsObject}

/-! ### Routes of stores to objects -/

section Route

variable (ho : h.object? id = some o) (hr : h.resolveProxy id = id)

include ho hr

/-- A store to the length of an array resizes it. -/
theorem storeRoute_length (hn : name = .length) (harr : h.isArray (.object id)) :
    h.storeRoute (.object id) name = .arrayLength id := by
  have hj := isJsObject_object ho
  simp [storeRoute, Value.objectId?, Option.filter, hj, hr, hn, harr]

variable (hl : ¬ (name = .length ∧ h.isArray (.object id)))

include hl

/-- The route of a store that does not set the length of an array. -/
theorem storeRoute_object : h.storeRoute (.object id) name =
    match h.lookupReal id name with
    | .property holder kind attributes =>
      match kind with
      | .accessor _ setter => if h.isCallable setter then .setter id setter else .refused
      | _ =>
        if attributes.readOnly then .refused
        else if holder = id then .write id kind
        else .add id
    | _ => .add id := by
  have hj := isJsObject_object ho
  have hl' : (decide (name = .length) && h.isArray (.object id)) = false := by
    simpa [Bool.and_eq_false_iff] using hl
  cases e : h.lookupReal id name with
  | property holder kind attributes =>
    cases kind <;> simp [storeRoute, Value.objectId?, Option.filter, hj, hr, hl', e]
  | _ => simp [storeRoute, Value.objectId?, Option.filter, hj, hr, hl', e]

/-- A store to an own property writes it. -/
theorem storeRoute_write {kind : PropertyKind} {a : Attributes}
    (own : h.ownReal id name = .property id kind a) (hk : kind.isAccessor = false)
    (ha : a.readOnly = false) : h.storeRoute (.object id) name = .write id kind := by
  rw [storeRoute_object ho hr hl, lookupReal, own]
  cases kind with
  | accessor g s => cases hk
  | _ => simp [ha]

/-- A store to a property that nobody has adds it. -/
theorem storeRoute_add (own : h.ownReal id name = .notFound)
    (nowhere : h.lookupInPrototypes id name = .notFound) :
    h.storeRoute (.object id) name = .add id := by
  rw [storeRoute_object ho hr hl, lookupReal, own, nowhere]

/-- A store to an accessor calls its setter. -/
theorem storeRoute_setter {g s : Value} {a : Attributes}
    (found : h.lookupReal id name = .property j (.accessor g s) a) (callable : h.isCallable s) :
    h.storeRoute (.object id) name = .setter id s := by
  rw [storeRoute_object ho hr hl, found]
  simp [callable]

end Route

section Follow

variable {receiver v : Value} {strict : Bool}

theorem setProperty_write {kind : PropertyKind} (e : h.storeRoute receiver name = .write id kind) :
    setProperty receiver name v strict h = (.ok v, h.writeOwn id name kind v) := by
  rw [setProperty, setPropertyWith_apply, e]
  rfl

theorem setProperty_add (e : h.storeRoute receiver name = .add id) :
    setProperty receiver name v strict h = (.ok v, h.addProperty id name v {}) := by
  rw [setProperty, setPropertyWith_apply, e]
  rfl

theorem setProperty_setter {setter : Value} (e : h.storeRoute receiver name = .setter id setter) :
    setProperty receiver name v strict h =
      (call setter (.object id) [v] >>= fun _ => pure v : Action Value) h := by
  rw [setProperty, setPropertyWith_apply, e]

theorem setProperty_length (e : h.storeRoute receiver name = .arrayLength id) :
    setProperty receiver name v strict h =
      (setArrayLength id v >>= fun _ => pure v : Action Value) h := by
  rw [setProperty, setPropertyWith_apply, e]
  rfl

end Follow

/-- A store has the stored value. -/
theorem setProperty_value {receiver v : Value} {strict : Bool} :
    setProperty receiver name v strict h =
      (setProperty receiver name v strict >>= fun _ => pure v : Action Value) h := by
  rw [Computation.bind_apply, setProperty, setPropertyWith_apply]
  cases h.storeRoute receiver name with
  | refused =>
    unfold refuseStore
    cases strict <;> rfl
  | arrayLength id =>
    dsimp only
    rw [Computation.bind_apply]
    rcases runExcept (fun h => h.storeArrayLength id v) h with ⟨_ | _, g⟩ <;> rfl
  | setter id setter =>
    dsimp only
    rw [Computation.bind_apply]
    rcases call setter (.object id) [v] h with ⟨_ | _, g⟩ <;> rfl
  | _ => rfl

/-- A stub that performs an action for its effect and hits with the stored value. -/
theorem stands_effect {α : Type} {v : Value} {a : Action Outcome} {b : Action Value} {c : Action α}
    (ha : a h = (c >>= fun _ => pure (Outcome.hit v)) h)
    (hb : b h = (c >>= fun _ => pure v) h) : Stands h a b := by
  refine stands_perform (c := c >>= fun _ => pure v) ?_ hb.symm
  rw [ha, Computation.bind_apply, Computation.bind_apply, Computation.bind_apply]
  rcases c h with ⟨_ | x, g⟩ <;> rfl

/-! ### Keys -/

/-- A key that is a name is no index. -/
theorem elementIndex?_of_name? {key : Key} (hk : key.name? h = some name) :
    key.elementIndex? = none := by
  cases key with
  | named n => rfl
  | computed k =>
    cases k with
    | smi i => simp [Key.name?, isInternalized, get?, Value.objectId?] at hk
    | _ => rfl

/-- A key that is a name selects the property of that name. -/
theorem setByKey_named {key : Key} (hk : key.name? h = some name) (hi : name.arrayIndex? = none)
    {receiver : Value} (hr : h.isJsObject receiver) (v : Value) (strict : Bool) :
    setByKey receiver v strict key h = setProperty receiver name v strict h := by
  have proper : receiver.isNullish = false := by
    cases receiver <;> first | rfl | simp [isJsObject, asObject?, Value.objectId?] at hr
  cases key with
  | named n =>
    obtain rfl := Option.some.inj hk
    simp [setByKey, setNamed, proper, hi]
  | computed k =>
    obtain ⟨text, known, rfl, hc⟩ : ∃ text known, name = ⟨text⟩ ∧
        h.get? k = some (.string text known) ∧ h.names.contains ⟨text⟩ := by
      simp only [Key.name?] at hk
      split at hk
      · split at hk
        · rename_i text ht
          split at hk
          · unfold string? at ht
            split at ht
            · rename_i s known hg
              cases ht
              exact ⟨text, known, (Option.some.inj hk).symm, hg, ‹_›⟩
            · cases ht
          · cases hk
        · cases hk
      · cases hk
    have element : h.arrayIndex? k = none := by
      cases k with
      | smi i => simp [get?, Value.objectId?] at hc
      | _ => simpa [Heap.arrayIndex?, hc.1, Name.arrayIndex?] using hi
    have interned : h.intern ⟨text⟩ = h := by rw [intern, if_pos hc.2]
    have toText : h.toText k = text := by simp [Heap.toText, hc.1]
    simp [setByKey, setKeyed, proper, element, nameOfKey, toText, interned]

/-! ### Where stubs for named stores come from -/

/-- What a stub for a named store to an object was made from. -/
inductive StoreSource (h : Heap) (id : ObjectId) (name : Name) :
    Handler → Option ObjectId → Prop where
  | field {i : Nat} {a : Attributes} (own : h.ownReal id name = .property id (.field i) a)
      (writable : a.readOnly = false) : StoreSource h id name (.storeField i none) (some id)
  | added {i : Nat} {target : ShapeId} : StoreSource h id name (.storeField i (some target)) none
  | normal {a : Attributes} (own : h.ownReal id name = .property id .normal a) :
      StoreSource h id name .storeNormal (some id)
  | global {a : Attributes} (own : h.ownReal id name = .property id .normal a)
      (hg : h.isGlobalObject (.object id)) : StoreSource h id name (.storeGlobal id) (some id)
  | ownSetter {getter setter : Value} {a : Attributes}
      (own : h.ownReal id name = .property id (.accessor getter setter) a)
      (function : h.isFunction setter) (fast : h.isFast id) :
      StoreSource h id name (.storeViaSetter setter) (some id)
  | inheritedSetter {j : ObjectId} {getter setter : Value} {a : Attributes}
      (absent : h.own id name = .notFound)
      (found : h.lookup (.object id) name = .property j (.accessor getter setter) a)
      (function : h.isFunction setter) (fast : h.isFast j) :
      StoreSource h id name (.storeViaSetter setter) (some j)

/-- What a stub for stores was made from. -/
theorem StoreOrigin.source {spec : StubSpec} {found : Lookup} {holder : Option ObjectId}
    (so : h.StoreOrigin spec id o name found holder) (ob : h.Obeys rules) :
    StoreSource h id name spec.handler holder := by
  have finds := lookupForStore_spec ob so.object (resolveProxy_eq_self so.object so.proxy)
    so.cacheable
  have handler := so.handler
  generalize spec.handler = f at handler
  -- What the lookup found decides the handler: a constant and a read-only property have none.
  cases finds with
  | own own writable =>
    rename_i kind a
    cases kind with
    | field i =>
      cases handler
      exact .field own writable
    | constant c => cases handler
    | normal =>
      simp only [storeHandler?] at handler
      split at handler
      · cases handler
        exact .global own ‹_›
      · rw [if_pos trivial] at handler
        cases handler
        exact .normal own
    | accessor getter setter =>
      simp only [storeHandler?] at handler
      split at handler
      · rename_i hs
        cases handler
        simp only [Bool.and_eq_true] at hs
        exact .ownSetter own hs.1.1 hs.2
      · cases handler
  | inherited absent found =>
    simp only [storeHandler?] at handler
    split at handler
    · rename_i hs
      cases handler
      simp only [Bool.and_eq_true] at hs
      exact .inheritedSetter absent found hs.1.1 hs.2
    · cases handler
  | transition absent step nowhere =>
    simp only [storeHandler?, fieldStoreHandler?] at handler
    split at handler
    · split at handler
      · cases handler
        exact .added
      · cases handler
    · cases handler

/-! ### What a stub does -/

section Stands

variable {spec : StubSpec} {found : Lookup} {holder : Option ObjectId} {key : Key} {v : Value} {strict : Bool}

/-- A field that a stub was made for is still there. -/
theorem Guarded.ownReal_fast (gd : Guarded rules h₀ h name holder id id' o o')
    (hp : ∀ g, o.objectClass ≠ .globalProxy g) (fast : (h₀.shapeOf o).isDictionary = false)
    {kind : PropertyKind} {a : Attributes} (own : h₀.ownReal id name = .property id kind a) :
    h.ownReal id' name = .property id' kind a := by
  obtain ⟨hr₀, hr⟩ := gd.toTwin.resolveProxy_eq_self gd.obeys₀ gd.obeys gd.grows hp
  rw [ownReal_eq hr₀ gd.before, Lookup.ofOwned_eq_property] at own
  rw [ownReal_eq hr gd.after, gd.toTwin.owned?_fast gd.obeys₀ gd.grows fast, own.2]
  rfl

/-- Arrays have no data property `length`. -/
theorem Obeys.not_length (ob : h.Obeys rules) (plain : rules.plainArrays)
    (ho : h.object? id = some o) (hr : h.resolveProxy id = id) {kind : PropertyKind}
    {a : Attributes} (own : h.ownReal id name = .property id kind a)
    (hk : kind.isAccessor = false) : ¬ (name = .length ∧ h.isArray (.object id)) := by
  rintro ⟨rfl, harr⟩
  obtain ⟨x, hx, hc⟩ := isArray_eq_true.1 harr
  obtain rfl := Option.some.inj (ho.symm.trans hx)
  have fits := ob.object ho
  have legal : (h.shapeOf o).Legal rules h := ob.shape fits.shape_lt
  have type : (h.shapeOf o).instanceType = .array := by rw [fits.type, hc]; rfl
  rw [ownReal_eq hr ho, Lookup.ofOwned_eq_property] at own
  by_cases hn : kind = .normal
  · subst hn
    obtain ⟨-, e, he, -⟩ := legal.entry_of_owned? own.2
    rw [fits.array plain hc] at he
    cases he
  · obtain ⟨hm, -⟩ := Shape.mem_of_descriptor? (Shape.descriptor?_of_owned? own.2 hn)
    have := legal.array plain type _ hm rfl
    simp [hk] at this

/-- A stub that writes a field stands for the general rules. -/
theorem stands_field {i : Nat} {a : Attributes} (hh : spec.handler = .storeField i none)
    (ho : h.object? id = some o) (hr : h.resolveProxy id = id)
    (hl : ¬ (name = .length ∧ h.isArray (.object id)))
    (own : h.ownReal id name = .property id (.field i) a) (ha : a.readOnly = false) :
    Stands h (storeByHandler spec (.object id) id key v)
      (setProperty (.object id) name v strict) := by
  refine stands_hit ?_ (setProperty_write (storeRoute_write ho hr hl own rfl ha))
  simp only [storeByHandler, Computation.get_bind, hh]
  rfl

/-- A dictionary entry that is not there is not stored. -/
theorem storeInDictionary_misses (ho : h.object? id = some o) (gone : o.dictionary.get? name = none) :
    storeInDictionary id (some name) v h = (.ok .miss, h) := by
  simp [storeInDictionary, dictionarySlot?, ho, gone]

/-- A dictionary entry is looked up again, and read-only entries are left alone. -/
theorem stands_entry (ho : h.object? id = some o) (hr : h.resolveProxy id = id)
    (hd : (h.shapeOf o).isDictionary)
    (hl : ¬ (name = .length ∧ h.isArray (.object id))) :
    Stands h (storeInDictionary id (some name) v)
      (setProperty (.object id) name v strict) := by
  have entry : h.dictionarySlot? id name = o.dictionary.get? name := by
    simp [dictionarySlot?, ho]
  cases he : o.dictionary.get? name with
  | none => exact .inl (storeInDictionary_misses ho he)
  | some e =>
    by_cases ha : e.attributes.readOnly
    · exact .inl (by simp [storeInDictionary, entry, he, ha])
    · have own : h.ownReal id name = .property id .normal e.attributes := by
        rw [ownReal_eq hr ho, Shape.owned?_present hd he]
        rfl
      refine stands_hit ?_ (setProperty_write (storeRoute_write ho hr hl own rfl (by simpa using ha)))
      simp only [storeInDictionary, Computation.get_bind, entry, he, ha, Bool.false_eq_true, if_false]
      rfl

/-- A stub that calls a setter stands for the general rules. -/
theorem stands_setter {j : ObjectId} {getter setter : Value} {a : Attributes}
    (hh : spec.handler = .storeViaSetter setter) (ho : h.object? id = some o)
    (hr : h.resolveProxy id = id) (hl : ¬ (name = .length ∧ h.isArray (.object id)))
    (found : h.lookupReal id name = .property j (.accessor getter setter) a)
    (callable : h.isCallable setter) :
    Stands h (storeByHandler spec (.object id) id key v)
      (setProperty (.object id) name v strict) := by
  refine stands_effect (c := call setter (.object id) [v]) (v := v) ?_
    (setProperty_setter (storeRoute_setter ho hr hl found callable))
  simp only [storeByHandler, Computation.get_bind, hh]

/-- The known transition that the general rules follow, to the same shape. -/
theorem storeNewField_eq_addProperty {i : Nat} {target : ShapeId} (ho : h.object? id = some o)
    (fast : (h.shapeOf o).isDictionary = false)
    (step : (h.shapeOf o).transitions.get? name = some target)
    (last : (h.shape target).lastAdded? = some ⟨name, .field i, {}⟩)
    (index : i = (h.shapeOf o).fieldCount) (fields : o.fields.length = (h.shapeOf o).fieldCount) :
    h.storeNewField id i target v = h.addProperty id name v {} := by
  have transition : h.transitionTarget o.shape ⟨name, .field i, {}⟩ = (target, h) := by
    unfold shapeOf at step
    simp [transitionTarget, step, last]
  simp only [addProperty, ho, fast, ← index, transition, storeNewField]
  refine modifyObject_congr fun x hx => ?_
  obtain rfl := Option.some.inj (ho.symm.trans hx)
  have filled : (o.fields ++ List.replicate (i + 1 - o.fields.length) Value.undefined).set i v =
      o.fields ++ [v] := by
    obtain rfl : i = o.fields.length := index.trans fields.symm
    simp
  rw [filled]

/-- A stub that adds a field stands for the general rules. -/
theorem stands_added {i : Nat} {target : ShapeId} (hh : spec.handler = .storeField i (some target))
    (ho : h.object? id = some o) (hr : h.resolveProxy id = id)
    (hl : ¬ (name = .length ∧ h.isArray (.object id)))
    (own : h.ownReal id name = .notFound) (nowhere : h.lookupInPrototypes id name = .notFound)
    (same : h.storeNewField id i target v = h.addProperty id name v {}) :
    Stands h (storeByHandler spec (.object id) id key v)
      (setProperty (.object id) name v strict) := by
  refine stands_hit ?_ (setProperty_add (storeRoute_add ho hr hl own nowhere))
  simp only [storeByHandler, Computation.get_bind, hh, same]
  rfl

section Origin

variable (so : h₀.StoreOrigin spec id o name found holder)
  (gd : Guarded rules h₀ h name holder id id' o o')
  (sees : h.SeesAccessors (h₀.chainGuards (.object id) holder).absentChecks (.object id') name)

include so gd

/-- A stub for a field was made for an object in fast mode. -/
theorem StoreOrigin.fast_of_field {i : Nat} {a : Attributes}
    (own₀ : h₀.ownReal id name = .property id (.field i) a) :
    (h₀.shapeOf o).isDictionary = false := by
  obtain ⟨hr₀, -⟩ := gd.toTwin.resolveProxy_eq_self gd.obeys₀ gd.obeys gd.grows so.proxy
  rw [ownReal_eq hr₀ gd.before, Lookup.ofOwned_eq_property] at own₀
  exact (gd.obeys₀.shape (gd.obeys₀.object gd.before).shape_lt).fast_of_owned? own₀.2 (by simp) rfl

/-- A field that the receiver had when the stub was made is still there. -/
theorem StoreOrigin.own_field {i : Nat} {a : Attributes}
    (own₀ : h₀.ownReal id name = .property id (.field i) a) :
    h.ownReal id' name = .property id' (.field i) a :=
  gd.ownReal_fast so.proxy (so.fast_of_field gd own₀) own₀

/-- A stub for a dictionary entry was made for an object in dictionary mode. -/
theorem StoreOrigin.slow_of_entry {a : Attributes}
    (own₀ : h₀.ownReal id name = .property id .normal a) : (h.shapeOf o').isDictionary := by
  obtain ⟨hr₀, -⟩ := gd.toTwin.resolveProxy_eq_self gd.obeys₀ gd.obeys gd.grows so.proxy
  rw [ownReal_eq hr₀ gd.before, Lookup.ofOwned_eq_property] at own₀
  rw [gd.toTwin.isDictionary_eq gd.obeys₀ gd.grows]
  exact ((gd.obeys₀.shape (gd.obeys₀.object gd.before).shape_lt).entry_of_owned? own₀.2).1

omit so gd in
theorem storeByHandler_normal (hk : key.name? h = some name)
    (hh : spec.handler = .storeNormal) : storeByHandler spec (.object id') id' key v h =
      storeInDictionary id' (some name) v h := by
  simp only [storeByHandler, Computation.get_bind, hh, hk]

omit so in
/-- There is only one global object. -/
theorem Guarded.storeByHandler_global (hk : key.name? h = some name)
    (hh : spec.handler = .storeGlobal id) (hg : h₀.isGlobalObject (.object id)) :
    storeByHandler spec (.object id') id' key v h = storeInDictionary id' (some name) v h := by
  obtain rfl := gd.toTwin.eq_of_global gd.obeys₀ gd.obeys gd.grows hg
  simp only [storeByHandler, Computation.get_bind, hh, hk]

/-- Only fast objects get new fields. -/
theorem StoreOrigin.fast_of_added {i : Nat} {target : ShapeId}
    (hh : spec.handler = .storeField i (some target)) : (h.shapeOf o').isDictionary = false := by
  obtain ⟨-, -, -, step₀, last₀⟩ := so.transition gd.obeys₀ hh
  obtain ⟨-, last, hlt, -, layout⟩ :=
    gd.toTwin.transition gd.obeys₀ gd.obeys gd.grows step₀ last₀
  have mem : ⟨name, .field i, {}⟩ ∈ (h.shape target).descriptors := List.mem_of_getLast? last
  by_contra hd
  have hd' : (h.shape target).isDictionary := by
    have : (h.shapeOf o').isDictionary = true := by simpa using hd
    simpa [Shape.extended] using (congrArg Shape.isDictionary layout).trans this
  exact absurd ((gd.obeys.shape hlt).accessors hd' _ mem) (by simp [PropertyKind.isAccessor])

include sees

/-- A stub that adds a property. Its receiver fits its shape, as there is a transition. -/
theorem StoreOrigin.stands_added (owners : h.HasOwners) {i : Nat} {target : ShapeId}
    (hh : spec.handler = .storeField i (some target))
    (hl : ¬ (name = .length ∧ h.isArray (.object id'))) :
    Stands h (storeByHandler spec (.object id') id' key v)
      (setProperty (.object id') name v strict) := by
  obtain ⟨hr₀, hr⟩ := gd.toTwin.resolveProxy_eq_self gd.obeys₀ gd.obeys gd.grows so.proxy
  obtain ⟨rfl, own₀, nowhere₀, step₀, last₀⟩ := so.transition gd.obeys₀ hh
  obtain ⟨step, last, hlt, index, layout⟩ :=
    gd.toTwin.transition gd.obeys₀ gd.obeys gd.grows step₀ last₀
  have own := gd.obeys.ownReal_notFound (gd.own_absent so.proxy (by simp) own₀)
  have nowhere := (gd.lookupInPrototypes_eq (by simp) sees (by rw [nowhere₀]; rfl)
    (by simp)).trans nowhere₀
  exact Heap.stands_added hh gd.after hr hl own nowhere
    (storeNewField_eq_addProperty gd.after (so.fast_of_added gd hh) step last index
      (owners.fields gd.after step))

/-- A setter of a fast prototype is still what a lookup finds. -/
theorem StoreOrigin.inherited_eq {j : ObjectId} {getter setter : Value} {a : Attributes}
    (hj : holder = some j) (absent : h₀.own id name = .notFound)
    (found : h₀.lookup (.object id) name = .property j (.accessor getter setter) a)
    (fast : h₀.isFast j) : h.own id' name = .notFound ∧
      h.lookupInPrototypes id' name = .property j (.accessor getter setter) a := by
  subst hj
  have above : firstFound (h₀.own · name) (h₀.chain (h₀.prototypeOf (.object id))) =
      .property j (.accessor getter setter) a := by
    rw [gd.obeys₀.lookup_object gd.before, firstFound, absent] at found
    exact found
  have hne : some id ≠ some j := by
    have := gd.obeys₀.holder?_above id name
    rw [above] at this
    exact fun e => this e.symm
  have real₀ : h₀.lookupInPrototypes id name = .property j (.accessor getter setter) a :=
    gd.obeys₀.firstFound_real above
  exact ⟨gd.own_absent so.proxy hne absent, (gd.lookupInPrototypes_eq hne sees
    (by rw [real₀]; rfl) fun _ e => Option.some.inj e ▸ fast).trans real₀⟩

/-- A stub that calls a setter, for a property that the general rules look up. -/
theorem StoreOrigin.stands_inheritedSetter {j : ObjectId} {getter setter : Value} {a : Attributes}
    (hh : spec.handler = .storeViaSetter setter) (hj : holder = some j)
    (hl : ¬ (name = .length ∧ h.isArray (.object id'))) (absent : h₀.own id name = .notFound)
    (found : h₀.lookup (.object id) name = .property j (.accessor getter setter) a)
    (function : h₀.isFunction setter) (fast : h₀.isFast j) :
    Stands h (storeByHandler spec (.object id') id' key v)
      (setProperty (.object id') name v strict) := by
  obtain ⟨hr₀, hr⟩ := gd.toTwin.resolveProxy_eq_self gd.obeys₀ gd.obeys gd.grows so.proxy
  obtain ⟨own, real⟩ := so.inherited_eq gd sees hj absent found fast
  have look : h.lookupReal id' name = .property j (.accessor getter setter) a := by
    rw [lookupReal, gd.obeys.ownReal_notFound own, real]
  exact Heap.stands_setter hh gd.after hr hl look (gd.grows.isCallable function)

/-- **A stub for a named store does what the general rules do**, unless it stores the length of an
array. -/
theorem StoreOrigin.stands (owners : h.HasOwners) (hk : key.name? h = some name)
    (hl : ¬ (name = .length ∧ h.isArray (.object id'))) :
    Stands h (storeByHandler spec (.object id') id' key v)
      (setProperty (.object id') name v strict) := by
  obtain ⟨hr₀, hr⟩ := gd.toTwin.resolveProxy_eq_self gd.obeys₀ gd.obeys gd.grows so.proxy
  have source := so.source gd.obeys₀
  generalize hh : spec.handler = f at source
  -- One case for each way a store can be compiled.
  cases source with
  | field own₀ writable =>
    exact stands_field hh gd.after hr hl (so.own_field gd own₀) writable
  | added => exact so.stands_added gd sees owners hh hl
  | normal own₀ =>
    rw [Stands, storeByHandler_normal hk hh]
    exact stands_entry gd.after hr (so.slow_of_entry gd own₀) hl
  | global own₀ hg =>
    rw [Stands, gd.storeByHandler_global hk hh hg]
    exact stands_entry gd.after hr (so.slow_of_entry gd own₀) hl
  | ownSetter own₀ function fast₀ =>
    obtain ⟨x, hx, hd⟩ := isFast_eq_true.1 fast₀
    obtain rfl := Option.some.inj (gd.before.symm.trans hx)
    have own := gd.ownReal_fast so.proxy hd own₀
    exact stands_setter hh gd.after hr hl (by rw [lookupReal, own]) (gd.grows.isCallable function)
  | inheritedSetter absent found function fast =>
    exact so.stands_inheritedSetter gd sees hh rfl hl absent found function fast

omit sees

/-- Named stores to the length of a fast array have a stub of their own. -/
theorem StoreOrigin.slow_of_length (kind : spec.kind = .store) (hn : name = .length)
    (harr : h.isArray (.object id')) : (h.shapeOf o').isDictionary := by
  rw [isArray_object gd.after, gd.toTwin.instanceType_eq gd.obeys₀ gd.obeys gd.grows,
    ← isArray_object gd.before] at harr
  rw [gd.toTwin.isDictionary_eq gd.obeys₀ gd.grows]
  simpa [isFast, gd.before] using so.length kind harr hn

/-- Keyed stores call no setters either, so that the receiver of a stub that does is no fast array. -/
theorem StoreOrigin.notFast_of_setter (kind : spec.kind = .store ∨ spec.kind = .keyedStore)
    {setter : Value} (hh : spec.handler = .storeViaSetter setter) (hn : name = .length)
    (harr : h.isArray (.object id')) : h.isFast id' = false := by
  rcases kind with kind | kind
  · simpa [isFast, gd.after] using so.slow_of_length gd kind hn harr
  · have field := so.keyed kind
    rw [hh] at field
    unfold fieldStoreHandler? at field
    split at field
    · cases field
    · split at field
      · split at field <;> cases field
      · cases field
    · cases field

/-- Where arrays have no data property `length`, a stub that calls no setter misses their length. -/
theorem StoreOrigin.misses_length (plain : rules.plainArrays) (hk : key.name? h = some name)
    (hn : name = .length) (harr : h.isArray (.object id'))
    (calls : ∀ setter, spec.handler ≠ .storeViaSetter setter) :
    storeByHandler spec (.object id') id' key v h = (.ok .miss, h) := by
  obtain ⟨hr₀, hr⟩ := gd.toTwin.resolveProxy_eq_self gd.obeys₀ gd.obeys gd.grows so.proxy
  obtain ⟨x, hx, hc⟩ := isArray_eq_true.1 harr
  obtain rfl := Option.some.inj (gd.after.symm.trans hx)
  have gone : o'.dictionary.get? name = none := hn ▸ (gd.obeys.object hx).array plain hc
  have source := so.source gd.obeys₀
  generalize hh : spec.handler = f at source
  cases source with
  | field own₀ writable =>
    exact absurd ⟨hn, harr⟩ (gd.obeys.not_length plain gd.after hr (so.own_field gd own₀) rfl)
  | @added i target =>
    -- The target shape has a field, so that it is not the shape of an array if the field is called
    -- `length`.
    obtain ⟨-, -, -, step₀, last₀⟩ := so.transition gd.obeys₀ hh
    obtain ⟨-, last, hlt, -, layout⟩ :=
      gd.toTwin.transition gd.obeys₀ gd.obeys gd.grows step₀ last₀
    have mem : ⟨name, .field i, {}⟩ ∈ (h.shape target).descriptors := List.mem_of_getLast? last
    have type : (h.shape target).instanceType = .array := by
      have : (h.shapeOf o').instanceType = .array := by rw [(gd.obeys.object hx).type, hc]; rfl
      simpa [Shape.extended] using (congrArg Shape.instanceType layout).trans this
    exact absurd ((gd.obeys.shape hlt).array plain type _ mem hn) (by simp [PropertyKind.isAccessor])
  | normal own₀ =>
    rw [storeByHandler_normal hk hh]
    exact storeInDictionary_misses hx gone
  | global own₀ hg =>
    rw [gd.storeByHandler_global hk hh hg]
    exact storeInDictionary_misses hx gone
  | ownSetter => exact absurd hh (calls _)
  | inheritedSetter => exact absurd hh (calls _)

end Origin

end Stands

section Handlers

variable {id : ObjectId} {o : JsObject} {spec : StubSpec} {key : Key} {name : Name}

/-- A stub with guards runs its handler or misses. -/
theorem guardedStore_cases (ho : h.object? id = some o) (hk : key.name? h = some name) (v : Value) :
    guardedStore spec (.object id) key v h = (.ok .miss, h) ∨
      h.guardsHold spec (.object id) (some name) ∧
        guardedStore spec (.object id) key v h = storeByHandler spec (.object id) id key v h := by
  by_cases hold : h.guardsHold spec (.object id) (some name)
  · exact .inr ⟨hold, by simp [guardedStore, hk, hold, holderId?_receiver ho]⟩
  · exact .inl (by simp [guardedStore, hk, hold])

/-- Handlers that store elements miss every key that is not an index. -/
theorem storeByHandler_misses_name (elements : spec.handler.storesElements)
    (unindexed : key.elementIndex? = none) (v : Value) :
    h.Misses (storeByHandler spec (.object id) id key v) := by
  cases hh : spec.handler with
  | storeElement kind grow =>
    refine .inr ?_
    simp only [storeByHandler, Computation.get_bind, hh, storeElementFast, unindexed]
    rfl
  | storeElementPolymorphic targets =>
    cases ht : h.targetFor? spec.receiverShapes targets (.object id) with
    | none => exact .inl (by simp [storeByHandler, hh, ht])
    | some target =>
      refine .inr ?_
      simp only [storeByHandler, Computation.get_bind, hh, ht, storeElementFast, unindexed]
      cases target <;> rfl
  | storeNonStrictArguments =>
    refine .inl ?_
    simp only [storeByHandler, Computation.get_bind, hh, storeArgument, unindexed, run]
    split <;> rfl
  | _ => simp [Handler.storesElements, hh] at elements

/-- A stub for the length of an array sets it, and misses other receivers and values. -/
theorem storeArrayLength_stands (hh : spec.handler = .storeArrayLength)
    (ho : h.object? id = some o) (v : Value) (strict : Bool) :
    h.Stands (storeByHandler spec (.object id) id key v)
      (setProperty (.object id) .length v strict) := by
  have miss (e : storeByHandler spec (.object id) id key v h = (.ok .miss, h)) :
      h.Stands (storeByHandler spec (.object id) id key v)
        (setProperty (.object id) .length v strict) := .inl e
  cases v with
  | smi i =>
    by_cases harr : h.isArray (.object id) ∧ 0 ≤ i
    · obtain ⟨x, hx, hc⟩ := isArray_eq_true.1 harr.1
      have hr := resolveProxy_eq_self hx (by simp [hc])
      refine stands_effect (c := setArrayLength id (.smi i)) (v := .smi i) ?_
        (setProperty_length (storeRoute_length ho hr rfl harr.1))
      simp [storeByHandler, hh, harr]
    · refine miss ?_
      simp only [storeByHandler, Computation.get_bind, hh]
      rw [if_neg (by simpa using harr)]
      rfl
  | _ => exact miss (by simp [storeByHandler, hh])

end Handlers

end Heap

/-! ### Stubs -/

/-- Whether the stubs of a handler store by general rules, without any guards. -/
def Handler.isUnguarded : Handler → Bool
  | .storeGlobalProxy | .generic => true
  | _ => false

namespace StubSpec

variable {rules : Rules} {h : Heap} {spec : StubSpec} {id : ObjectId} {o : JsObject} {key : Key}
  {name : Name} {v : Value} {strict : Bool}

/-- The store that a stub was made from, if its guards let a named store to an object pass. -/
theorem Sound.storeOrigin (s : spec.Sound rules h) (ob : h.Obeys rules) (ho : h.object? id = some o)
    (hold : h.guardsHold spec (.object id) (some name)) (made : ∀ h₀, spec.Origin h₀ →
      ∃ id o name found holder, h₀.StoreOrigin spec id o name found holder) :
    ∃ h₀ found holder i x, h₀.StoreOrigin spec i x name found holder ∧
      Heap.Guarded rules h₀ h name holder i id x o := by
  obtain ⟨h₀, n, found, holder, i, i', x, x', so, e, e', gd⟩ := s.store ob hold made
  cases e
  cases e'
  obtain rfl := Option.some.inj (gd.after.symm.trans ho)
  exact ⟨h₀, found, holder, i, x, so, gd⟩

/-- What a stub does for a named store to an object, if it misses the lengths of arrays unless it has
been made to set them. -/
theorem Sound.runStore_setProperty (s : spec.Sound rules h) (ob : h.Obeys rules)
    (owners : h.HasOwners) (ho : h.object? id = some o) (hk : key.name? h = some name)
    (hi : name.arrayIndex? = none)
    (sees : h.Passes spec (.object id) name → h.SeesAccessors spec.absentChecks (.object id) name)
    (length : name = .length → h.isArray (.object id) → ∀ {h₀ found holder i x},
      h₀.StoreOrigin spec i x name found holder → Heap.Guarded rules h₀ h name holder i id x o →
      h.Passes spec (.object id) name →
      Heap.storeByHandler spec (.object id) id key v h = (.ok .miss, h))
    (mode : spec.handler.isUnguarded → spec.mode.strict = strict) :
    h.Stands (Heap.runStore spec (.object id) key v)
      (Heap.setProperty (.object id) name v strict) := by
  -- Handlers behind guards either miss, which always stands, or run with the guards holding.
  have guarded (run : h.guardsHold spec (.object id) (some name) →
      h.Stands (Heap.storeByHandler spec (.object id) id key v)
        (Heap.setProperty (.object id) name v strict)) :
      h.Stands (Heap.guardedStore spec (.object id) key v)
        (Heap.setProperty (.object id) name v strict) := by
    rcases Heap.guardedStore_cases ho hk v with e | ⟨hold, e⟩
    · exact .inl e
    · simpa only [Heap.Stands, e] using run hold
  -- A handler compiled from a lookup stands by the heap it was made in. An array's length is the
  -- one name where the slow store leaves the lookup.
  have named (hold : h.guardsHold spec (.object id) (some name))
      (made : ∀ h₀, spec.Origin h₀ →
        ∃ id o name found holder, h₀.StoreOrigin spec id o name found holder) :
      h.Stands (Heap.storeByHandler spec (.object id) id key v)
        (Heap.setProperty (.object id) name v strict) := by
    obtain ⟨h₀, found, holder, i, x, so, gd⟩ := s.storeOrigin ob ho hold made
    obtain ⟨passes, asked⟩ := Heap.passes_of_guardsHold so.guards hold
    by_cases hl : name = .length ∧ h.isArray (.object id)
    · exact .inl (length hl.1 hl.2 so gd passes)
    · exact so.stands gd (asked ▸ sees passes) owners hk hl
  obtain ⟨h₁, -, -, -, -, compiled⟩ := s
  unfold Heap.runStore
  -- The two unguarded handlers run the slow store itself, in the mode of the stub.
  cases hh : spec.handler with
  | fresh | premonomorphic | megamorphic => exact .inl rfl
  | generic =>
    refine Heap.stands_effect (c := Heap.setProperty (.object id) name v strict) ?_
      Heap.setProperty_value
    have js : h.isJsObject (.object id) := by
      simp [Heap.isJsObject, Heap.asObject?, Value.objectId?, ho]
    simp only [Computation.bind_apply, mode (by rw [hh]; rfl), Heap.setByKey_named hk hi js]
  | storeField | storeNormal | storeGlobal | storeViaSetter =>
    exact guarded fun hold => named hold fun _ c => by simpa [StubSpec.Origin, hh] using c
  | storeArrayLength =>
    refine guarded fun hold => ?_
    obtain rfl : name = .length := Option.some.inj
      (Heap.guardsHold_name hold (by simpa [StubSpec.Origin, hh] using compiled))
    exact Heap.storeArrayLength_stands hh ho v strict
  | storeGlobalProxy =>
    refine guarded fun _ => ?_
    refine Heap.stands_effect (c := Heap.setProperty (.object id) name v strict) ?_
      Heap.setProperty_value
    simp only [Heap.storeByHandler, Computation.get_bind, hh, hk, mode (by rw [hh]; rfl)]
  | storeElement | storeElementPolymorphic | storeNonStrictArguments =>
    exact guarded fun _ => (Heap.storeByHandler_misses_name (by rw [hh]; rfl)
      (Heap.elementIndex?_of_name? hk) v).stands _
  | _ => exact guarded fun _ => .inl (by simp [Heap.storeByHandler, hh])

/-- A stub that calls a setter `length` of an array was made for an array in dictionary mode. -/
theorem Sound.runStore_lengthSetter (s : spec.Sound rules h) (ob : h.Obeys rules)
    (kind : spec.kind = .store ∨ spec.kind = .keyedStore) (object : (h.object? id).isSome)
    (hk : key.name? h = some name) {setter : Value} (hh : spec.handler = .storeViaSetter setter)
    (hn : name = .length) (harr : h.isArray (.object id)) (v : Value) :
    Heap.runStore spec (.object id) key v h = (.ok .miss, h) ∨
      h.isFast id = false ∧ Heap.runStore spec (.object id) key v h =
        (Heap.call setter (.object id) [v] >>= fun _ => pure (Outcome.hit v)) h := by
  obtain ⟨o, ho⟩ := Option.isSome_iff_exists.1 object
  simp only [Heap.runStore, hh, Computation.get_bind, hk, Heap.holderId?_receiver ho]
  by_cases hold : h.guardsHold spec (.object id) (some name)
  · refine .inr ⟨?_, ?_⟩
    · obtain ⟨h₀, found, holder, i, x, so, gd⟩ := s.storeOrigin ob ho hold
        fun _ c => by simpa [StubSpec.Origin, hh] using c
      exact so.notFast_of_setter gd kind hh hn harr
    · rw [if_pos hold]
      simp only [Heap.storeByHandler, Computation.get_bind, hh]
  · exact .inl (by rw [if_neg hold]; rfl)

end StubSpec

/-! ### Sessions -/

/-- The setter `length` that a stub would call in place of setting the length of an array. -/
def Heap.lengthSetter? (h : Heap) (spec : StubSpec) (id : ObjectId) (name : Name) : Option Value :=
  match spec.handler with
  | .storeViaSetter setter => if name = .length && h.isArray (.object id) then some setter else none
  | _ => none

/-- Whatever a stub stands for, read-only properties keep their values. -/
theorem Heap.Stands.keepsReadOnly {h : Heap} {a : Heap.Action Outcome} {b : Heap.Action Value}
    (stands : h.Stands a b) (keeps : h.KeepsReadOnly (b h).2) : h.KeepsReadOnly (a h).2 := by
  rcases stands with e | e | e
  · rw [e]
    exact .refl h
  · rw [e]
    exact .refl h
  · rw [e, Computation.bind_apply]
    rcases hb : b h with ⟨_ | v, g⟩
    · rwa [hb] at keeps
    · rwa [hb] at keeps

/-- **A hit of a named store does what the general rules do.** In every session of a program that
adds properties under fresh names and leaves the lengths of arrays alone, a stub for a store either
misses without a trace or does what `setProperty` does, with the same objects, shapes, calls and
exceptions; and it never changes a read-only property, unless it calls a setter of the host that does.
The one exception is a stub that calls a
setter `length` for an array, which is then in dictionary mode. -/
theorem store_hit {session : Session}
    (reachable : session.Reachable { freshNames := true, plainArrays := true }) {spec : StubSpec}
    (stub : session.HasStub spec) (kind : spec.kind = .store ∨ spec.kind = .keyedStore)
    {id : ObjectId} (object : (session.engine.heap.object? id).isSome) {key : Key} {name : Name}
    (named : key.name? session.engine.heap = some name) (index : name.arrayIndex? = none)
    (fast : ∀ j ∈ session.engine.heap.chain (session.engine.heap.prototypeOf (.object id)),
      session.engine.heap.isFast j) (v : Value) :
    let h := session.engine.heap
    let run := Heap.runStore spec (.object id) key v
    (h.host.KeepsReadOnly { freshNames := true, plainArrays := true } → h.KeepsReadOnly (run h).2) ∧
      match h.lengthSetter? spec id name with
      | none => h.Stands run (Heap.setProperty (.object id) name v spec.mode.strict)
      | some setter => run h = (.ok .miss, h) ∨ h.isFast id = false ∧
          run h = (do
            let _ ← Heap.call setter (.object id) [v]
            return Outcome.hit v) h := by
  intro h run
  have ob : h.Obeys _ := reachable.sound.engine.heap
  have sound : spec.Sound _ h := reachable.sound.stub stub
  have closed := Heap.callClosed_readOnly
    (show Rules.freshNames { freshNames := true, plainArrays := true } from rfl)
  -- Only a setter stored for an array's `length` differs from the slow store.
  cases hs : h.lengthSetter? spec id name with
  | none =>
    have ordinary : ∀ setter, spec.handler = .storeViaSetter setter →
        ¬ (name = .length ∧ h.isArray (.object id)) := by
      rintro setter hh ⟨hn, harr⟩
      simp [Heap.lengthSetter?, hh, hn, harr] at hs
    obtain ⟨o, ho⟩ := Option.isSome_iff_exists.1 object
    have stands := sound.runStore_setProperty (v := v) ob reachable.hasOwners ho named index
      (fun _ => (ob.unhidden_of_fastAbove fast _ name).toSeesAccessors)
      (fun hn harr _ _ _ _ _ so gd _ => so.misses_length gd rfl named hn harr
        fun setter hh => ordinary setter hh ⟨hn, harr⟩) fun _ => rfl
    exact ⟨fun host => stands.keepsReadOnly ((closed.setProperty ob ..).keeps host), stands⟩
  | some setter =>
    obtain ⟨hh, hn, harr⟩ : spec.handler = .storeViaSetter setter ∧ name = .length ∧
        h.isArray (.object id) := by
      unfold Heap.lengthSetter? at hs
      split at hs
      · split at hs
        · simp_all
        · cases hs
      · cases hs
    have outcome := sound.runStore_lengthSetter ob kind object named hh hn harr v
    -- Such a stub misses or calls the setter, and the call keeps every read-only value.
    have stands : h.Stands run (Heap.call setter (.object id) [v] >>= fun _ => pure v) :=
      outcome.elim .inl fun e => Heap.stands_effect e.2 rfl
    have calls := closed.call setter (.object id) [v] ob
    refine ⟨fun host => stands.keepsReadOnly ?_, outcome⟩
    have keeps := calls.keeps host
    exact Computation.bind_rel Heap.KeepsReadOnly.trans keeps fun _ _ => .refl _

/-- The store that the first two objects taught a site, for a fourth object. -/
theorem store_hit_added :
    let name : Name := ⟨"x"⟩
    let create (s : Session) : Session := s.perform (.onHeap .object)
    let store (s : Session) (i : Nat) : Session :=
      s.perform (.atSite 0 (.store (.object ⟨i⟩) name (.smi 1)))
    let created := create (create (create (create (Session.ofConfig {}))))
    let session := store (store (store (created.perform (.newSite .store {})) 10) 11) 12
    let h := session.engine.heap
    ∃ spec, session.HasStub spec ∧
      (Heap.runStore spec (.object ⟨13⟩) (.named name) (.smi 1) h).1.toOption =
        some (.hit (.smi 1)) ∧
      h.Stands (Heap.runStore spec (.object ⟨13⟩) (.named name) (.smi 1))
        (Heap.setProperty (.object ⟨13⟩) name (.smi 1) spec.mode.strict) := by
  intro name create store created session h
  have reachable : session.Reachable { freshNames := true, plainArrays := true } :=
    .step (.step (.step (.step (.step (.step (.step (.step (.initial {}) (.onHeap .object) trivial)
      (.onHeap .object) trivial) (.onHeap .object) trivial) (.onHeap .object) trivial)
      (.newSite .store {}) trivial) (.atSite 0 (.store (.object ⟨10⟩) name (.smi 1))) trivial)
      (.atSite 0 (.store (.object ⟨11⟩) name (.smi 1))) trivial)
      (.atSite 0 (.store (.object ⟨12⟩) name (.smi 1))) trivial
  have found : ∃ spec ∈ session.engine.stubs.specs, spec.kind = .store ∧
      h.lengthSetter? spec ⟨13⟩ name = none ∧
      (Heap.runStore spec (.object ⟨13⟩) (.named name) (.smi 1) h).1.toOption =
        some (.hit (.smi 1)) := by decide +kernel
  obtain ⟨spec, made, kind, setter, hit⟩ := found
  have object : (h.object? ⟨13⟩).isSome := by decide +kernel
  have named : (Key.named name).name? h = some name := rfl
  have index : name.arrayIndex? = none := by decide +kernel
  have fast : ∀ j ∈ h.chain (h.prototypeOf (.object ⟨13⟩)), h.isFast j := by decide +kernel
  have conforms :=
    (store_hit reachable (.made made) (.inl kind) object named index fast (.smi 1)).2
  rw [show session.engine.heap.lengthSetter? spec ⟨13⟩ name = none from setter] at conforms
  exact ⟨spec, .made made, hit, conforms⟩

/-- A prototype's setter `length`, called for an array in dictionary mode whose length the general
rules would have set. -/
theorem store_length_setter_differs :
    let array : Value := .object ⟨12⟩
    let store : Operation := .atSite 0 (.store array .length (.smi 3))
    let session := (Session.ofConfig {}).run [
      .onHeap (.hostFunction "f" 0 (.provided 0)),
      .onHeap (.addAccessor Heap.arrayPrototype .length .undefined (.object ⟨11⟩)),
      .onHeap (.array [.smi 1, .smi 2, .smi 3]),
      .onHeap (.normalize ⟨12⟩),
      .newSite .store {}, store, store]
    let h := session.engine.heap
    session.Reachable { freshNames := true, plainArrays := true } ∧
      ∃ spec ∈ session.engine.stubs.specs,
        (Heap.runStore spec array (.named .length) (.smi 1) h).1.toOption =
          some (.hit (.smi 1)) ∧
        (Heap.runStore spec array (.named .length) (.smi 1) h).2.arrayLength? array = some 3 ∧
        (Heap.setProperty array .length (.smi 1) spec.mode.strict h).2.arrayLength? array =
          some 1 := by
  intro array store session h
  let made := ((Session.ofConfig {}).perform (.onHeap (.hostFunction "f" 0 (.provided 0)))).engine.heap
  have fresh : ∀ o ∈ made.object? Heap.arrayPrototype, (made.shapeOf o).descriptor? .length = none := by
    decide +kernel
  refine ⟨.run (.initial {}) ⟨trivial, fun _ => fresh, trivial, trivial, trivial, trivial, trivial,
    trivial⟩, by decide +kernel⟩

end Speculation
