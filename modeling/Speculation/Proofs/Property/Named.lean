import Speculation.Proofs.Cache.ElementLoad
import Speculation.Proofs.Property.Store

/-!
# Reading what was written

`setNamed` and `getNamed` are the two sides of `receiver.name`, but they split names differently. A store
takes a name that spells an array index for an element, while a load takes every name for a property. So
what was written is read again under every name that spells **no** index (`named_read_after_write`). Under
one that does, the value is in the elements, where `getElement` finds it, and no named property of any
object has changed: a load by name sees what it saw before.
-/

namespace Speculation

namespace Heap

variable {rules : Rules} {h h' : Heap} {id : ObjectId} {o : JsObject} {name : Name} {v : Value}

/-! ### Properties -/

/-- The properties that no shape describes are not those of plain objects. -/
theorem intrinsic?_plain (ho : h.object? id = some o) (plain : o.objectClass = .plain)
    (name : Name) : h.intrinsic? (.object id) name = none := by
  simp [intrinsic?, stringLength?, arrayLength?, functionData?, string?, classOf?, asObject?, get?,
    Value.objectId?, object?_eq_some.mp ho, ho, plain, JsObject.function?]

/-- An own data property of a plain object is what a load by name reads. -/
theorem Obeys.getNamed_own (ob : h.Obeys rules) (ho : h.object? id = some o)
    (plain : o.objectClass = .plain) (bare : (h.shapeOf o).hasInterceptor = false) {a : Attributes}
    (own : h.ownProperty? id name = some ⟨.data v, a⟩) :
    getNamed (.object id) name h = (.ok v, h) := by
  have hr := resolveProxy_eq_self ho (by simp [plain])
  rcases h.ownReal_cases id name with e | ⟨kind, b, e⟩
  · rw [ownProperty?_eq_none.mpr e] at own
    cases own
  rw [hr] at e
  have content : h.contentOf id name kind = .data v := by
    rw [ownProperty?_of_ownReal e] at own
    exact congrArg OwnProperty.content (Option.some.inj own)
  -- Without an interceptor what the object owns is what it shows.
  have found : h.own id name = .property id kind b := by
    rw [own_eq hr ho, bare, ← e, ownReal_eq hr ho]
    rfl
  have lookup : h.lookup (.object id) name = .property id kind b :=
    (ob.lookup_of_own ho (by simp [found])).trans found
  have intrinsic := intrinsic?_plain ho plain name
  have read : getProperty (.object id) name h =
      readReal (.object id) (.property id kind b) name h := by
    simp only [getProperty, Computation.get_bind, intrinsic, lookup, readLookup]
  have named : getNamed (.object id) name h = getProperty (.object id) name h := rfl
  rw [named, read, readReal_property, content]

/-! ### Both sides -/

section PlainObject

variable (ob : h.Obeys rules) (ho : h.object? id = some o) (plain : o.objectClass = .plain)

include ob ho plain

/-- Under a name that spells no array index, a store and a load mean the same property. -/
theorem Obeys.getNamed_setNamed (bare : (h.shapeOf o).hasInterceptor = false)
    (fit : (h.propertiesOf o).Fit) (index : name.arrayIndex? = none)
    (data : ∀ kind, (h.lookupReal id name).kind? = some kind → kind.isAccessor = false)
    (writable : (h.lookupReal id name).isReadOnly = false) (v : Value) (strict : Bool) :
    ∃ h', setNamed (.object id) name v strict h = (.ok v, h') ∧
      getNamed (.object id) name h' = (.ok v, h') := by
  have hr := resolveProxy_eq_self ho (by simp [plain])
  have array : h.isArray (.object id) = false := by
    rw [isArray_object ho, plain]
    rfl
  have ordinary : ¬ (name = .length ∧ h.isArray (.object (h.resolveProxy id))) := by
    simp [hr, array]
  have store := ob.setProperty_data (by rwa [hr]) fit ordinary (by rwa [hr]) v strict
  rw [hr, if_neg (by simp [writable])] at store
  obtain ⟨h', wrote, updates⟩ := store
  have leads := setProperty_leads ob (.object id) name v strict
  rw [wrote] at leads
  refine ⟨h', ?_, ?_⟩
  · rw [← wrote]
    simp only [setNamed, Value.isNullish, index]
    rfl
  · -- The receiver is still plain and has no interceptor, so that its property is found first.
    obtain ⟨o', ho', same⟩ := updates.object ho
    have own := updates.property id name
    rw [hr, if_pos ⟨rfl, rfl⟩] at own
    exact leads.obeys.getNamed_own ho' (same.objectClass.trans plain)
      (same.shape.hasInterceptor.trans bare) own

/-- Under a name that spells one, a store means the element. -/
theorem Obeys.getElement_setNamed {i : Nat} (index : name.arrayIndex? = some i) {strict : Bool}
    (wrote : setNamed (.object id) name v strict h = (.ok v, h')) :
    (v ≠ .hole → getElement (.object id) i h' = (.ok v, h')) ∧
      ∀ j n, h'.ownProperty? j n = h.ownProperty? j n := by
  have hr := resolveProxy_eq_self ho (by simp [plain])
  have js := isJsObject_object ho
  have stored : h.storeElement id i v = .ok h' := by
    have element : setNamed (.object id) name v strict h = setElement (.object id) i v h := by
      simp only [setNamed, Value.isNullish, index]
      rfl
    simp only [element, setElement, Computation.get_bind, Value.objectId?, Option.filter_some, js,
      if_true] at wrote
    obtain ⟨_, g, stored, last⟩ := Computation.bind_eq_ok wrote
    obtain rfl : g = h' := congrArg Prod.snd last
    simpa only [hr] using runExcept_eq_ok stored
  refine ⟨fun full => ?_, ob.storeElement_ownProperty? stored⟩
  -- A load of the element ends at the receiver, unless the element is the hole.
  obtain ⟨o', ho', same, own⟩ := storeElement_stores ob ho stored
  have object : h'.asObject? (.object id) = some o' := ho'
  have unwrapped : h'.wrappedUnit? (.object id) i = none := by
    rw [wrappedUnit?, isStringWrapper_object ho', same, plain]
    rfl
  have element := chainElement_own object own (by cases v <;> first | rfl | exact absurd rfl full)
  simp only [getElement, Computation.get_bind, indexedUnit?_of_asObject? object, unwrapped, element]
  rfl

end PlainObject

end Heap

/-- **A load by name reads what a store by name wrote**, in every reachable heap, if the receiver is a
plain object without interceptor that fits its shape, and the property found first is neither an accessor
nor read-only. This holds of every name that spells no array index. A store under a name that spells one
is a store of the element: it is read as an element, and all named properties are as before. -/
theorem named_read_after_write {rules : Rules} {s : Session} (reachable : s.Reachable rules)
    {id : ObjectId} {o : JsObject} (ho : s.engine.heap.object? id = some o)
    (plain : o.objectClass = .plain) (bare : (s.engine.heap.shapeOf o).hasInterceptor = false)
    (fit : (s.engine.heap.propertiesOf o).Fit) {name : Name}
    (data : ∀ kind, (s.engine.heap.lookupReal id name).kind? = some kind → kind.isAccessor = false)
    (writable : (s.engine.heap.lookupReal id name).isReadOnly = false) (v : Value) (strict : Bool) :
    let h := s.engine.heap
    match name.arrayIndex? with
    | none => ∃ h', Heap.setNamed (.object id) name v strict h = (.ok v, h') ∧
        Heap.getNamed (.object id) name h' = (.ok v, h')
    | some i => ∀ h', Heap.setNamed (.object id) name v strict h = (.ok v, h') →
        (v ≠ .hole → Heap.getElement (.object id) i h' = (.ok v, h')) ∧
        ∀ j n, h'.ownProperty? j n = h.ownProperty? j n := by
  intro h
  have ob : h.Obeys rules := reachable.sound.engine.heap
  split
  · rename_i index
    exact ob.getNamed_setNamed ho plain bare fit index data writable v strict
  · rename_i i index
    exact fun h' wrote => ob.getElement_setNamed ho plain index wrote

/-- A property and an element of a new object. -/
theorem named_read_after_write_both :
    let h := ((Session.ofConfig {}).run [.onHeap .object]).engine.heap
    let receiver : Value := .object ⟨10⟩
    (∃ h', Heap.setNamed receiver ⟨"x"⟩ (.smi 3) true h = (.ok (.smi 3), h') ∧
      Heap.getNamed receiver ⟨"x"⟩ h' = (.ok (.smi 3), h')) ∧
    ∃ h', Heap.setNamed receiver ⟨"7"⟩ (.smi 3) true h = (.ok (.smi 3), h') ∧
      Heap.getElement receiver 7 h' = (.ok (.smi 3), h') := by
  let session := (Session.ofConfig {}).run [.onHeap .object]
  intro h receiver
  have reachable : session.Reachable { freshNames := true } := .run (.initial {}) ⟨trivial, trivial⟩
  have absent : h.lookupReal ⟨10⟩ ⟨"x"⟩ = .notFound := by decide +kernel
  have absent' : h.lookupReal ⟨10⟩ ⟨"7"⟩ = .notFound := by decide +kernel
  obtain ⟨o, ho⟩ : ∃ o, h.object? ⟨10⟩ = some o := ⟨_, rfl⟩
  have plain : o.objectClass = .plain := by
    cases ho
    rfl
  have bare : (h.shapeOf o).hasInterceptor = false := by
    cases ho
    decide +kernel
  have fit := reachable.sound.engine.heap.fit rfl ho
  have data (name : Name) (absent : h.lookupReal ⟨10⟩ name = .notFound) :
      ∀ kind, (h.lookupReal ⟨10⟩ name).kind? = some kind → kind.isAccessor = false := by
    intro kind e
    rw [absent] at e
    cases e
  have property := named_read_after_write reachable ho plain bare fit (data ⟨"x"⟩ absent)
    (by rw [absent]; rfl) (.smi 3) true
  have element := named_read_after_write reachable ho plain bare fit (data ⟨"7"⟩ absent')
    (by rw [absent']; rfl) (.smi 3) true
  rw [show Name.arrayIndex? ⟨"x"⟩ = none by decide +kernel] at property
  rw [show Name.arrayIndex? ⟨"7"⟩ = some 7 by decide +kernel] at element
  exact ⟨property, _, rfl, (element _ rfl).1 (by simp)⟩

/-- A store to the element 7 under its name, which the load does not see; and a store to an object that got
a constant twice, so that its field is behind those that it has. -/
theorem named_read_differs :
    let receiver : Value := .object ⟨10⟩
    let access (s : Session) (name : Name) : Option Value × Option Value :=
      let r := Heap.setNamed receiver name (.smi 3) false s.engine.heap
      (r.1.toOption, (Heap.getNamed receiver name r.2).1.toOption)
    let new := (Session.ofConfig {}).run [.onHeap .object]
    let twice := (Session.ofConfig {}).run [
      .onHeap .object,
      .onHeap (.addConstant ⟨10⟩ ⟨"k"⟩ (.smi 1) {}),
      .onHeap (.addConstant ⟨10⟩ ⟨"k"⟩ (.smi 2) {}),
      .access (.setProperty receiver ⟨"k"⟩ (.smi 3) false)]
    (new.Reachable {} ∧ new.engine.heap.lookupReal ⟨10⟩ ⟨"7"⟩ = .notFound ∧
      access new ⟨"7"⟩ = (some (.smi 3), some .undefined)) ∧
    twice.Reachable {} ∧ twice.engine.heap.lookupReal ⟨10⟩ ⟨"y"⟩ = .notFound ∧
      access twice ⟨"y"⟩ = (some (.smi 3), some .undefined) := by
  intro receiver access new twice
  have may (h : Heap) (name : Name) : Heap.MayAdd {} h ⟨10⟩ name :=
    ⟨fun r => (by cases r), fun r => (by cases r)⟩
  exact ⟨⟨.run (.initial {}) ⟨trivial, trivial⟩, by decide +kernel, by decide +kernel⟩,
    .run (.initial {}) ⟨trivial, may _ _, may _ _, trivial, trivial⟩, by decide +kernel,
    by decide +kernel⟩

end Speculation
