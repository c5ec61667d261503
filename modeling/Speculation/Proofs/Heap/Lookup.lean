import Mathlib.Tactic.IntervalCases
import Speculation.Proofs.Heap.Layout

/-!
# What objects own and inherit

Which property an object owns under a name is decided by its shape and its dictionary alone
(`Shape.owned?`): by the shape if it is fast, by the dictionary and the accessors of the shape
otherwise. A global proxy owns what the global object owns.

What it inherits depends on its prototype chain. `Obeys.chain_object` unfolds a chain by one object,
`Obeys.chain_induction` is the induction along it, and `Grows.chain` says that the chain of an
object is settled when it is created.
-/

namespace Speculation

/-- What an object with this shape and a dictionary owns under a name. -/
def Shape.owned? (t : Shape) (dictionary : Table Name DictionaryEntry) (name : Name) :
    Option (PropertyKind × Attributes) :=
  match if t.isDictionary then dictionary.get? name else none with
  | some e => some (.normal, e.attributes)
  | none => (t.descriptor? name).map fun d => (d.kind, d.attributes)

/-- The outcome of a lookup that ends at an object. -/
def Lookup.ofOwned (id : ObjectId) : Option (PropertyKind × Attributes) → Lookup
  | some p => .property id p.1 p.2
  | none => .notFound

@[simp] theorem Lookup.ofOwned_eq_notFound {id : ObjectId} {p : Option (PropertyKind × Attributes)} :
    Lookup.ofOwned id p = .notFound ↔ p = none := by
  cases p <;> simp [ofOwned]

@[simp] theorem Lookup.ofOwned_eq_property {id j : ObjectId} {k : PropertyKind} {a : Attributes}
    {p : Option (PropertyKind × Attributes)} :
    Lookup.ofOwned id p = .property j k a ↔ id = j ∧ p = some (k, a) := by
  rcases p with _ | ⟨k', a'⟩ <;> simp [ofOwned]

namespace Shape

variable {t : Shape} {dictionary : Table Name DictionaryEntry} {name : Name}

/-- In fast mode the descriptors say what is owned. -/
theorem owned?_fast (ht : t.isDictionary = false) :
    t.owned? dictionary name = (t.descriptor? name).map fun d => (d.kind, d.attributes) := by
  simp [owned?, ht]

/-- Without an entry the descriptors say what is owned. -/
theorem owned?_absent (hd : dictionary.get? name = none) :
    t.owned? dictionary name = (t.descriptor? name).map fun d => (d.kind, d.attributes) := by
  simp [owned?, hd]

/-- In dictionary mode an entry comes first. -/
theorem owned?_present {e : DictionaryEntry} (ht : t.isDictionary)
    (hd : dictionary.get? name = some e) :
    t.owned? dictionary name = some (.normal, e.attributes) := by
  simp [owned?, ht, hd]

theorem owned?_of_derive {t' : Shape} (e : t'.derive = t.derive)
    (dictionary : Table Name DictionaryEntry) (name : Name) :
    t'.owned? dictionary name = t.owned? dictionary name := by
  have hd : t'.descriptors = t.descriptors := by simpa using congrArg Shape.descriptors e
  have hi : t'.isDictionary = t.isDictionary := by simpa using congrArg Shape.isDictionary e
  simp only [owned?, descriptor?, hd, hi]

theorem descriptor?_of_owned?_none (hn : t.owned? dictionary name = none) :
    t.descriptor? name = none := by
  unfold owned? at hn
  split at hn
  · cases hn
  · simpa using hn

/-- Anything but a dictionary entry is in the shape. -/
theorem descriptor?_of_owned? {k : PropertyKind} {a : Attributes}
    (hp : t.owned? dictionary name = some (k, a)) (hk : k ≠ .normal) :
    t.descriptor? name = some ⟨name, k, a⟩ := by
  unfold owned? at hp
  split at hp
  · simp at hp
    exact absurd hp.1.symm hk
  · obtain ⟨d, hd, he⟩ := Option.map_eq_some_iff.1 hp
    obtain ⟨-, hn⟩ := mem_of_descriptor? hd
    obtain ⟨n, k', a'⟩ := d
    simp_all

/-- Shapes describe no property that is kept in a dictionary. -/
theorem Legal.entry_of_owned? {rules : Rules} {h : Heap} (l : t.Legal rules h) {a : Attributes}
    (hp : t.owned? dictionary name = some (.normal, a)) :
    t.isDictionary ∧ ∃ e, dictionary.get? name = some e ∧ e.attributes = a := by
  unfold owned? at hp
  split at hp
  · rename_i e he
    split at he
    · exact ⟨‹_›, e, he, by simpa using hp⟩
    · cases he
  · obtain ⟨d, hd, he⟩ := Option.map_eq_some_iff.1 hp
    simp at he
    exact absurd he.1 (l.stored d (mem_of_descriptor? hd).1)

/-- Fields and constants are properties of fast objects. -/
theorem Legal.fast_of_owned? {rules : Rules} {h : Heap} (l : t.Legal rules h) {k : PropertyKind}
    {a : Attributes} (hp : t.owned? dictionary name = some (k, a)) (hk : k ≠ .normal)
    (ha : k.isAccessor = false) : t.isDictionary = false := by
  by_contra hd
  have := l.accessors (by simpa using hd) _ (mem_of_descriptor? (descriptor?_of_owned? hp hk)).1
  rw [ha] at this
  cases this

end Shape

namespace Heap

variable {rules : Rules} {h h' : Heap} {id : ObjectId} {o : JsObject}

/-! ### The global object -/

/-- The global object is there and in dictionary mode. -/
theorem Obeys.globalObject (ob : h.Obeys rules) :
    ∃ o, h.object? Heap.globalObject = some o ∧ o.objectClass = .global ∧
      (h.shapeOf o).isDictionary := by
  obtain ⟨o, ho, hc, -⟩ := @Grows.object _ _ ob.roots Heap.globalObject _ rfl
  have hg : o.objectClass = .global := by
    cases hk : o.objectClass <;> simp_all [ObjectClass.fixed]
  exact ⟨o, ho, hg, ((ob.object ho).global hg).2⟩

/-- What a proxy stands for is no proxy. -/
theorem Obeys.resolveProxy_resolveProxy (ob : h.Obeys rules) (id : ObjectId) :
    h.resolveProxy (h.resolveProxy id) = h.resolveProxy id := by
  obtain ⟨g, hg, hc, -⟩ := ob.globalObject
  cases ho : h.object? id with
  | none => simp [resolveProxy, ho]
  | some o =>
    cases hk : o.objectClass with
    | globalProxy p =>
      have hp : p = Heap.globalObject := ((ob.object ho).proxy hk).1
      simp [resolveProxy, ho, hk, hp, hg, hc]
    | _ => simp [resolveProxy, ho, hk]

/-! ### Own properties -/

/-- The real own property of an object that is no proxy. -/
theorem ownReal_eq (hr : h.resolveProxy id = id) (ho : h.object? id = some o) (name : Name) :
    h.ownReal id name = .ofOwned id ((h.shapeOf o).owned? o.dictionary name) := by
  simp only [ownReal, hr, ho, Shape.owned?]
  generalize (if (h.shapeOf o).isDictionary = true then o.dictionary.get? name else none) = e
  cases e with
  | some e => rfl
  | none => cases (h.shapeOf o).descriptor? name <;> rfl

/-- The own property of an object that is no proxy. -/
theorem own_eq (hr : h.resolveProxy id = id) (ho : h.object? id = some o) (name : Name) :
    h.own id name =
      if (h.shapeOf o).hasInterceptor then .interceptor id
      else .ofOwned id ((h.shapeOf o).owned? o.dictionary name) := by
  simp only [own, hr, ho, ownReal_eq hr ho]

theorem isArray_eq_true : h.isArray (.object id) = true ↔
    ∃ o, h.object? id = some o ∧ o.objectClass = .array := by
  unfold isArray classOf? asObject?
  simp only [Value.objectId?, Option.bind_some]
  cases h.object? id with
  | none => simp
  | some o => cases hc : o.objectClass <;> simp [hc]

/-- What an object stands for is settled when it is created. -/
theorem Grows.resolveProxy (g : h.Grows h') (ho : h.object? id = some o) :
    h'.resolveProxy id = h.resolveProxy id := by
  obtain ⟨o', ho', hc, -⟩ := g.object ho
  simp only [Heap.resolveProxy, ho, ho']
  cases hk : o.objectClass <;> cases hk' : o'.objectClass <;>
    simp_all [ObjectClass.fixed]

/-- Only proxies stand for another object. -/
theorem resolveProxy_eq_self (ho : h.object? id = some o)
    (hp : ∀ g, o.objectClass ≠ .globalProxy g) : h.resolveProxy id = id := by
  simp [Heap.resolveProxy, ho]

/-! ### Classes -/

theorem isJsObject_object (ho : h.object? id = some o) : h.isJsObject (.object id) = true := by
  simp [isJsObject, asObject?, Value.objectId?, ho]

theorem isStringWrapper_object (ho : h.object? id = some o) :
    h.isStringWrapper (.object id) = (o.objectClass.instanceType == .stringWrapper) := by
  simp only [isStringWrapper, classOf?, asObject?, Value.objectId?, Option.bind_some, ho,
    Option.map_some]
  cases o.objectClass <;> rfl

theorem isArray_object (ho : h.object? id = some o) :
    h.isArray (.object id) = (o.objectClass.instanceType == .array) := by
  simp only [isArray, classOf?, asObject?, Value.objectId?, Option.bind_some, ho, Option.map_some]
  cases o.objectClass <;> rfl

theorem isFunction_object (ho : h.object? id = some o) :
    h.isFunction (.object id) = (o.objectClass.instanceType == .function) := by
  simp only [isFunction, classOf?, asObject?, Value.objectId?, Option.bind_some, ho,
    Option.map_some]
  cases o.objectClass <;> rfl

theorem isGlobalObject_object (ho : h.object? id = some o) :
    h.isGlobalObject (.object id) = (o.objectClass.instanceType == .globalObject) := by
  simp only [isGlobalObject, classOf?, asObject?, Value.objectId?, Option.bind_some, ho,
    Option.map_some]
  cases o.objectClass <;> rfl

theorem Obeys.eq_globalObject (ob : h.Obeys rules) (hg : h.isGlobalObject (.object id)) :
    id = Heap.globalObject := by
  cases ho : h.object? id with
  | none => simp [isGlobalObject, classOf?, asObject?, Value.objectId?, ho] at hg
  | some o =>
    rw [isGlobalObject_object ho] at hg
    refine ((ob.object ho).global ?_).1
    cases hc : o.objectClass <;> rw [hc] at hg <;> first | rfl | cases hg

theorem isString_object (ho : h.object? id = some o) : h.isString (.object id) = false := by
  simp [isString, get?, Value.objectId?, object?_eq_some.1 ho]

/-! ### Prototype chains -/

/-- Every prototype lies below the object that has it. -/
theorem Obeys.prototypeOf_lt (ob : h.Obeys rules) {p : ObjectId}
    (e : h.prototypeOf (.object id) = .object p) : p.index < id.index := by
  -- Numbers and strings come after the roots, where their prototypes are.
  have root : ∀ c, h.cell? id = some c → (∀ o, c ≠ .object o) → 6 ≤ id.index := by
    intro c hc hn
    by_contra hlt
    have hr : ∃ o, Heap.roots.object? id = some o := by
      obtain ⟨i⟩ := id
      have hi : i < 6 := by simpa using hlt
      interval_cases i <;> exact ⟨_, rfl⟩
    obtain ⟨o, ho⟩ := hr
    obtain ⟨o', ho', -⟩ := ob.roots.object ho
    have := object?_eq_some.1 ho'
    exact hn o' (Option.some.inj (hc.symm.trans this))
  unfold prototypeOf at e
  split at e
  · cases e
  · cases e
  · cases e
  · cases e
  · rename_i heq; cases heq
  · rename_i heq; cases heq
  · rename_i j heq
    cases heq
    split at e
    · rename_i d hc
      have := root _ hc (by simp)
      cases e
      simp [objectPrototype]
      omega
    · rename_i t i hc
      have := root _ hc (by simp)
      cases e
      simp [stringPrototype]
      omega
    · rename_i o hc
      exact (ob.object (object?_eq_some.2 hc)).prototype_lt e
    · cases e

/-- A prototype is allocated. -/
theorem Obeys.prototypeOf_lt_size (ob : h.Obeys rules) {p : ObjectId}
    (e : h.prototypeOf (.object id) = .object p) : p.index < h.cells.size := by
  have hlt := ob.prototypeOf_lt e
  suffices id.index < h.cells.size by omega
  by_contra hsz
  have hc : h.cell? id = none := by simpa [cell?] using hsz
  simp [prototypeOf, hc] at e

/-- Enough fuel reaches the end of the chain. -/
theorem Obeys.chainWithin_eq (ob : h.Obeys rules) {fuel fuel' : Nat} {v : Value}
    (hv : ∀ id, v = .object id → id.index < fuel ∧ id.index < fuel') :
    h.chainWithin fuel v = h.chainWithin fuel' v := by
  induction fuel generalizing fuel' v with
  | zero =>
    cases fuel' with
    | zero => rfl
    | succ k =>
      cases v with
      | object id => exact absurd (hv id rfl).1 (by simp)
      | _ => rfl
  | succ n ih =>
    cases v with
    | object id =>
      obtain ⟨h1, h2⟩ := hv id rfl
      obtain ⟨k, rfl⟩ : ∃ k, fuel' = k + 1 := ⟨fuel' - 1, by omega⟩
      simp only [chainWithin]
      refine congrArg _ (ih fun p e => ?_)
      have := ob.prototypeOf_lt e
      omega
    | _ => cases fuel' <;> rfl

/-- A chain goes from an object to the chain of its prototype. -/
theorem Obeys.chain_object (ob : h.Obeys rules) (id : ObjectId) :
    h.chain (.object id) = id :: h.chain (h.prototypeOf (.object id)) := by
  rw [chain, chainWithin]
  refine congrArg _ (ob.chainWithin_eq fun p e => ?_)
  have := ob.prototypeOf_lt_size e
  omega

theorem chain_of_ne_object {v : Value} (hv : ∀ id, v ≠ .object id) : h.chain v = [] := by
  cases v with
  | object id => exact absurd rfl (hv id)
  | _ => rfl

/-- Induction along a chain. -/
theorem Obeys.chain_induction (ob : h.Obeys rules) {P : Value → List ObjectId → Prop}
    (stop : ∀ v, (∀ id, v ≠ .object id) → P v [])
    (next : ∀ id, P (h.prototypeOf (.object id)) (h.chain (h.prototypeOf (.object id))) →
      P (.object id) (id :: h.chain (h.prototypeOf (.object id))))
    (v : Value) : P v (h.chain v) := by
  -- By induction on a bound of the index, since a prototype has a smaller one.
  have object : ∀ n, ∀ id : ObjectId, id.index < n → P (.object id) (h.chain (.object id)) := by
    intro n
    induction n with
    | zero => intro id hid; omega
    | succ n ih =>
      intro id hid
      rw [ob.chain_object]
      refine next id ?_
      cases e : h.prototypeOf (.object id) with
      | object p =>
        have := ob.prototypeOf_lt e
        exact ih p (by omega)
      | _ =>
        rw [chain_of_ne_object (by simp)]
        exact stop _ (by simp)
  cases v with
  | object id => exact object _ id (Nat.lt_succ_self _)
  | _ =>
    rw [chain_of_ne_object (by simp)]
    exact stop _ (by simp)

/-- What stands above an object in its chain lies below it in the heap. -/
theorem Obeys.index_lt_of_mem_chain (ob : h.Obeys rules) {j : ObjectId}
    (hj : j ∈ h.chain (h.prototypeOf (.object id))) : j.index < id.index := by
  have bound : ∀ v, ∀ j ∈ h.chain v, ∀ p, v = .object p → j.index ≤ p.index := by
    refine ob.chain_induction (P := fun v ids => ∀ j ∈ ids, ∀ p, v = .object p → j.index ≤ p.index)
      (by simp) fun id ih j hj p hp => ?_
    cases hp
    rcases List.mem_cons.1 hj with rfl | hj
    · exact Nat.le_refl _
    · cases e : h.prototypeOf (.object id) with
      | object p =>
        have := ih j hj p e
        have := ob.prototypeOf_lt e
        omega
      | _ => rw [e, chain_of_ne_object (by simp)] at hj; simp at hj
  cases e : h.prototypeOf (.object id) with
  | object p =>
    have := bound _ j hj p e
    have := ob.prototypeOf_lt e
    omega
  | _ => rw [e, chain_of_ne_object (by simp)] at hj; simp at hj

/-- The prototype of an object is settled when the object is created. -/
theorem Grows.prototypeOf (g : h.Grows h') (hid : id.index < h.cells.size) :
    h'.prototypeOf (.object id) = h.prototypeOf (.object id) := by
  obtain ⟨c, hc⟩ : ∃ c, h.cell? id = some c := ⟨_, Array.getElem?_eq_getElem hid⟩
  cases c with
  | number d => simp [Heap.prototypeOf, hc, g.primitive hc (by simp)]
  | string t i => simp [Heap.prototypeOf, hc, g.primitive hc (by simp)]
  | object o =>
    obtain ⟨o', ho', -, p⟩ := g.object (object?_eq_some.2 hc)
    simp [Heap.prototypeOf, hc, object?_eq_some.1 ho', p.prototype]

/-- So is its whole chain. -/
theorem Grows.chain (g : h.Grows h') (ob : h.Obeys rules) (ob' : h'.Obeys rules) {v : Value}
    (hv : ∀ id, v = .object id → id.index < h.cells.size) : h'.chain v = h.chain v := by
  revert hv
  refine ob.chain_induction (P := fun v ids =>
    (∀ id, v = .object id → id.index < h.cells.size) → h'.chain v = ids) ?_ ?_ v
  · exact fun v hv _ => chain_of_ne_object hv
  · intro id ih hv
    have e := g.prototypeOf (hv id rfl)
    rw [ob'.chain_object, e, ih fun p hp => ob.prototypeOf_lt_size hp]

/-! ### Lookup along a chain -/

/-- Nothing is found where none of the objects has anything. -/
theorem firstFound_eq_notFound {look : ObjectId → Lookup} {ids : List ObjectId} :
    firstFound look ids = .notFound ↔ ∀ id ∈ ids, look id = .notFound := by
  induction ids with
  | nil => simp [firstFound]
  | cons id ids ih => cases e : look id <;> simp [firstFound, e, ih]

/-- A lookup that finds something ends at the first object that has it. -/
theorem firstFound_split {look : ObjectId → Lookup} {ids : List ObjectId} {r : Lookup}
    (e : firstFound look ids = r) (hr : r ≠ .notFound) :
    ∃ before id after, ids = before ++ id :: after ∧ (∀ j ∈ before, look j = .notFound) ∧
      look id = r := by
  induction ids with
  | nil => exact absurd e.symm hr
  | cons id ids ih =>
    cases h0 : look id with
    | notFound =>
      simp only [firstFound, h0] at e
      obtain ⟨before, j, after, rfl, hb, hj⟩ := ih e
      refine ⟨id :: before, j, after, rfl, fun k hk => ?_, hj⟩
      rcases List.mem_cons.1 hk with rfl | hk
      · exact h0
      · exact hb k hk
    | _ =>
      refine ⟨[], id, ids, rfl, by simp, ?_⟩
      simp only [firstFound, h0] at e
      exact h0.trans e

/-- A real lookup at one object gives a property of what the object stands for, or nothing. -/
theorem ownReal_cases (h : Heap) (id : ObjectId) (name : Name) :
    h.ownReal id name = .notFound ∨
      ∃ k a, h.ownReal id name = .property (h.resolveProxy id) k a := by
  unfold ownReal
  dsimp only
  split
  · exact .inl rfl
  · split
    · exact .inr ⟨_, _, rfl⟩
    · split
      · exact .inr ⟨_, _, rfl⟩
      · exact .inl rfl

theorem ownReal_holder {name : Name} {holder : ObjectId} {k : PropertyKind} {a : Attributes}
    (e : h.ownReal id name = .property holder k a) : holder = h.resolveProxy id := by
  rcases h.ownReal_cases id name with h0 | ⟨k', a', h0⟩
  · rw [h0] at e
    cases e
  · rw [h0] at e
    cases e
    rfl

/-- What stands above an object in its chain stands for some other object. -/
theorem Obeys.resolveProxy_ne_of_mem_chain (ob : h.Obeys rules) {j : ObjectId}
    (hj : j ∈ h.chain (h.prototypeOf (.object id))) : h.resolveProxy j ≠ id := by
  have hlt := ob.index_lt_of_mem_chain hj
  cases ho : h.object? j with
  | none =>
    simp only [resolveProxy, ho]
    intro e
    simp [e] at hlt
  | some o =>
    cases hk : o.objectClass with
    | globalProxy p =>
      obtain ⟨hp, e⟩ := (ob.object ho).proxy hk
      have := (ob.object ho).prototype_lt e
      simp only [resolveProxy, ho, hk, hp]
      rintro rfl
      omega
    | _ =>
      simp only [resolveProxy, ho, hk]
      intro e
      simp [e] at hlt

/-- The property that a real lookup finds at the object itself is an own property. -/
theorem Obeys.ownReal_of_lookupReal (ob : h.Obeys rules) {name : Name} {k : PropertyKind}
    {a : Attributes} (e : h.lookupReal id name = .property id k a) :
    h.ownReal id name = .property id k a := by
  rcases h.ownReal_cases id name with h0 | ⟨k', a', h0⟩
  · exfalso
    rw [lookupReal, h0] at e
    obtain ⟨before, j, after, hids, -, hj⟩ := firstFound_split e (by simp)
    have hm : j ∈ h.chain (h.prototypeOf (.object id)) := by rw [hids]; simp
    exact ob.resolveProxy_ne_of_mem_chain hm (ownReal_holder hj).symm
  · rw [lookupReal, h0] at e
    exact h0.trans e

/-- An object that does not own a name looks for it in its prototypes. -/
theorem ownReal_notFound_of_lookupReal {name : Name} (hr : h.resolveProxy id = id)
    (e : ∀ k a, h.lookupReal id name ≠ .property id k a) : h.ownReal id name = .notFound := by
  rcases h.ownReal_cases id name with h0 | ⟨k, a, h0⟩
  · exact h0
  · rw [hr] at h0
    exact absurd (by rw [lookupReal, h0]) (e k a)

/-- A lookup ends where it finds something, or has found the same thing before. -/
theorem firstFound_of_passed {look : ObjectId → Lookup} {passed after : List ObjectId} {j : ObjectId}
    (hp : ∀ k ∈ passed, look k = .notFound ∨ look k = look j) (hj : look j ≠ .notFound) :
    firstFound look (passed ++ j :: after) = look j := by
  induction passed with
  | nil => cases e : look j <;> simp_all [firstFound]
  | cons k passed ih =>
    rcases hp k (by simp) with e | e
    · simp only [List.cons_append, firstFound, e]
      exact ih fun i hi => hp i (by simp [hi])
    · cases ej : look j <;> simp_all [firstFound]

/-- What is found is on the first object that has something. -/
theorem firstFound_of_split {look : ObjectId → Lookup} {before after : List ObjectId} {j : ObjectId}
    (hb : ∀ k ∈ before, look k = .notFound) (hj : look j ≠ .notFound) :
    firstFound look (before ++ j :: after) = look j :=
  firstFound_of_passed (fun k hk => .inl (hb k hk)) hj

/-! ### Whole lookups -/

variable {name : Name}

/-- An object has nothing, an interceptor, or a property. -/
theorem own_cases (h : Heap) (id : ObjectId) (name : Name) : h.own id name = .notFound ∨
    h.own id name = .interceptor (h.resolveProxy id) ∨
    h.own id name = h.ownReal (h.resolveProxy id) name := by
  unfold own
  dsimp only
  split
  · exact .inl rfl
  · split
    · exact .inr (.inl rfl)
    · exact .inr (.inr rfl)

theorem ownReal_holder? {id : ObjectId} (hr : h.resolveProxy id = id)
    (hn : h.ownReal id name ≠ .notFound) : (h.ownReal id name).holder? = some id := by
  rcases h.ownReal_cases id name with e | ⟨k, a, e⟩
  · exact absurd e hn
  · rw [e, hr]
    rfl

theorem own_holder? {id : ObjectId} (hr : h.resolveProxy id = id)
    (hn : h.own id name ≠ .notFound) : (h.own id name).holder? = some id := by
  rcases h.own_cases id name with e | e | e
  · exact absurd e hn
  · rw [e, hr]
    rfl
  · rw [hr] at e
    rw [e] at hn ⊢
    exact ownReal_holder? hr hn

/-- A lookup from an object goes on above it if the object has nothing to say. -/
theorem Obeys.lookup_object (ob : h.Obeys rules) {id : ObjectId} {o : JsObject}
    (ho : h.object? id = some o) : h.lookup (.object id) name =
      firstFound (h.own · name) (id :: h.chain (h.prototypeOf (.object id))) := by
  simp only [lookup, lookupStart, isJsObject_object ho, if_true, ob.chain_object]

theorem Obeys.own_holder? (ob : h.Obeys rules) {j : ObjectId} (hn : h.own j name ≠ .notFound) :
    (h.own j name).holder? = some (h.resolveProxy j) := by
  have hr := ob.resolveProxy_resolveProxy j
  rcases h.own_cases j name with e | e | e
  · exact absurd e hn
  · rw [e]
    rfl
  · rw [e] at hn ⊢
    exact ownReal_holder? hr hn

/-- What is found above an object is not found at it. -/
theorem Obeys.holder?_above (ob : h.Obeys rules) (id : ObjectId) (name : Name) :
    (firstFound (h.own · name) (h.chain (h.prototypeOf (.object id)))).holder? ≠ some id := by
  intro e
  obtain ⟨before, j, after, hids, -, hj⟩ := firstFound_split
    (show firstFound (h.own · name) _ = _ from rfl) (fun h0 => by rw [h0] at e; cases e)
  have hne : h.own j name ≠ .notFound := fun h0 => by
    rw [← hj, h0] at e
    cases e
  rw [← hj, ob.own_holder? hne, Option.some.injEq] at e
  exact ob.resolveProxy_ne_of_mem_chain (by rw [hids]; simp) e

/-- A lookup that ends at the object itself finds an own property. -/
theorem Obeys.own_of_lookup (ob : h.Obeys rules) (ho : h.object? id = some o)
    (hh : (h.lookup (.object id) name).holder? = some id) :
    h.own id name = h.lookup (.object id) name := by
  rw [ob.lookup_object ho, firstFound] at hh ⊢
  split at hh
  · exact absurd hh (ob.holder?_above id name)
  · rename_i hn
    cases e : h.own id name <;> simp_all

/-- What an object has itself is found first. -/
theorem Obeys.lookup_of_own (ob : h.Obeys rules) (ho : h.object? id = some o)
    (hn : h.own id name ≠ .notFound) : h.lookup (.object id) name = h.own id name := by
  rw [ob.lookup_object ho, firstFound]
  split
  · exact absurd ‹_› hn
  · rfl

/-- A lookup that ends elsewhere, or nowhere, passes the object itself. -/
theorem Obeys.own_absent (ob : h.Obeys rules) (ho : h.object? id = some o)
    (hp : ∀ g, o.objectClass ≠ .globalProxy g)
    (hh : (h.lookup (.object id) name).holder? ≠ some id) : h.own id name = .notFound := by
  by_contra hn
  rw [ob.lookup_of_own ho hn] at hh
  exact hh (Heap.own_holder? (resolveProxy_eq_self ho hp) hn)

/-- What is not found with interceptors is not found without them. -/
theorem Obeys.ownReal_notFound (ob : h.Obeys rules) (e : h.own id name = .notFound) :
    h.ownReal id name = .notFound := by
  have hr := ob.resolveProxy_resolveProxy id
  simp only [own] at e
  split at e
  · rename_i ho
    simp [ownReal, ho]
  · split at e
    · cases e
    · simpa only [ownReal, hr] using e

/-- A property that an object has is a real one. -/
theorem Obeys.ownReal_of_own (ob : h.Obeys rules) {j : ObjectId} {kind : PropertyKind}
    {a : Attributes} (hk : h.own id name = .property j kind a) :
    h.ownReal id name = .property j kind a := by
  rcases h.own_cases id name with e | e | e
  · rw [e] at hk
    cases hk
  · rw [e] at hk
    cases hk
  · rw [e] at hk
    simpa only [ownReal, ob.resolveProxy_resolveProxy] using hk

/-- A property that is found past all interceptors is found without them. -/
theorem Obeys.firstFound_real (ob : h.Obeys rules) {ids : List ObjectId} {j : ObjectId}
    {kind : PropertyKind} {a : Attributes}
    (found : firstFound (h.own · name) ids = .property j kind a) :
    firstFound (h.ownReal · name) ids = .property j kind a := by
  obtain ⟨before, k, after, rfl, hb, hk⟩ := firstFound_split found (by simp)
  have real := ob.ownReal_of_own hk
  have first : firstFound (h.ownReal · name) (before ++ k :: after) = h.ownReal k name :=
    firstFound_of_split (fun i hi => ob.ownReal_notFound (hb i hi)) (by simp [real])
  exact first.trans real

/-- A lookup goes along the object and the chain above it. -/
theorem lookupReal_eq (h : Heap) (id : ObjectId) (name : Name) : h.lookupReal id name =
    firstFound (h.ownReal · name) (id :: h.chain (h.prototypeOf (.object id))) := by
  rw [lookupReal, firstFound]
  cases h.ownReal id name <;> rfl

/-- A proxy owns what its global object owns. -/
theorem Obeys.ownReal_resolveProxy (ob : h.Obeys rules) (id : ObjectId) (name : Name) :
    h.ownReal (h.resolveProxy id) name = h.ownReal id name := by
  simp only [ownReal, ob.resolveProxy_resolveProxy]

/-- A proxy stands for the global object, which is its prototype. -/
theorem Obeys.of_proxy (ob : h.Obeys rules) (proxy : h.resolveProxy id ≠ id) :
    h.resolveProxy id = Heap.globalObject ∧
      h.prototypeOf (.object id) = .object Heap.globalObject := by
  cases ho : h.object? id with
  | none => simp [resolveProxy, ho] at proxy
  | some o =>
    cases hc : o.objectClass with
    | globalProxy p =>
      obtain ⟨rfl, above⟩ := (ob.object ho).proxy hc
      exact ⟨by simp [resolveProxy, ho, hc], by simpa [prototypeOf, object?_eq_some.1 ho] using above⟩
    | _ => simp [resolveProxy, ho, hc] at proxy

end Heap

end Speculation
