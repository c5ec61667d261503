import Speculation.Proofs.Property.Store

/-!
# Heaps that hold the same properties

An object may keep what it owns in fields, in its shape or in its dictionary. `h.Mirrors h'` says that the
heap `h'` has the cells of `h`, except that objects may keep their properties elsewhere: under every name
every object owns the same value or the same accessors, with the same attributes, and the rest of an object
is as it was.

Prototypes, chains and classes are then the same, and so is what every lookup finds
(`Mirrors.lookup`): the same interceptor, or a property of the same holder that means the same. Only the
kind of the property, which says where its holder keeps it, may be another one.
-/

namespace Speculation

namespace Heap

variable {rules : Rules} {h h' : Heap} {id : ObjectId} {o : JsObject} {name : Name}

/-- The heap `h'` has the cells of `h`, but objects may keep their properties elsewhere. -/
structure Mirrors (h h' : Heap) : Prop where
  size : h'.cells.size = h.cells.size
  cell : ∀ {j}, h.object? j = none → h'.cell? j = h.cell? j
  object : ∀ {j o}, h.object? j = some o → ∃ o', h'.object? j = some o' ∧ Unmoved h o h' o'
  property : ∀ j n, h'.ownProperty? j n = h.ownProperty? j n

/-- Two lookups of a name find the same, though the holder may keep it in another place. -/
inductive Corresponds (h h' : Heap) (name : Name) : Lookup → Lookup → Prop
  | notFound : Corresponds h h' name .notFound .notFound
  | interceptor (holder : ObjectId) : Corresponds h h' name (.interceptor holder) (.interceptor holder)
  | property {holder : ObjectId} {kind kind' : PropertyKind} (a : Attributes)
      (same : h'.contentOf holder name kind' = h.contentOf holder name kind) :
      Corresponds h h' name (.property holder kind a) (.property holder kind' a)

theorem Corresponds.isReadOnly {l l' : Lookup} (found : Corresponds h h' name l l') :
    l'.isReadOnly = l.isReadOnly := by
  cases found <;> rfl

/-- Searches correspond if they do at every object. -/
theorem firstFound_corresponds {look look' : ObjectId → Lookup}
    (each : ∀ id, Corresponds h h' name (look id) (look' id)) (ids : List ObjectId) :
    Corresponds h h' name (firstFound look ids) (firstFound look' ids) := by
  induction ids with
  | nil => exact .notFound
  | cons id ids ih =>
    have this := each id
    unfold firstFound
    generalize look id = l at this ⊢
    generalize look' id = l' at this ⊢
    cases this with
    | notFound => exact ih
    | interceptor holder => exact .interceptor holder
    | property a same => exact .property a same

namespace Mirrors

variable (m : h.Mirrors h')

include m

/-! ### Objects and values -/

theorem absent (ho : h.object? id = none) : h'.object? id = none := by
  rw [object?, m.cell ho]
  exact ho

/-- A value is an object on both sides, or on none. -/
theorem asObject?_cases (v : Value) : (h.asObject? v = none ∧ h'.asObject? v = none) ∨
    ∃ o o', h.asObject? v = some o ∧ h'.asObject? v = some o' ∧ Unmoved h o h' o' := by
  unfold asObject?
  cases v with
  | object id =>
    simp only [Value.objectId?, Option.bind_some]
    cases ho : h.object? id with
    | none => exact .inl ⟨rfl, m.absent ho⟩
    | some o =>
      obtain ⟨o', ho', same⟩ := m.object ho
      exact .inr ⟨o, o', rfl, ho', same⟩
  | _ => exact .inl ⟨rfl, rfl⟩

theorem isJsObject (v : Value) : h'.isJsObject v = h.isJsObject v := by
  unfold Heap.isJsObject
  rcases m.asObject?_cases v with ⟨e, e'⟩ | ⟨o, o', e, e', -⟩ <;> rw [e, e']
  rfl

theorem classOf? (v : Value) : h'.classOf? v = h.classOf? v := by
  unfold Heap.classOf?
  rcases m.asObject?_cases v with ⟨e, e'⟩ | ⟨o, o', e, e', same⟩ <;> rw [e, e']
  exact congrArg some same.objectClass

theorem isFunction (v : Value) : h'.isFunction v = h.isFunction v := by
  rw [Heap.isFunction, Heap.isFunction, m.classOf?]

theorem functionData? (v : Value) : h'.functionData? v = h.functionData? v := by
  unfold Heap.functionData?
  rcases m.asObject?_cases v with ⟨e, e'⟩ | ⟨o, o', e, e', same⟩ <;> rw [e, e']
  simp only [Option.bind_some, JsObject.function?, same.objectClass]

theorem delegate? (v : Value) : h'.delegate? v = h.delegate? v := by
  unfold Heap.delegate?
  rcases m.asObject?_cases v with ⟨e, e'⟩ | ⟨o, o', e, e', same⟩ <;> rw [e, e']
  simp only [JsObject.function?, same.objectClass, same.callHandler]
  rfl

theorem isCallable (v : Value) : h'.isCallable v = h.isCallable v := by
  rw [Heap.isCallable, Heap.isCallable, m.isFunction, m.delegate?]

theorem arrayLength? (v : Value) : h'.arrayLength? v = h.arrayLength? v := by
  unfold Heap.arrayLength?
  rcases m.asObject?_cases v with ⟨e, e'⟩ | ⟨o, o', e, e', same⟩ <;> rw [e, e']
  simp only [same.objectClass, same.elements]

theorem interceptorValue? (j : ObjectId) (n : Name) :
    h'.interceptorValue? j n = h.interceptorValue? j n := by
  unfold Heap.interceptorValue?
  cases ho : h.object? j with
  | none => rw [m.absent ho]
  | some o =>
    obtain ⟨o', ho', same⟩ := m.object ho
    rw [ho', Option.bind_some, Option.bind_some, same.interceptor]

/-! ### Primitive values -/

/-- Numbers and strings are the same. -/
theorem get?_cases (v : Value) : (h'.get? v = h.get? v ∧ ∀ o, h.get? v ≠ some (.object o)) ∨
    ∃ o o', h.get? v = some (.object o) ∧ h'.get? v = some (.object o') ∧ Unmoved h o h' o' := by
  unfold get?
  cases v with
  | object id =>
    simp only [Value.objectId?, Option.bind_some]
    cases ho : h.object? id with
    | none => exact .inl ⟨m.cell ho, fun o e => by simp [object?_eq_some.mpr e] at ho⟩
    | some o =>
      obtain ⟨o', ho', same⟩ := m.object ho
      exact .inr ⟨o, o', object?_eq_some.mp ho, object?_eq_some.mp ho', same⟩
  | _ => exact .inl ⟨rfl, by simp [Value.objectId?]⟩

theorem string? (v : Value) : h'.string? v = h.string? v := by
  unfold Heap.string?
  rcases m.get?_cases v with ⟨e, -⟩ | ⟨o, o', e, e', -⟩
  · rw [e]
  · rw [e, e']

theorem toNumber (v : Value) : h'.toNumber v = h.toNumber v := by
  unfold Heap.toNumber
  rcases m.get?_cases v with ⟨e, -⟩ | ⟨o, o', e, e', -⟩
  · rw [e]
  · rw [e, e']

theorem stringLength? (v : Value) : h'.stringLength? v = h.stringLength? v := by
  unfold Heap.stringLength?
  rw [m.string?, m.classOf?]
  simp only [m.string?]

theorem intrinsic? (v : Value) (n : Name) : h'.intrinsic? v n = h.intrinsic? v n := by
  rw [Heap.intrinsic?, Heap.intrinsic?, m.stringLength?, m.arrayLength?, m.functionData?]

theorem position? (args : List Value) (length : Nat) :
    h'.position? args length = h.position? args length := by
  unfold Heap.position?
  cases args with
  | nil => rfl
  | cons v args => simp only [m.toNumber]

/-- What a value is called in messages. The names of functions are shared. -/
theorem describe (shared : h'.shared = h.shared) (v : Value) : h'.describe v = h.describe v := by
  cases v with
  | object id =>
    unfold Heap.describe
    rcases m.get?_cases (.object id) with ⟨e, -⟩ | ⟨o, o', e, e', same⟩
    · have e : h'.cell? id = h.cell? id := e
      simp only [e, sharedInfo, shared]
    · have e : h.cell? id = _ := e
      have e' : h'.cell? id = _ := e'
      simp only [e, e', same.objectClass, sharedInfo, shared]
  | _ => rfl

/-! ### Prototypes -/

theorem prototypeOf (v : Value) : h'.prototypeOf v = h.prototypeOf v := by
  cases v with
  | object id =>
    unfold Heap.prototypeOf
    rcases m.get?_cases (.object id) with ⟨e, plain⟩ | ⟨o, o', e, e', same⟩
    · have e : h'.cell? id = h.cell? id := e
      simp only [e]
      split <;> try rfl
      rename_i o hc
      exact absurd hc (plain o)
    · have e : h.cell? id = _ := e
      have e' : h'.cell? id = _ := e'
      simp only [e, e', same.shape.prototype]
  | _ => rfl

theorem chain (v : Value) : h'.chain v = h.chain v := by
  have within (fuel : Nat) : ∀ v, h'.chainWithin fuel v = h.chainWithin fuel v := by
    induction fuel with
    | zero => exact fun _ => rfl
    | succ fuel ih =>
      intro v
      cases v with
      | object id => rw [chainWithin, chainWithin, m.prototypeOf, ih]
      | _ => rfl
  rw [Heap.chain, Heap.chain, m.size, within]

theorem lookupStart (v : Value) : h'.lookupStart v = h.lookupStart v := by
  rw [Heap.lookupStart, Heap.lookupStart, m.isJsObject, m.prototypeOf]

theorem resolveProxy (j : ObjectId) : h'.resolveProxy j = h.resolveProxy j := by
  unfold Heap.resolveProxy
  cases ho : h.object? j with
  | none => rw [m.absent ho]
  | some o =>
    obtain ⟨o', ho', same⟩ := m.object ho
    simp only [ho', same.objectClass]

/-! ### Lookups -/

/-- What an object owns corresponds. -/
theorem ownReal (j : ObjectId) (n : Name) : Corresponds h h' n (h.ownReal j n) (h'.ownReal j n) := by
  have same := m.property j n
  rcases h.ownReal_cases j n with e | ⟨kind, a, e⟩
  · rw [ownProperty?_eq_none.mpr e, ownProperty?_eq_none] at same
    rw [e, same]
    exact .notFound
  · rw [ownProperty?_of_ownReal e] at same
    rcases h'.ownReal_cases j n with e' | ⟨kind', a', e'⟩
    · rw [ownProperty?_eq_none.mpr e'] at same
      cases same
    · rw [ownProperty?_of_ownReal e', m.resolveProxy, Option.some.injEq, OwnProperty.mk.injEq] at same
      rw [e, e', m.resolveProxy, same.2]
      exact .property a same.1

/-- What an object has corresponds. -/
theorem own (j : ObjectId) (n : Name) : Corresponds h h' n (h.own j n) (h'.own j n) := by
  unfold Heap.own
  rw [m.resolveProxy]
  dsimp only
  cases ho : h.object? (h.resolveProxy j) with
  | none =>
    rw [m.absent ho]
    exact .notFound
  | some o =>
    obtain ⟨o', ho', same⟩ := m.object ho
    simp only [ho', same.shape.hasInterceptor]
    by_cases asked : (h.shapeOf o).hasInterceptor
    · rw [if_pos asked, if_pos asked]
      exact .interceptor _
    · rw [if_neg asked, if_neg asked]
      exact m.ownReal _ n

/-- A lookup along the chain of a value. -/
theorem lookup (v : Value) (n : Name) : Corresponds h h' n (h.lookup v n) (h'.lookup v n) := by
  rw [Heap.lookup, Heap.lookup, m.lookupStart, m.chain]
  exact firstFound_corresponds (fun j => m.own j n) _

/-- A lookup past all interceptors. -/
theorem lookupReal (j : ObjectId) (n : Name) :
    Corresponds h h' n (h.lookupReal j n) (h'.lookupReal j n) := by
  rw [lookupReal_eq, lookupReal_eq, m.prototypeOf, m.chain]
  exact firstFound_corresponds (fun j => m.ownReal j n) _

end Mirrors

end Heap

end Speculation
