import Speculation.Cache.Store
import Speculation.Proofs.Heap.Bare

/-!
# What guards guarantee

A stub is made in one heap and runs in a later one. Its guards pin the receiver to a shape, the
fast objects of the chain up to the holder to theirs, and ask of the objects in dictionary mode
that their dictionaries do not have the name. Since shapes keep their layouts and objects their
prototypes, this says about the later heap:

* receivers of one shape have the same type and the same objects above them
  (`Twin.chain_eq`);
* a pinned object owns what it owned (`Pinned.own_eq`);
* the guards of a chain pin or check every object before the holder (`Checks.before`).
-/

namespace Speculation

namespace Heap

variable {rules : Rules} {h₀ h : Heap} {name : Name}

/-! ### Chains of fast objects -/

/-- Whatever stands behind an object in a chain is in the chain too. -/
theorem Obeys.mem_chain_of_prototypeOf (ob : h.Obeys rules) {v : Value} {j p : ObjectId}
    (hj : j ∈ h.chain v) (e : h.prototypeOf (.object j) = .object p) : p ∈ h.chain v := by
  revert hj
  refine ob.chain_induction (P := fun _ ids => j ∈ ids → p ∈ ids) (by simp) (fun id ih hj => ?_) v
  rcases List.mem_cons.1 hj with rfl | hj
  · rw [e, ob.chain_object]
    simp
  · exact List.mem_cons_of_mem _ (ih hj)

theorem isFast_eq_true {id : ObjectId} : h.isFast id = true ↔
    ∃ o, h.object? id = some o ∧ (h.shapeOf o).isDictionary = false := by
  unfold isFast
  cases h.object? id with
  | none => simp
  | some o => simp

/-- Behind a proxy there is the global object, which is not fast. -/
theorem Obeys.resolveProxy_of_fast (ob : h.Obeys rules) {v : Value}
    (fast : ∀ id ∈ h.chain v, h.isFast id) {j : ObjectId} (hj : j ∈ h.chain v) :
    h.resolveProxy j = j := by
  obtain ⟨o, ho, -⟩ := isFast_eq_true.1 (fast j hj)
  refine resolveProxy_eq_self ho fun g hk => ?_
  obtain ⟨-, hp⟩ := (ob.object ho).proxy hk
  have e : h.prototypeOf (.object j) = .object Heap.globalObject := by
    simpa [Heap.prototypeOf, object?_eq_some.1 ho] using hp
  obtain ⟨o', ho', hd⟩ := isFast_eq_true.1 (fast _ (ob.mem_chain_of_prototypeOf hj e))
  obtain ⟨o'', ho'', -, hd'⟩ := ob.globalObject
  obtain rfl := Option.some.inj (ho'.symm.trans ho'')
  simp [hd] at hd'

/-! ### Objects of one shape -/

/-- An object `id` of a heap and an object `id'` of a later heap with the same shape. -/
structure Twin (h₀ h : Heap) (id id' : ObjectId) (o o' : JsObject) : Prop where
  before : h₀.object? id = some o
  after : h.object? id' = some o'
  shape : o'.shape = o.shape

namespace Twin

variable {id id' : ObjectId} {o o' : JsObject}

/-- Twins agree in all that their shapes describe. -/
theorem layout (t : Twin h₀ h id id' o o') (ob₀ : h₀.Obeys rules) (g : h₀.Grows h) :
    (h.shapeOf o').derive = (h₀.shapeOf o).derive := by
  rw [shapeOf, t.shape]
  exact g.layout (ob₀.object t.before).shape_lt

theorem instanceType_eq (t : Twin h₀ h id id' o o') (ob₀ : h₀.Obeys rules) (ob : h.Obeys rules)
    (g : h₀.Grows h) : o'.objectClass.instanceType = o.objectClass.instanceType := by
  rw [← (ob.object t.after).type, ← (ob₀.object t.before).type]
  exact (Shape.Precedes.of_derive (t.layout ob₀ g)).instanceType

/-- Twins have the same prototype. -/
theorem prototypeOf_eq (t : Twin h₀ h id id' o o') (ob₀ : h₀.Obeys rules) (g : h₀.Grows h) :
    h.prototypeOf (.object id') = h₀.prototypeOf (.object id) := by
  simp only [Heap.prototypeOf, object?_eq_some.1 t.before, object?_eq_some.1 t.after]
  exact (Shape.Precedes.of_derive (t.layout ob₀ g)).prototype

/-- The same objects stand above them. -/
theorem chain_eq (t : Twin h₀ h id id' o o') (ob₀ : h₀.Obeys rules) (ob : h.Obeys rules)
    (g : h₀.Grows h) :
    h.chain (h.prototypeOf (.object id')) = h₀.chain (h₀.prototypeOf (.object id)) := by
  rw [t.prototypeOf_eq ob₀ g]
  exact g.chain ob₀ ob fun p e => ob₀.prototypeOf_lt_size e

theorem resolveProxy_eq_self (t : Twin h₀ h id id' o o') (ob₀ : h₀.Obeys rules)
    (ob : h.Obeys rules) (g : h₀.Grows h) (hp : ∀ p, o.objectClass ≠ .globalProxy p) :
    h₀.resolveProxy id = id ∧ h.resolveProxy id' = id' := by
  refine ⟨Heap.resolveProxy_eq_self t.before hp, Heap.resolveProxy_eq_self t.after fun p hk => ?_⟩
  have e := t.instanceType_eq ob₀ ob g
  rw [hk] at e
  cases hc : o.objectClass <;> rw [hc] at e <;> first | exact hp _ hc | cases e

end Twin

/-- An object that still has its shape. -/
def Pinned (h₀ h : Heap) (id : ObjectId) : Prop := ∃ o o', Twin h₀ h id id o o'

/-- A pinned fast object owns what it owned. -/
theorem Pinned.own_eq {id : ObjectId} (p : Pinned h₀ h id) (ob₀ : h₀.Obeys rules)
    (g : h₀.Grows h) (fast : h₀.isFast id) (hr : h₀.resolveProxy id = id) :
    h.own id name = h₀.own id name ∧ h.ownReal id name = h₀.ownReal id name := by
  obtain ⟨o, o', t⟩ := p
  obtain ⟨o₁, ho₁, hd⟩ := isFast_eq_true.1 fast
  obtain rfl := Option.some.inj (t.before.symm.trans ho₁)
  have layout := t.layout ob₀ g
  have hr' : h.resolveProxy id = id := (g.resolveProxy t.before).trans hr
  have hd' : (h.shapeOf o').isDictionary = false := by
    simpa [hd] using congrArg Shape.isDictionary layout
  have owned : (h.shapeOf o').owned? o'.dictionary name = (h₀.shapeOf o).owned? o.dictionary name := by
    rw [Shape.owned?_fast hd', Shape.owned?_fast hd]
    have hds : (h.shapeOf o').descriptors = (h₀.shapeOf o).descriptors := by
      simpa using congrArg Shape.descriptors layout
    rw [Shape.descriptor?, Shape.descriptor?, hds]
  have hi : (h.shapeOf o').hasInterceptor = (h₀.shapeOf o).hasInterceptor := by
    simpa using congrArg Shape.hasInterceptor layout
  rw [Heap.own_eq hr' t.after, Heap.own_eq hr t.before, ownReal_eq hr' t.after,
    ownReal_eq hr t.before, owned, hi]
  exact ⟨rfl, rfl⟩

/-! ### Guards of a chain -/

/-- The guards of a chain hold for a name. -/
structure Checks (h : Heap) (name : Name) (g : ChainGuards) : Prop where
  pinned : ∀ c ∈ g.prototypeChecks, h.hasShape c.1 c.2
  absent : ∀ id, Holder.object id ∈ g.absentChecks → h.dictionarySlot? id name = none

theorem hasShape_eq_true {id : ObjectId} {s : ShapeId} :
    h.hasShape id s = true ↔ ∃ o, h.object? id = some o ∧ o.shape = s := by
  unfold hasShape
  cases h.object? id <;> simp

section Along

variable {holder : Option ObjectId} {id : ObjectId} {o : JsObject} {rest : List ObjectId}

/-- The guards at one object that is not the holder. -/
theorem Checks.cons (ho : h₀.object? id = some o) (hne : some id ≠ holder)
    (c : Checks h name (h₀.guardsAlong holder (id :: rest))) :
    Checks h name (h₀.guardsAlong holder rest) ∧
      ((h₀.shapeOf o).isDictionary = false → Pinned h₀ h id) ∧
      ((h₀.shapeOf o).isDictionary → h.dictionarySlot? id name = none) := by
  simp only [guardsAlong, ho, hne, if_false] at c
  cases hd : (h₀.shapeOf o).isDictionary with
  | true =>
    simp only [hd, if_true] at c
    refine ⟨⟨c.pinned, fun j hj => c.absent j (List.mem_cons_of_mem _ hj)⟩, by simp, fun _ => ?_⟩
    exact c.absent id (List.mem_cons_self ..)
  | false =>
    simp only [hd] at c
    refine ⟨⟨fun q hq => c.pinned q (List.mem_cons_of_mem _ hq), c.absent⟩, fun _ => ?_, by simp⟩
    obtain ⟨o', ho', hs⟩ := hasShape_eq_true.1 (c.pinned _ (List.mem_cons_self ..))
    exact ⟨o, o', ho, ho', hs⟩

/-- The guards at the objects before the holder. -/
theorem Checks.before {ids : List ObjectId}
    (hids : ∀ j ∈ ids, (h₀.object? j).isSome ∧ some j ≠ holder)
    (c : Checks h name (h₀.guardsAlong holder (ids ++ rest))) :
    Checks h name (h₀.guardsAlong holder rest) ∧
      ∀ j ∈ ids, (h₀.isFast j → Pinned h₀ h j) ∧
        (h₀.isFast j = false → h.dictionarySlot? j name = none) := by
  induction ids with
  | nil => exact ⟨c, by simp⟩
  | cons id ids ih =>
    obtain ⟨ho, hne⟩ := hids id (by simp)
    obtain ⟨o, ho⟩ := Option.isSome_iff_exists.1 ho
    obtain ⟨c', hp, hd⟩ := c.cons ho hne
    obtain ⟨c'', hrest⟩ := ih (fun j hj => hids j (by simp [hj])) c'
    refine ⟨c'', fun j hj => ?_⟩
    rcases List.mem_cons.1 hj with rfl | hj
    · have hf : h₀.isFast j = !(h₀.shapeOf o).isDictionary := by simp [isFast, ho]
      rw [hf]
      exact ⟨fun e => hp (by simpa using e), fun e => hd (by simpa using e)⟩
    · exact hrest j hj

/-- The guards ask the objects in dictionary mode before the holder. -/
theorem mem_absentChecks {ids : List ObjectId}
    (hids : ∀ j ∈ ids, (h₀.object? j).isSome ∧ some j ≠ holder) (hid : id ∈ ids)
    (slow : h₀.isFast id = false) :
    Holder.object id ∈ (h₀.guardsAlong holder (ids ++ rest)).absentChecks := by
  induction ids with
  | nil => cases hid
  | cons j ids ih =>
    obtain ⟨known, hne⟩ := hids j (by simp)
    obtain ⟨x, hx⟩ := Option.isSome_iff_exists.1 known
    simp only [List.cons_append, guardsAlong, hx, hne, if_false]
    rcases List.mem_cons.1 hid with rfl | hid
    · have hd : (h₀.shapeOf x).isDictionary := by simpa [isFast, hx] using slow
      simp [hd]
    · have rest := ih (fun k hk => hids k (by simp [hk])) hid
      split
      · exact List.mem_cons_of_mem _ rest
      · exact rest

/-- The guards of a chain are among those of the receiver below it. -/
theorem absentChecks_subset (ho : h₀.object? id = some o) (hne : some id ≠ holder) :
    (h₀.guardsAlong holder (h₀.chain (h₀.prototypeOf (.object id)))).absentChecks ⊆
      (h₀.chainGuards (.object id) holder).absentChecks := by
  have has : h₀.asObject? (.object id) = some o := ho
  have hne' : (Value.object id).objectId? ≠ holder := hne
  simp only [chainGuards, has, hne', if_false]
  split
  · exact List.subset_cons_self _ _
  · exact List.Subset.refl _

/-- The guard at the holder. -/
theorem Checks.at_holder (ho : h₀.object? id = some o)
    (c : Checks h name (h₀.guardsAlong (some id) (id :: rest))) : Pinned h₀ h id := by
  simp only [guardsAlong, ho, if_true] at c
  obtain ⟨o', ho', hs⟩ := hasShape_eq_true.1 (c.pinned _ (List.mem_singleton_self _))
  exact ⟨o, o', ho, ho', hs⟩

end Along

/-! ### Guards of a stub -/

theorem mapOf?_object {id : ObjectId} {o : JsObject} (ho : h.object? id = some o) :
    h.mapOf? (.object id) = some o.shape := by
  simp [mapOf?, get?, Value.objectId?, object?_eq_some.1 ho]

theorem object_of_asObject? {receiver : Value} {o : JsObject} (ho : h.asObject? receiver = some o) :
    ∃ id, receiver = .object id ∧ h.object? id = some o := by
  cases receiver with
  | object id => exact ⟨id, rfl, ho⟩
  | _ => cases ho

/-- Neither numbers nor strings have a shape of an object. -/
theorem Obeys.shape_ne_primitive (ob : h.Obeys rules) {id : ObjectId} {o : JsObject}
    (ho : h.object? id = some o) : heapNumberShape ≠ o.shape ∧ stringShape ≠ o.shape := by
  have type := (ob.object ho).type
  constructor
  · intro e
    have hn : (h.shape heapNumberShape).instanceType = .heapNumber :=
      (ob.root_shape (s := heapNumberShape) (by decide)).2.2.1
    rw [e, ← shapeOf, type] at hn
    cases hc : o.objectClass <;> simp [hc, ObjectClass.instanceType] at hn
  · intro e
    have hn : (h.shape stringShape).instanceType = .string :=
      (ob.root_shape (s := stringShape) (by decide)).2.2.1
    rw [e, ← shapeOf, type] at hn
    cases hc : o.objectClass <;> simp [hc, ObjectClass.instanceType] at hn

/-- A value whose shape is the shape of an object with properties is one. -/
theorem exists_object_of_receiverShape? (ob₀ : h₀.Obeys rules) {id : ObjectId} {o : JsObject}
    (ho : h₀.object? id = some o) {v : Value} (hv : h.receiverShape? v = some o.shape) :
    ∃ id' o', v = .object id' ∧ Twin h₀ h id id' o o' := by
  obtain ⟨number, string⟩ := ob₀.shape_ne_primitive ho
  cases v with
  | smi i => exact absurd (Option.some.inj hv) number
  | object id' =>
    cases hc : h.cell? id' with
    | none => simp [receiverShape?, mapOf?, get?, Value.objectId?, hc] at hv
    | some c =>
      cases c with
      | number d =>
        simp [receiverShape?, mapOf?, get?, Value.objectId?, hc] at hv
        exact absurd hv number
      | string t i =>
        simp [receiverShape?, mapOf?, get?, Value.objectId?, hc] at hv
        exact absurd hv string
      | object o' =>
        simp [receiverShape?, mapOf?, get?, Value.objectId?, hc] at hv
        exact ⟨id', o', rfl, ho, object?_eq_some.2 hc, hv⟩
  | _ => simp [receiverShape?, mapOf?, get?, Value.objectId?] at hv

theorem holderId?_receiver {id : ObjectId} {o : JsObject} (ho : h.object? id = some o) :
    h.holderId? (.object id) .receiver = some id := by
  simp [holderId?, Value.objectId?, isJsObject, asObject?, ho, Option.filter]

/-- The object that the lookup of a stub ended at, seen from another receiver. -/
theorem holderId?_relativeTo {id' : ObjectId} {o' : JsObject} (ho : h.object? id' = some o') (id j : ObjectId) :
    h.holderId? (.object id') (.relativeTo (.object id) j) = some (if j = id then id' else j) := by
  unfold Holder.relativeTo
  by_cases e : j = id
  · simp [e, holderId?_receiver ho]
  · have : id ≠ j := fun h => e h.symm
    simp [e, this, holderId?]

/-- A stub for a name is run for this name only. -/
theorem guardsHold_name {spec : StubSpec} {receiver : Value} {key : Option Name} {n : Name}
    (hold : h.guardsHold spec receiver key) (hn : spec.name = some n) : key = some n := by
  simp only [guardsHold, Bool.and_eq_true, Bool.or_eq_true, beq_iff_eq] at hold
  rcases hold.1.1.1 with e | e
  · simp [hn] at e
  · exact e.trans hn

/-- A stub for a shape is run for receivers of this shape only. -/
theorem guardsHold_shape {spec : StubSpec} {receiver : Value} {key : Option Name} {s : ShapeId}
    (hold : h.guardsHold spec receiver key) (hs : spec.receiverShapes = [s]) :
    h.receiverShape? receiver = some s := by
  simp only [guardsHold, hs, List.isEmpty_cons, Bool.false_or, Bool.and_eq_true] at hold
  have shape := hold.1.1.2
  split at shape
  · rename_i t ht
    rw [ht]
    simpa using shape
  · cases shape

/-- Everything above a value has properties, so that guards can reach it. -/
def ObjectsAbove (h : Heap) (v : Value) : Prop :=
  ∀ j ∈ h.chain (h.prototypeOf v), (h.object? j).isSome

/-- The receiver passes the guards of a stub for a property of that name, which look at its shape. -/
structure Passes (h : Heap) (spec : StubSpec) (receiver : Value) (name : Name) : Prop where
  named : spec.name = some name
  shaped : spec.receiverShapes ≠ []
  hold : h.guardsHold spec receiver (some name)

/-- Whatever passes the guards of a specialized stub passes those of the access that it was made for. -/
theorem passes_of_guardsHold {kind : SiteKind} {mode : SiteMode} {handler : Handler}
    {receiver₀ receiver : Value} {holder : Option ObjectId} {spec : StubSpec}
    (hs : h₀.monomorphicSpec? kind mode handler receiver₀ holder name = some spec)
    (hold : h.guardsHold spec receiver (some name)) : h.Passes spec receiver name ∧
      spec.absentChecks = (h₀.chainGuards receiver₀ holder).absentChecks := by
  obtain ⟨shape, -, rfl⟩ := Option.map_eq_some_iff.1 hs
  exact ⟨⟨rfl, by simp, hold⟩, rfl⟩

/-- What the guards of a stub made for an object with properties say where they hold. -/
theorem guardsHold_spec (ob₀ : h₀.Obeys rules) {kind : SiteKind} {mode : SiteMode}
    {handler : Handler} {id : ObjectId} {o : JsObject} {holder : Option ObjectId} {spec : StubSpec}
    (ho : h₀.object? id = some o)
    (hs : h₀.monomorphicSpec? kind mode handler (.object id) holder name = some spec)
    {receiver : Value} {key : Option Name} (hold : h.guardsHold spec receiver key) :
    key = some name ∧ ∃ id' o', receiver = .object id' ∧ Twin h₀ h id id' o o' ∧
      (some id ≠ holder →
        Checks h name (h₀.guardsAlong holder (h₀.chain (h₀.prototypeOf (.object id)))) ∧
        ((h₀.shapeOf o).isDictionary → o'.dictionary.get? name = none)) := by
  have has : h₀.asObject? (.object id) = some o := ho
  have hshape : h₀.receiverShape? (.object id) = some o.shape := mapOf?_object ho
  simp only [monomorphicSpec?, hshape, Option.map_some, Option.some.injEq] at hs
  subst hs
  have hname := guardsHold_name hold rfl
  obtain ⟨id', o', rfl, t⟩ :=
    exists_object_of_receiverShape? ob₀ ho (guardsHold_shape hold rfl)
  simp only [guardsHold, Option.isNone_some, Bool.false_or, List.isEmpty_cons, Bool.and_eq_true,
    beq_iff_eq] at hold
  obtain ⟨⟨-, hpinned⟩, habsent⟩ := hold
  refine ⟨hname, id', o', rfl, t, fun hne => ?_⟩
  have hj := isJsObject_object t.after
  have hne' : (Value.object id).objectId? ≠ holder := hne
  -- With the holder above the receiver, the guards begin with the receiver's own, if it is a
  -- dictionary.
  simp only [chainGuards, has, hne', if_false] at hpinned habsent
  rw [List.all_eq_true] at hpinned habsent
  cases hd : (h₀.shapeOf o).isDictionary with
  | true =>
    simp only [hd, if_true] at hpinned habsent
    refine ⟨⟨hpinned, fun j hj' => ?_⟩, fun _ => ?_⟩
    · simpa [holderId?, ownsInDictionary] using habsent _ (List.mem_cons_of_mem _ hj')
    · simpa [holderId?, Value.objectId?, hj, Option.filter, ownsInDictionary, dictionarySlot?,
        t.after] using habsent .receiver (List.mem_cons_self ..)
  | false =>
    simp only [hd] at hpinned habsent
    refine ⟨⟨hpinned, fun j hj' => ?_⟩, by simp⟩
    simpa [holderId?, ownsInDictionary] using habsent _ hj'

/-- The shapes that stand for values without properties of their own. -/
theorem primitive_of_receiverShape? {v : Value} {s : ShapeId} (hv : h.isJsObject v = false)
    (hs : h.receiverShape? v = some s) :
    s = heapNumberShape ∧ h.prototypeOf v = .object objectPrototype ∨
      s = stringShape ∧ h.prototypeOf v = .object stringPrototype := by
  cases v with
  | smi i => exact .inl ⟨(Option.some.inj hs).symm, rfl⟩
  | object id =>
    cases hc : h.cell? id with
    | none => simp [receiverShape?, mapOf?, get?, Value.objectId?, hc] at hs
    | some c =>
      simp only [receiverShape?, mapOf?, get?, Value.objectId?, Option.bind_some, hc] at hs
      cases c with
      | number d => exact .inl ⟨(Option.some.inj hs).symm, by simp [prototypeOf, hc]⟩
      | string t i => exact .inr ⟨(Option.some.inj hs).symm, by simp [prototypeOf, hc]⟩
      | object o => simp [isJsObject, asObject?, Value.objectId?, object?, hc] at hv
  | _ => simp [receiverShape?, mapOf?, get?, Value.objectId?] at hs

/-- What the guards of a stub made for a number or a string say where they hold. -/
theorem guardsHold_primitive (ob : h.Obeys rules) {kind : SiteKind} {mode : SiteMode}
    {handler : Handler} {receiver₀ : Value} {holder : Option ObjectId} {spec : StubSpec}
    (primitive : h₀.isJsObject receiver₀ = false)
    (hs : h₀.monomorphicSpec? kind mode handler receiver₀ holder name = some spec)
    {receiver : Value} {key : Option Name} (hold : h.guardsHold spec receiver key) :
    key = some name ∧ h.isJsObject receiver = false ∧
      h.prototypeOf receiver = h₀.prototypeOf receiver₀ ∧
      Checks h name (h₀.guardsAlong holder (h₀.chain (h₀.prototypeOf receiver₀))) := by
  obtain ⟨s, hshape, rfl⟩ := Option.map_eq_some_iff.1 hs
  have hname := guardsHold_name hold rfl
  have hrecv := guardsHold_shape hold rfl
  have kind₀ := primitive_of_receiverShape? primitive hshape
  have primitive' : h.isJsObject receiver = false := by
    by_contra js
    obtain ⟨o, ho⟩ := Option.isSome_iff_exists.1 (Bool.of_not_eq_false js)
    obtain ⟨id, rfl, ho⟩ := object_of_asObject? ho
    have e : s = o.shape := Option.some.inj (hrecv.symm.trans (mapOf?_object ho))
    obtain ⟨number, string⟩ := ob.shape_ne_primitive ho
    rcases kind₀ with ⟨rfl, -⟩ | ⟨rfl, -⟩
    · exact number e
    · exact string e
  refine ⟨hname, primitive', ?_, ?_⟩
  · rcases kind₀ with ⟨rfl, e⟩ | ⟨rfl, e⟩ <;>
      rcases primitive_of_receiverShape? primitive' hrecv with ⟨e', e''⟩ | ⟨e', e''⟩ <;>
        first | exact e''.trans e.symm | cases e'
  · have none : h₀.asObject? receiver₀ = none := by simpa [isJsObject] using primitive
    simp only [guardsHold, Option.isNone_some, Bool.false_or, List.isEmpty_cons, Bool.and_eq_true,
      chainGuards, none, List.all_eq_true] at hold
    exact ⟨hold.1.2, fun j hj => by simpa [holderId?, ownsInDictionary] using hold.2 _ hj⟩

end Heap

end Speculation
