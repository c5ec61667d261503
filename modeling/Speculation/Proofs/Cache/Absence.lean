import Speculation.Proofs.Cache.Session

/-!
# Guards for absent properties

A stub for a property that no object of the chain has pins the shapes of the fast objects and asks
the dictionaries of the others. Shapes of objects in dictionary mode are not pinned, and describe
accessors and interceptors all the same. `absence_guards` says what this leaves: an object that
passes the guards has no data property of the name, and the property is still absent exactly if no
object in dictionary mode has gained an accessor of that name or, for loads, an interceptor.
-/

namespace Speculation

namespace Heap

variable {rules : Rules} {h₀ h : Heap} {name : Name} {id id' : ObjectId} {o o' : JsObject}

/-- Whether an object in dictionary mode has an accessor, which no guard sees. -/
def hidesAccessor (h : Heap) (id : ObjectId) (name : Name) : Bool :=
  match h.object? (h.resolveProxy id) with
  | some o => (h.shapeOf o).isDictionary && ((h.shapeOf o).descriptor? name).isSome
  | none => false

/-- Whether an object in dictionary mode has an interceptor, which no guard sees. -/
def hidesInterceptor (h : Heap) (id : ObjectId) : Bool :=
  match h.object? (h.resolveProxy id) with
  | some o => (h.shapeOf o).isDictionary && (h.shapeOf o).hasInterceptor
  | none => false

/-- Receivers above which guards overlook no accessor of a name: prototypes are objects, and none in
dictionary mode that the guards ask about the name has an accessor of it. -/
structure SeesAccessors (h : Heap) (asked : List Holder) (receiver : Value) (name : Name) : Prop where
  objects : h.ObjectsAbove receiver
  accessors : ∀ j ∈ h.chain (h.prototypeOf receiver), Holder.object j ∈ asked →
    h.hidesAccessor j name = false

/-- Receivers above which the guards of a load overlook nothing, that is no interceptor, either. -/
structure Unhidden (h : Heap) (asked : List Holder) (receiver : Value) (name : Name) : Prop
    extends SeesAccessors h asked receiver name where
  interceptors : ∀ j ∈ h.chain (h.prototypeOf receiver), Holder.object j ∈ asked →
    h.hidesInterceptor j = false

/-- What the guards leave open about an object of the chain that did not have the name. -/
structure Overlooks (h : Heap) (id : ObjectId) (name : Name) : Prop where
  absent : h.ownReal id name = .notFound ↔ h.hidesAccessor id name = false
  accessor : ∀ {holder kind a}, h.ownReal id name = .property holder kind a → kind.isAccessor

/-- The same for a lookup that asks interceptors. -/
def OverlooksLoad (h : Heap) (id : ObjectId) (name : Name) : Prop :=
  h.own id name = .notFound ↔ h.hidesAccessor id name = false ∧ h.hidesInterceptor id = false

/-! ### One object -/

/-- Only an object in dictionary mode hides an accessor. -/
theorem hidesAccessor_eq (hr : h.resolveProxy id = id) (ho : h.object? id = some o) :
    h.hidesAccessor id name =
      ((h.shapeOf o).isDictionary && ((h.shapeOf o).descriptor? name).isSome) := by
  simp [hidesAccessor, hr, ho]

/-- Only an object in dictionary mode hides an interceptor. -/
theorem hidesInterceptor_eq (hr : h.resolveProxy id = id) (ho : h.object? id = some o) :
    h.hidesInterceptor id = ((h.shapeOf o).isDictionary && (h.shapeOf o).hasInterceptor) := by
  simp [hidesInterceptor, hr, ho]

/-- Nothing is hidden where all objects are fast. -/
theorem Obeys.unhidden_of_fast (ob : h.Obeys rules) {v : Value}
    (fast : ∀ j ∈ h.chain v, h.isFast j) (name : Name) {j : ObjectId} (hj : j ∈ h.chain v) :
    (h.object? j).isSome ∧ h.hidesAccessor j name = false := by
  obtain ⟨x, hx, hd⟩ := isFast_eq_true.1 (fast j hj)
  refine ⟨by simp [hx], ?_⟩
  rw [hidesAccessor_eq (ob.resolveProxy_of_fast fast hj) hx, hd, Bool.false_and]

/-- Nothing is hidden above a receiver whose prototypes are all fast. -/
theorem Obeys.unhidden_of_fastAbove (ob : h.Obeys rules) {receiver : Value}
    (fast : ∀ j ∈ h.chain (h.prototypeOf receiver), h.isFast j) (asked : List Holder) (name : Name) :
    h.Unhidden asked receiver name where
  objects j hj := (ob.unhidden_of_fast fast name hj).1
  accessors j hj _ := (ob.unhidden_of_fast fast name hj).2
  interceptors j hj _ := by
    obtain ⟨x, hx, hd⟩ := isFast_eq_true.1 (fast j hj)
    rw [hidesInterceptor_eq (ob.resolveProxy_of_fast fast hj) hx, hd, Bool.false_and]

/-- A shape without the name describes no property that an empty dictionary could. -/
theorem overlooks_of_descriptor?_none (hr : h.resolveProxy id = id) (ho : h.object? id = some o)
    (hn : (h.shapeOf o).owned? o.dictionary name = none) : Overlooks h id name := by
  have hd := Shape.descriptor?_of_owned?_none hn
  constructor
  · rw [ownReal_eq hr ho, hidesAccessor_eq hr ho, hn, hd]
    simp [Lookup.ofOwned]
  · intro holder kind a e
    rw [ownReal_eq hr ho, hn] at e
    cases e

/-- An object in dictionary mode has no data properties but those of its dictionary. -/
theorem Obeys.overlooks_of_entry_none (ob : h.Obeys rules) (hr : h.resolveProxy id = id)
    (ho : h.object? id = some o) (hd : (h.shapeOf o).isDictionary)
    (hn : h.dictionarySlot? id name = none) : Overlooks h id name := by
  have entry : o.dictionary.get? name = none := by simpa [dictionarySlot?, ho] using hn
  have owned := Shape.owned?_absent (t := h.shapeOf o) entry
  constructor
  · rw [ownReal_eq hr ho, hidesAccessor_eq hr ho, owned, hd]
    cases (h.shapeOf o).descriptor? name <;> simp [Lookup.ofOwned]
  · intro holder kind a e
    rw [ownReal_eq hr ho, Lookup.ofOwned_eq_property, owned] at e
    obtain ⟨-, e⟩ := e
    obtain ⟨d, hd', e⟩ := Option.map_eq_some_iff.1 e
    cases e
    exact (ob.shape (ob.object ho).shape_lt).accessors hd d (Shape.mem_of_descriptor? hd').1

/-- An object has nothing of a name if it has no property of it and no interceptor. -/
theorem own_eq_notFound (hr : h.resolveProxy id = id) (ho : h.object? id = some o) :
    h.own id name = .notFound ↔
      h.ownReal id name = .notFound ∧ (h.shapeOf o).hasInterceptor = false := by
  rw [own_eq hr ho, ownReal_eq hr ho]
  cases (h.shapeOf o).hasInterceptor <;> simp

section Checked

variable (ob₀ : h₀.Obeys rules) (ob : h.Obeys rules) (g : h₀.Grows h)
  (ho : h₀.object? id = some o) (hr : h₀.resolveProxy id = id)
  (pinned : h₀.isFast id → Pinned h₀ h id)
  (entry : h₀.isFast id = false → h.dictionarySlot? id name = none)

include ob₀ ob g ho hr pinned entry

/-- An object that lacked the name and passes the guards. -/
theorem overlooks_of_checked (absent : h₀.ownReal id name = .notFound) :
    Overlooks h id name := by
  obtain ⟨o', ho', -, p⟩ := g.object ho
  have hr' : h.resolveProxy id = id := (g.resolveProxy ho).trans hr
  cases fast : h₀.isFast id with
  | true =>
    have same := ((pinned fast).own_eq ob₀ g fast hr).2.trans absent
    rw [ownReal_eq hr' ho'] at same
    exact overlooks_of_descriptor?_none hr' ho' (Lookup.ofOwned_eq_notFound.1 same)
  | false =>
    have hd : (h₀.shapeOf o).isDictionary := by simpa [isFast, ho] using fast
    exact ob.overlooks_of_entry_none hr' ho' (p.dictionary hd) (entry fast)

/-- The check for absence sees all that a load would find, up to what is hidden. -/
theorem overlooksLoad_of_checked (absent : h₀.own id name = .notFound) :
    OverlooksLoad h id name := by
  obtain ⟨o', ho', -, p⟩ := g.object ho
  have hr' : h.resolveProxy id = id := (g.resolveProxy ho).trans hr
  obtain ⟨real, interceptor⟩ := (own_eq_notFound hr ho).1 absent
  have ov := overlooks_of_checked ob₀ ob g ho hr pinned entry real
  unfold OverlooksLoad
  rw [own_eq_notFound hr' ho', ov.absent, hidesInterceptor_eq hr' ho']
  cases fast : h₀.isFast id with
  | true =>
    obtain ⟨x, x', t⟩ := pinned fast
    obtain rfl := Option.some.inj (ho.symm.trans t.before)
    obtain rfl := Option.some.inj (ho'.symm.trans t.after)
    have hi : (h.shapeOf o').hasInterceptor = false := by
      simpa [interceptor] using congrArg Shape.hasInterceptor (t.layout ob₀ g)
    simp [hi]
  | false =>
    have hd : (h₀.shapeOf o).isDictionary := by simpa [isFast, ho] using fast
    simp [p.dictionary hd]

end Checked

theorem Obeys.hidesAccessor_resolveProxy (ob : h.Obeys rules) :
    h.hidesAccessor (h.resolveProxy id) name = h.hidesAccessor id name := by
  simp only [hidesAccessor, ob.resolveProxy_resolveProxy id]

theorem Obeys.hidesInterceptor_resolveProxy (ob : h.Obeys rules) :
    h.hidesInterceptor (h.resolveProxy id) = h.hidesInterceptor id := by
  simp only [hidesInterceptor, ob.resolveProxy_resolveProxy id]

/-- What guards say about an object is what they say about the object it stands for. -/
theorem Obeys.overlooks_resolveProxy (ob : h.Obeys rules)
    (ov : Overlooks h (h.resolveProxy id) name) : Overlooks h id name := by
  have real : h.ownReal (h.resolveProxy id) name = h.ownReal id name := by
    simp only [ownReal, ob.resolveProxy_resolveProxy id]
  exact ⟨by rw [← real, ← ob.hidesAccessor_resolveProxy]; exact ov.absent, fun e => ov.accessor (real.trans e)⟩

theorem Obeys.overlooksLoad_resolveProxy (ob : h.Obeys rules)
    (ov : OverlooksLoad h (h.resolveProxy id) name) : OverlooksLoad h id name := by
  have hr := ob.resolveProxy_resolveProxy id
  unfold OverlooksLoad at *
  simpa only [own, hidesAccessor, hidesInterceptor, hr] using ov

/-! ### The chain -/

/-- What stands next after an object of a chain, in a first part of the chain. -/
theorem Obeys.mem_before_of_prototypeOf (ob : h.Obeys rules) {v : Value} {before rest : List ObjectId}
    {j p : ObjectId} (split : h.chain v = before ++ rest) (hj : j ∈ before)
    (e : h.prototypeOf (.object j) = .object p) : p ∈ before ∨ rest.head? = some p := by
  induction before generalizing v with
  | nil => cases hj
  | cons i before ih =>
    obtain rfl : v = .object i := by
      cases v with
      | object k =>
        rw [ob.chain_object, List.cons_append, List.cons.injEq] at split
        rw [split.1]
      | _ => rw [chain_of_ne_object (by simp)] at split; cases split
    rw [ob.chain_object, List.cons_append, List.cons.injEq] at split
    rcases List.mem_cons.1 hj with rfl | hj
    · have next := split.2
      rw [e, ob.chain_object] at next
      cases before with
      | nil => exact .inr (by rw [← List.nil_append rest, ← next]; rfl)
      | cons k before =>
        obtain ⟨rfl, -⟩ := List.cons.inj next
        exact .inl (by simp)
    · exact (ih split.2 hj).imp_left (List.mem_cons_of_mem _)

section Chain

variable {holder : Option ObjectId} (gd : Guarded rules h₀ h name holder id id' o o')
  (objects : ∀ j ∈ h.chain (h.prototypeOf (.object id')), (h.object? j).isSome)

include gd objects

/-- What stood above the receiver when the stub was made are objects. -/
theorem Guarded.object_above {j : ObjectId} (hj : j ∈ h₀.chain (h₀.prototypeOf (.object id))) :
    ∃ x, h₀.object? j = some x := by
  have hlt := gd.obeys₀.index_lt_of_mem_chain hj
  have hid := index_lt_of_object? gd.before
  have chain := gd.toTwin.chain_eq gd.obeys₀ gd.obeys gd.grows
  exact gd.grows.object_back (by omega) (objects j (by rwa [chain]))

omit objects in
/-- The objects before the holder are still on the chain. -/
theorem Guarded.mem_above {before rest : List ObjectId}
    (split : h₀.chain (h₀.prototypeOf (.object id)) = before ++ rest) {j : ObjectId}
    (hj : j ∈ before) : j ∈ h.chain (h.prototypeOf (.object id')) := by
  rw [gd.toTwin.chain_eq gd.obeys₀ gd.obeys gd.grows, split]
  exact List.mem_append_left _ hj

omit objects in
/-- What no fast object hides, and none that is asked, no object hides that was checked. -/
theorem Guarded.hides_checked {asked : List Holder} {hides : ObjectId → Bool} {j : ObjectId}
    {x : JsObject} (hj : j ∈ h.chain (h.prototypeOf (.object id'))) (hx : h₀.object? j = some x)
    (hr : h₀.resolveProxy j = j) (pinned : h₀.isFast j → Pinned h₀ h j)
    (isAsked : h₀.isFast j = false → Holder.object j ∈ asked)
    (seen : ∀ j ∈ h.chain (h.prototypeOf (.object id')), Holder.object j ∈ asked → hides j = false)
    (fast : ∀ {x}, h.resolveProxy j = j → h.object? j = some x →
      (h.shapeOf x).isDictionary = false → hides j = false) : hides j = false := by
  cases e : h₀.isFast j with
  | false => exact seen j hj (isAsked e)
  | true =>
    obtain ⟨y, y', t⟩ := pinned e
    obtain ⟨z, hz, hd⟩ := isFast_eq_true.1 e
    obtain rfl := Option.some.inj (hz.symm.trans t.before)
    refine fast ((gd.grows.resolveProxy hx).trans hr) t.after ?_
    rwa [t.isDictionary_eq gd.obeys₀ gd.grows]

/-- Every object before the holder was checked; a global proxy is checked with the global object
behind it, which is the next one. -/
theorem Guarded.before_induction (hne : some id ≠ holder) {before rest : List ObjectId}
    (split : h₀.chain (h₀.prototypeOf (.object id)) = before ++ rest)
    (passed : ∀ j ∈ before, some j ≠ holder)
    (global : ∀ j ∈ before, h₀.resolveProxy j ≠ j → rest.head? ≠ some Heap.globalObject)
    {P : ObjectId → Prop}
    (checked : ∀ {j x}, j ∈ before → h₀.object? j = some x →
      h₀.resolveProxy j = j → (h₀.isFast j → Pinned h₀ h j) →
      (h₀.isFast j = false → h.dictionarySlot? j name = none ∧
        Holder.object j ∈ (h₀.chainGuards (.object id) holder).absentChecks) → P j)
    (proxy : ∀ {j}, P (h.resolveProxy j) → P j) : ∀ j ∈ before, P j := by
  have ob₀ := gd.obeys₀
  have object₀ : ∀ j ∈ before, ∃ x, h₀.object? j = some x := fun j hj =>
    gd.object_above objects (by rw [split]; exact List.mem_append_left _ hj)
  have known : ∀ j ∈ before, (h₀.object? j).isSome ∧ some j ≠ holder := fun j hj =>
    ⟨Option.isSome_iff_exists.2 (object₀ j hj), passed j hj⟩
  have checks := gd.above hne
  rw [split] at checks
  obtain ⟨-, each⟩ := checks.before known
  -- The guards speak of each object's own shape or dictionary, so an object that is no proxy is
  -- checked directly.
  have direct : ∀ j ∈ before, h₀.resolveProxy j = j → P j := by
    intro j hj hr
    obtain ⟨x, hx⟩ := object₀ j hj
    refine checked hj hx hr (each j hj).1 fun slow => ⟨(each j hj).2 slow, ?_⟩
    refine absentChecks_subset gd.before hne ?_
    rw [split]
    exact mem_absentChecks known hj slow
  intro j hj
  obtain ⟨x, hx⟩ := object₀ j hj
  -- A proxy is next to the global object in the chain, and what holds of that one holds of the
  -- proxy.
  by_cases hp : ∀ p, x.objectClass ≠ .globalProxy p
  · exact direct j hj (resolveProxy_eq_self hx hp)
  · obtain ⟨p, hp⟩ : ∃ p, x.objectClass = .globalProxy p := by simpa using hp
    obtain ⟨rfl, hproto⟩ := (ob₀.object hx).proxy hp
    have next : h₀.prototypeOf (.object j) = .object Heap.globalObject := by
      simp [prototypeOf, object?_eq_some.1 hx, hproto]
    have hr : h₀.resolveProxy j = Heap.globalObject := by simp [resolveProxy, hx, hp]
    have below : Heap.globalObject ≠ j := by
      rintro rfl
      have := (ob₀.object hx).prototype_lt hproto
      omega
    have hg : Heap.globalObject ∈ before :=
      (ob₀.mem_before_of_prototypeOf split hj next).resolve_right
        (global j hj (by rw [hr]; exact below))
    have hr' : h₀.resolveProxy Heap.globalObject = Heap.globalObject := by
      rw [← hr]
      exact ob₀.resolveProxy_resolveProxy j
    refine proxy ?_
    rw [gd.grows.resolveProxy hx, hr]
    exact direct _ hg hr'

omit objects in
/-- Guards that overlook no accessor overlook none before the holder: a fast object that is pinned is
still fast, and one in dictionary mode is asked. -/
theorem Guarded.hidesAccessor_before
    (sees : h.SeesAccessors (h₀.chainGuards (.object id) holder).absentChecks (.object id') name)
    (hne : some id ≠ holder) {before rest : List ObjectId}
    (split : h₀.chain (h₀.prototypeOf (.object id)) = before ++ rest)
    (passed : ∀ j ∈ before, some j ≠ holder)
    (global : ∀ j ∈ before, h₀.resolveProxy j ≠ j → rest.head? ≠ some Heap.globalObject) :
    ∀ j ∈ before, h.hidesAccessor j name = false := by
  refine gd.before_induction sees.objects hne split passed global (fun hj hx hr pinned asked => ?_)
    fun {j} e => by rwa [gd.obeys.hidesAccessor_resolveProxy] at e
  exact gd.hides_checked (gd.mem_above split hj) hx hr pinned (fun slow => (asked slow).2)
    sees.accessors fun hr hx hd => by rw [hidesAccessor_eq hr hx, hd, Bool.false_and]

omit objects in
/-- What a chain without hidden accessors has before the holder is still absent. -/
theorem Guarded.absent_before (hne : some id ≠ holder) {before rest : List ObjectId}
    (split : h₀.chain (h₀.prototypeOf (.object id)) = before ++ rest)
    (passed : ∀ j ∈ before, some j ≠ holder) (global : rest.head? ≠ some Heap.globalObject)
    (sees : h.SeesAccessors (h₀.chainGuards (.object id) holder).absentChecks (.object id') name)
    (nothing : ∀ j ∈ before, h₀.ownReal j name = .notFound) :
    ∀ j ∈ before, h.ownReal j name = .notFound := by
  have passes : ∀ j ∈ before, Overlooks h j name :=
    gd.before_induction sees.objects hne split passed (fun _ _ _ => global)
      (fun hj hx hr pinned asked => overlooks_of_checked gd.obeys₀ gd.obeys gd.grows hx hr pinned
        (fun slow => (asked slow).1) (nothing _ hj))
      gd.obeys.overlooks_resolveProxy
  exact fun j hj => (passes j hj).absent.2
    (gd.hidesAccessor_before sees hne split passed (fun _ _ _ => global) j hj)

omit objects in
/-- The same for a lookup that asks interceptors. -/
theorem Guarded.own_absent_before
    (un : h.Unhidden (h₀.chainGuards (.object id) holder).absentChecks (.object id') name)
    (hne : some id ≠ holder) {before rest : List ObjectId}
    (split : h₀.chain (h₀.prototypeOf (.object id)) = before ++ rest)
    (passed : ∀ j ∈ before, some j ≠ holder)
    (global : ∀ j ∈ before, h₀.resolveProxy j ≠ j → rest.head? ≠ some Heap.globalObject)
    (nothing : ∀ j ∈ before, h₀.own j name = .notFound) :
    ∀ j ∈ before, h.own j name = .notFound := by
  have passes : ∀ j ∈ before, OverlooksLoad h j name :=
    gd.before_induction un.objects hne split passed global (fun hj hx hr pinned asked =>
      overlooksLoad_of_checked gd.obeys₀ gd.obeys gd.grows hx hr pinned (fun slow => (asked slow).1)
        (nothing _ hj))
      gd.obeys.overlooksLoad_resolveProxy
  have interceptors : ∀ j ∈ before, h.hidesInterceptor j = false := by
    refine gd.before_induction un.objects hne split passed global
      (fun hj hx hr pinned asked => ?_) fun {j} e => by
        rwa [gd.obeys.hidesInterceptor_resolveProxy] at e
    exact gd.hides_checked (gd.mem_above split hj) hx hr pinned (fun slow => (asked slow).2)
      un.interceptors fun hr hx hd => by rw [hidesInterceptor_eq hr hx, hd, Bool.false_and]
  exact fun j hj => (passes j hj).2
    ⟨gd.hidesAccessor_before un.toSeesAccessors hne split passed global j hj, interceptors j hj⟩

omit objects in
/-- Where the guards of a stub hold and no object in dictionary mode has an accessor of the name, a
lookup in the prototypes gives what it gave, provided that it ended at a fast object or nowhere. -/
theorem Guarded.lookupInPrototypes_eq (hne : some id ≠ holder)
    (sees : h.SeesAccessors (h₀.chainGuards (.object id) holder).absentChecks (.object id') name)
    (ends : (h₀.lookupInPrototypes id name).holder? = holder)
    (fast : ∀ j, holder = some j → h₀.isFast j) :
    h.lookupInPrototypes id' name = h₀.lookupInPrototypes id name := by
  have chain := gd.toTwin.chain_eq gd.obeys₀ gd.obeys gd.grows
  by_cases hn : h₀.lookupInPrototypes id name = .notFound
  · rw [hn] at ends ⊢
    rw [lookupInPrototypes, firstFound_eq_notFound, chain]
    exact gd.absent_before hne (List.append_nil _).symm
      (fun j _ => by simp [← ends, Lookup.holder?]) (by simp) sees (firstFound_eq_notFound.1 hn)
  · obtain ⟨before, k, after, split, hb, hk⟩ := firstFound_split
      (show firstFound (h₀.ownReal · name) _ = _ from rfl) hn
    have found : h₀.ownReal k name ≠ .notFound := by rw [hk]; exact hn
    -- The global object is not fast, so that the holder is no proxy.
    obtain ⟨x, hx⟩ := gd.object_above sees.objects (j := k) (by rw [split]; simp)
    have holds : (h₀.ownReal k name).holder? = some (h₀.resolveProxy k) := by
      rcases h₀.ownReal_cases k name with e | ⟨kind, a, e⟩
      · exact absurd e found
      · rw [e]
        rfl
    have hh : holder = some (h₀.resolveProxy k) := by
      rw [← ends, ← holds, hk]
      rfl
    obtain ⟨y, hy, hd⟩ := isFast_eq_true.1 (fast _ hh)
    have slow : h₀.resolveProxy k ≠ Heap.globalObject := by
      intro e
      obtain ⟨z, hz, -, hd'⟩ := gd.obeys₀.globalObject
      rw [e] at hy
      obtain rfl := Option.some.inj (hy.symm.trans hz)
      simp [hd] at hd'
    have hr : h₀.resolveProxy k = k := by
      refine resolveProxy_eq_self hx fun p hp => slow ?_
      obtain ⟨rfl, -⟩ := (gd.obeys₀.object hx).proxy hp
      simp [resolveProxy, hx, hp]
    rw [hr] at hh slow
    have passed : ∀ j ∈ before, some j ≠ holder := fun j hj e => by
      rw [hh, Option.some.injEq] at e
      exact found (e ▸ hb j hj)
    have nothing := gd.absent_before hne split passed (fun e => slow (Option.some.inj e)) sees hb
    have checks := gd.above hne
    rw [split] at checks
    obtain ⟨c, -⟩ := checks.before fun j hj =>
      ⟨Option.isSome_iff_exists.2 (gd.object_above sees.objects (by rw [split]; simp [hj])), passed j hj⟩
    rw [hh] at c
    have same : h.ownReal k name = h₀.ownReal k name :=
      ((c.at_holder hx).own_eq gd.obeys₀ gd.grows (fast k hh) hr).2
    rw [lookupInPrototypes, chain, split,
      firstFound_of_split nothing (by rw [same]; exact found), same, hk]
    rfl

end Chain

section Absent

variable (gd : Guarded rules h₀ h name none id id' o o')
  (objects : ∀ j ∈ h.chain (h.prototypeOf (.object id')), (h.object? j).isSome)

include gd objects

/-- Every object above a receiver that lacked the name was checked. -/
theorem Guarded.above_induction {P : ObjectId → Prop}
    (checked : ∀ {j x}, j ∈ h₀.chain (h₀.prototypeOf (.object id)) → h₀.object? j = some x →
      h₀.resolveProxy j = j → (h₀.isFast j → Pinned h₀ h j) →
      (h₀.isFast j = false → h.dictionarySlot? j name = none ∧
        Holder.object j ∈ (h₀.chainGuards (.object id) none).absentChecks) → P j)
    (proxy : ∀ {j}, P (h.resolveProxy j) → P j) :
    ∀ j ∈ h.chain (h.prototypeOf (.object id')), P j := by
  rw [gd.toTwin.chain_eq gd.obeys₀ gd.obeys gd.grows]
  exact gd.before_induction objects (by simp) (List.append_nil _).symm (by simp) (by simp) checked
    proxy

/-- Where no object had the property, the guards see that none has it now, up to what is hidden. -/
theorem Guarded.overlooks_above
    (nowhere : ∀ j ∈ h₀.chain (h₀.prototypeOf (.object id)), h₀.ownReal j name = .notFound) :
    ∀ j ∈ h.chain (h.prototypeOf (.object id')), Overlooks h j name := by
  refine gd.above_induction objects (fun hj hx hr pinned asked => ?_)
    gd.obeys.overlooks_resolveProxy
  exact overlooks_of_checked gd.obeys₀ gd.obeys gd.grows hx hr pinned (fun slow => (asked slow).1)
    (nowhere _ hj)

/-- The same for loads, which also ask interceptors. -/
theorem Guarded.overlooksLoad_above
    (nowhere : ∀ j ∈ h₀.chain (h₀.prototypeOf (.object id)), h₀.own j name = .notFound) :
    ∀ j ∈ h.chain (h.prototypeOf (.object id')), OverlooksLoad h j name := by
  refine gd.above_induction objects (fun hj hx hr pinned asked => ?_)
    gd.obeys.overlooksLoad_resolveProxy
  exact overlooksLoad_of_checked gd.obeys₀ gd.obeys gd.grows hx hr pinned
    (fun slow => (asked slow).1) (nowhere _ hj)

end Absent

/-! ### Stubs -/

/-- A stub for an absent property was made after a lookup that found nothing. -/
theorem LoadOrigin.nonexistent {spec : StubSpec} {holder : Option ObjectId}
    (l : h.LoadOrigin spec id o name holder) (hh : spec.handler = .loadNonexistent) :
    h.lookup (.object id) name = .notFound ∧ holder = none := by
  have handler := l.handler
  rw [hh] at handler
  cases found : h.lookup (.object id) name with
  | notFound =>
    rw [found] at handler
    exact ⟨rfl, (Prod.mk.inj (Option.some.inj handler)).2.symm⟩
  | property j kind a =>
    rw [found] at handler
    obtain ⟨f, hf, e⟩ := Option.map_eq_some_iff.1 handler
    cases e
    unfold propertyLoadHandler? at hf
    split at hf
    · cases hf
    · cases hf
    · split at hf
      · cases hf
      · split at hf <;> cases hf
    · split at hf <;> cases hf
  | interceptor j =>
    rw [found] at handler
    cases handler
  | transition j t d =>
    rw [found] at handler
    cases handler

/-- What holds for both kinds of stubs. -/
theorem Guarded.absent_spec (gd : Guarded rules h₀ h name none id id' o o')
    (hp : ∀ g, o.objectClass ≠ .globalProxy g)
    (objects : ∀ j ∈ h.chain (h.prototypeOf (.object id')), (h.object? j).isSome)
    (absent : h₀.own id name = .notFound) (nowhere : h₀.lookupInPrototypes id name = .notFound) :
    h.ownReal id' name = .notFound ∧
      (∀ j ∈ h.chain (h.prototypeOf (.object id')), h.Overlooks j name) ∧
      (h.lookupReal id' name = .notFound ↔
        ∀ j ∈ h.chain (h.prototypeOf (.object id')), h.hidesAccessor j name = false) := by
  have real := gd.obeys.ownReal_notFound (gd.own_absent hp (by simp) absent)
  have above := gd.overlooks_above objects (firstFound_eq_notFound.1 nowhere)
  refine ⟨real, above, ?_⟩
  simp only [lookupReal, real, lookupInPrototypes, firstFound_eq_notFound]
  exact forall₂_congr fun j hj => (above j hj).absent

end Heap

open Heap in
/-- **What guards for absent properties leave open.** Where the guards of such a stub hold, the
receiver does not own the name, and objects above it own at most accessors. The property is still
absent exactly if no object in dictionary mode has gained an accessor of the name, and a load of it
still finds nothing exactly if none has gained an interceptor, either. -/
theorem absence_guards {session : Session} (reachable : session.Reachable {}) {spec : StubSpec}
    (stub : session.HasStub spec)
    (absent : spec.handler = .loadNonexistent ∨
      ∃ index target, spec.handler = .storeField index (some target))
    {receiver : Value} {name : Name}
    (hold : session.engine.heap.guardsHold spec receiver (some name))
    (objects : ∀ id ∈ session.engine.heap.chain (session.engine.heap.prototypeOf receiver),
      (session.engine.heap.object? id).isSome) :
    let h := session.engine.heap
    let above := h.chain (h.prototypeOf receiver)
    ∃ id, receiver = .object id ∧ h.ownReal id name = .notFound ∧
      (∀ j ∈ above, h.Overlooks j name) ∧
      (h.lookupReal id name = .notFound ↔ ∀ j ∈ above, h.hidesAccessor j name = false) ∧
      (spec.handler = .loadNonexistent → (h.lookup receiver name = .notFound ↔
        ∀ j ∈ above, h.hidesAccessor j name = false ∧ h.hidesInterceptor j = false)) := by
  intro h above
  have engine := reachable.sound.engine
  have sound := reachable.sound.stub stub
  -- Both kinds of handler were made where the name was nowhere in the chain, one by a load and
  -- one by a store.
  rcases absent with hh | ⟨index, target, hh⟩
  · obtain ⟨h₀, n, holder, id, id', o, o', l, e, rfl, gd⟩ := sound.load engine.heap hold
      fun _ c => by simpa [StubSpec.Origin, hh] using c
    obtain rfl := Option.some.inj e
    obtain ⟨nothing, rfl⟩ := l.nonexistent hh
    rw [gd.obeys₀.lookup_object gd.before, firstFound_eq_notFound] at nothing
    have own₀ := nothing id (by simp)
    have above₀ : ∀ j ∈ h₀.chain (h₀.prototypeOf (.object id)), h₀.own j name = .notFound :=
      fun j hj => nothing j (by simp [hj])
    obtain ⟨real, passes, lookup⟩ := gd.absent_spec l.proxy objects own₀
      (firstFound_eq_notFound.2 fun j hj => gd.obeys₀.ownReal_notFound (above₀ j hj))
    refine ⟨id', rfl, real, passes, lookup, fun _ => ?_⟩
    have own := gd.own_absent l.proxy (by simp) own₀
    rw [engine.heap.lookup_object gd.after, firstFound, own, firstFound_eq_notFound]
    exact forall₂_congr fun j hj => gd.overlooksLoad_above objects above₀ j hj
  · obtain ⟨h₀, n, found, holder, id, id', o, o', so, e, rfl, gd⟩ := sound.store engine.heap hold
      fun _ c => by simpa [StubSpec.Origin, hh] using c
    obtain rfl := Option.some.inj e
    obtain ⟨rfl, own₀, nowhere, -⟩ := so.transition gd.obeys₀ hh
    obtain ⟨real, passes, lookup⟩ := gd.absent_spec so.proxy objects own₀ nowhere
    exact ⟨id', rfl, real, passes, lookup, fun e => by rw [hh] at e; cases e⟩

/-- An accessor that a prototype in dictionary mode gained after the stub was made. -/
theorem absence_guards_accessor :
    let name : Name := ⟨"x"⟩
    let prototype : ObjectId := ⟨10⟩
    let receiver : Value := .object ⟨11⟩
    let load : Operation := .atSite 0 (.load receiver name)
    let created := ((Session.ofConfig {}).perform (.onHeap .object)).perform
      (.onHeap (.normalize prototype))
    let inherited := created.perform (.onHeap (.objectWithPrototype (.object prototype)))
    let loaded := ((inherited.perform (.newSite .load {})).perform load).perform load
    let session := loaded.perform (.onHeap (.addAccessor prototype name .undefined .undefined))
    ∃ spec ∈ session.engine.stubs.specs, session.engine.heap.guardsHold spec receiver (some name) ∧
      (∀ j ∈ session.engine.heap.chain (session.engine.heap.prototypeOf receiver),
        session.engine.heap.Overlooks j name) ∧
      session.engine.heap.hidesAccessor prototype name := by
  intro name prototype receiver load created inherited loaded session
  have allowed : created.Allowed {} (.onHeap (.objectWithPrototype (.object prototype))) :=
    ⟨fun e => by cases e; decide +kernel, by simp⟩
  have reachable : session.Reachable {} :=
    .step (.step (.step (.step (.step (.step (.step (.initial {}) (.onHeap .object) trivial)
      (.onHeap (.normalize prototype)) trivial) _ allowed) (.newSite .load {}) trivial) load trivial)
      load trivial) (.onHeap (.addAccessor prototype name .undefined .undefined)) (fun e => by cases e)
  have found : ∃ spec ∈ session.engine.stubs.specs, spec.handler = .loadNonexistent ∧
      session.engine.heap.guardsHold spec receiver (some name) := by decide +kernel
  obtain ⟨spec, made, hh, hold⟩ := found
  obtain ⟨_, -, -, passes, -⟩ := absence_guards reachable (.made made) (.inl hh) hold (by decide +kernel)
  exact ⟨spec, made, hold, passes, by decide +kernel⟩

end Speculation
