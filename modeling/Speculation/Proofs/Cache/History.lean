import Speculation.Proofs.Cache.Store

/-!
# Named stores and the history of a site

A named store through a site does what `namedStore` says, whatever the site has stored before: a
miss stores by these rules (`AtSite.resolveStore_performs`), and a stub either misses or stands for
them (`StubSpec.Sound.runStore_namedStore`). Two sites therefore cannot be told apart by a store.

The rules are those of `setProperty` but for three cases, which only a miss treats as such: array
indices, the length of a primitive string and global variables that were never declared. Stubs with
guards miss there. A stub without guards does not, which is what `escapes` describes: once a site
has stored to the global proxy, it stores by `setProperty` to every object and under every name.
What guards themselves do not look at is collected in `WellGuarded`.
-/

namespace Speculation

namespace Heap

variable {rules : Rules} {h₀ h : Heap} {name : Name} {id id' : ObjectId} {o o' : JsObject}

/-- Whether a stub with a handler performs a store that a miss would treat as a special case. -/
def escapes (h : Heap) (handler : Handler) (receiver : Value) (name : Name) (strict : Bool) :
    Bool :=
  match handler, h.holderId? receiver .receiver with
  | .storeGlobalProxy, some id => name.arrayIndex?.isSome || strict && h.isUndeclared id name
  | .generic, some id => name.arrayIndex?.isNone && strict && h.isUndeclared id name
  | .generic, none => strict && h.isString receiver && decide (name = .length)
  | _, _ => false

/-- Receivers and names for which guards say all that a store depends on: they overlook no accessor,
and an array in dictionary mode neither has a property `length` of its own nor inherits an accessor of
that name. -/
structure WellGuarded (h : Heap) (asked : List Holder) (receiver : Value) (name : Name) : Prop
    extends SeesAccessors h asked receiver name where
  length : name = .length → h.isArray receiver → ∀ id, receiver = .object id →
    h.isFast id = false → ∀ {j kind a}, h.lookupReal id name = .property j kind a →
    j ≠ id ∧ kind.isAccessor = false

/-- The guards of a stub say all that a store depends on, for a receiver that passes them. -/
def TrustsStore (h : Heap) (spec : StubSpec) (receiver : Value) (name : Name) : Prop :=
  h.Passes spec receiver name → h.WellGuarded spec.absentChecks receiver name

/-- Where no object above the receiver has an accessor that guards could overlook, every stub for a
name other than `length` says all. -/
theorem trustsStore_of_unhidden {receiver : Value} (ordinary : name ≠ .length)
    (above : ∀ j ∈ h.chain (h.prototypeOf receiver),
      (h.object? j).isSome ∧ h.hidesAccessor j name = false) (spec : StubSpec) :
    h.TrustsStore spec receiver name := fun _ =>
  ⟨⟨fun j hj => (above j hj).1, fun j hj _ => (above j hj).2⟩, fun e => absurd e ordinary⟩

/-! ### Special cases of stores -/

/-- A global variable that was never declared is nowhere to be found, unless interceptors hide that
it is. -/
theorem Obeys.isUndeclared_spec (ob : h.Obeys rules) (ho : h.object? id = some o)
    (hr : h.resolveProxy id = id) (hu : h.isUndeclared id name) : h.ownReal id name = .notFound ∧
      (h.own id name = .notFound → h.lookupInPrototypes id name = .notFound) := by
  simp only [isUndeclared, Bool.and_eq_true, Bool.not_eq_true'] at hu
  obtain ⟨⟨-, missed⟩, unfound⟩ := hu
  -- With nothing at the object itself, the lookup for a store goes up the chain or finds a
  -- transition; only the first can leave it undeclared.
  have absent (own : h.own id name = .notFound) : h.lookupInPrototypes id name = .notFound := by
    simp only [lookupForStore, own] at missed unfound
    split at unfound
    · have nothing : h.lookup (.object id) name = .notFound := by
        split at unfound
        · cases unfound
        · cases e : h.lookup (.object id) name <;> simp_all [Lookup.isFound]
      rw [ob.lookup_object ho, firstFound_eq_notFound] at nothing
      exact firstFound_eq_notFound.2 fun j hj =>
        ob.ownReal_notFound (nothing j (List.mem_cons_of_mem _ hj))
    · rename_i cacheable
      simp only [cacheable, Bool.false_eq_true, if_false] at missed
      split at missed
      · rename_i interceptor
        rcases h.lookupTransition_cases id name with e | ⟨target, d, e⟩
        · rw [e] at interceptor
          cases interceptor
        · rw [e] at interceptor
          cases interceptor
      · cases missed
  refine ⟨?_, absent⟩
  -- An interceptor hides what the object owns, and anything else it owns would have been found.
  rcases h.own_cases id name with e | e | e
  · exact ob.ownReal_notFound e
  · simp only [lookupForStore, e, isCacheableStore, Lookup.isReadOnly, Bool.not_false,
      Bool.not_true, Bool.false_eq_true, if_false, Lookup.isInterceptor, if_true] at unfound
    cases real : h.ownReal id name <;> simp_all [Lookup.isFound]
  · rw [hr] at e
    rcases h.ownReal_cases id name with real | ⟨kind, a, real⟩
    · exact real
    · rw [real] at e
      simp only [lookupForStore, e] at missed unfound
      split at unfound
      · rw [ob.lookup_of_own ho (by simp [e]), e] at unfound
        split at unfound <;> cases unfound
      · rename_i cacheable
        simp only [cacheable, Bool.false_eq_true, if_false, Lookup.isInterceptor] at missed
        cases missed

/-- A store by name to an object goes to an element, is refused, or writes a property. -/
theorem namedStore_object (ho : h.object? id = some o) (v : Value) (strict : Bool) :
    h.namedStore (.object id) name v strict =
      match name.arrayIndex? with
      | some i => setElement (.object id) i v
      | none =>
        if strict && h.isUndeclared id name then raise (.notDefined name.text)
        else setProperty (.object id) name v strict := by
  have string : h.isString (.object id) = false := by
    simp [isString, get?, Value.objectId?, object?_eq_some.1 ho]
  cases e : name.arrayIndex? <;>
    simp [namedStore, Value.isNullish, string, holderId?_receiver ho, e]

/-- A store to an element has the stored value. -/
theorem setElement_value {receiver v : Value} {i : Nat} :
    setElement receiver i v h =
      (setElement receiver i v >>= fun _ => pure v : Action Value) h := by
  rw [Computation.bind_apply, setElement, Computation.get_bind]
  cases receiver.objectId?.filter fun _ => h.isJsObject receiver with
  | none => rfl
  | some id =>
    dsimp only
    rw [Computation.bind_apply]
    rcases runExcept (fun h => h.storeElement (h.resolveProxy id) i v) h with ⟨_ | _, g⟩ <;> rfl

/-- Where `setNamed` stores by the rules of a miss. -/
theorem namedStore_eq_setNamed {receiver : Value} {strict : Bool}
    (kept : h.escapes .generic receiver name strict = false) (v : Value) :
    h.namedStore receiver name v strict h = setNamed receiver name v strict h := by
  by_cases hnull : receiver.isNullish
  · simp only [namedStore, setNamed, hnull, if_true, Computation.get_bind]
  cases hid : h.holderId? receiver .receiver with
  | none =>
    have ordinary : (strict && h.isString receiver && decide (name = .length)) = false := by
      simpa only [escapes, hid] using kept
    have nobody : (receiver.objectId?.filter fun _ => h.isJsObject receiver) = none := hid
    have element (i : Nat) : setElement receiver i v h = (.ok v, h) := by
      simp only [setElement, Computation.get_bind, nobody]
      rfl
    have property : setProperty receiver name v strict h = (.ok v, h) := by
      rw [setProperty, setPropertyWith_apply]
      simp only [storeRoute, nobody]
      rfl
    simp only [namedStore, setNamed, hnull, Bool.false_eq_true, if_false, ordinary, hid]
    cases name.arrayIndex? with
    | some i => exact (element i).symm
    | none => exact property.symm
  | some id =>
    obtain ⟨o, rfl, ho⟩ := object_of_holderId? hid
    rw [namedStore_object ho]
    simp only [setNamed, Value.isNullish]
    cases hi : name.arrayIndex? with
    | some i => rfl
    | none =>
      have declared : (strict && h.isUndeclared id name) = false := by
        simpa only [escapes, hid, hi, Option.isNone_none, Bool.true_and] using kept
      simp only [declared, Bool.false_eq_true, if_false]
      rfl

/-- A store has the stored value for its result. -/
theorem setNamed_value {receiver v : Value} {strict : Bool} :
    setNamed receiver name v strict h =
      (setNamed receiver name v strict >>= fun _ => pure v : Action Value) h := by
  by_cases hnull : receiver.isNullish
  · simp only [setNamed, hnull, if_true]
    rfl
  · simp only [setNamed, hnull, Bool.false_eq_true, if_false]
    cases name.arrayIndex? with
    | some i => exact setElement_value
    | none => exact setProperty_value

/-! ### Stubs that find nothing -/

section Origin

variable {spec : StubSpec} {found : Lookup} {holder : Option ObjectId} {key : Key} {v : Value}
  (so : h₀.StoreOrigin spec id o name found holder)
  (gd : Guarded rules h₀ h name holder id id' o o')

include so gd

omit gd in
/-- A stub asks what the access asked that it was made for. -/
theorem StoreOrigin.wellGuarded (trusts : h.TrustsStore spec (.object id') name)
    (passes : h.Passes spec (.object id') name) :
    h.WellGuarded (h₀.chainGuards (.object id) holder).absentChecks (.object id') name :=
  (passes_of_guardsHold so.guards passes.hold).2 ▸ trusts passes

/-- A stub for a property that the general rules do not find misses, unless it adds the property. -/
theorem StoreOrigin.misses
    (w : h.WellGuarded (h₀.chainGuards (.object id) holder).absentChecks (.object id') name)
    (hk : key.name? h = some name) (own : h.ownReal id' name = .notFound)
    (nowhere : h.own id' name = .notFound → h.lookupInPrototypes id' name = .notFound)
    (kept : ∀ i target, spec.handler ≠ .storeField i (some target)) :
    storeByHandler spec (.object id') id' key v h = (.ok .miss, h) := by
  obtain ⟨-, hr⟩ := gd.toTwin.resolveProxy_eq_self gd.obeys₀ gd.obeys gd.grows so.proxy
  have source := so.source gd.obeys₀
  -- The object does not own the name, so a dictionary has no entry for it.
  have gone (slow : (h.shapeOf o').isDictionary) : o'.dictionary.get? name = none := by
    cases e : o'.dictionary.get? name with
    | none => rfl
    | some x =>
      rw [ownReal_eq hr gd.after, Shape.owned?_present slow e] at own
      cases own
  generalize hh : spec.handler = f at source
  -- A stub that writes in place would find the property that is not there; one that adds a field
  -- is excluded.
  cases source with
  | field own₀ writable =>
    rw [so.own_field gd own₀] at own
    cases own
  | added => exact absurd hh (kept _ _)
  | normal own₀ =>
    rw [storeByHandler_normal hk hh]
    exact storeInDictionary_misses gd.after (gone (so.slow_of_entry gd own₀))
  | global own₀ hg =>
    rw [gd.storeByHandler_global hk hh hg]
    exact storeInDictionary_misses gd.after (gone (so.slow_of_entry gd own₀))
  | ownSetter own₀ function fast₀ =>
    obtain ⟨x, hx, hd⟩ := isFast_eq_true.1 fast₀
    obtain rfl := Option.some.inj (gd.before.symm.trans hx)
    rw [gd.ownReal_fast so.proxy hd own₀] at own
    cases own
  | inheritedSetter absent found function fast =>
    obtain ⟨own', real⟩ := so.inherited_eq gd w.toSeesAccessors rfl absent found fast
    rw [nowhere own'] at real
    cases real

/-- A stub for named stores misses the length of an array, unless it was made to set it. -/
theorem StoreOrigin.misses_slowLength (kind : spec.kind = .store)
    (w : h.WellGuarded (h₀.chainGuards (.object id) holder).absentChecks (.object id') name)
    (hk : key.name? h = some name) (hn : name = .length)
    (harr : h.isArray (.object id')) :
    storeByHandler spec (.object id') id' key v h = (.ok .miss, h) := by
  obtain ⟨-, hr⟩ := gd.toTwin.resolveProxy_eq_self gd.obeys₀ gd.obeys gd.grows so.proxy
  have slow := so.slow_of_length gd kind hn harr
  have slow₀ : (h₀.shapeOf o).isDictionary := by
    rwa [← gd.toTwin.isDictionary_eq gd.obeys₀ gd.grows]
  have length {j kind a} (found : h.lookupReal id' name = .property j kind a) :
      j ≠ id' ∧ kind.isAccessor = false :=
    w.length hn harr id' rfl (by simp [isFast, gd.after, slow]) found
  -- The property by that name is not the array's own, and no accessor either.
  have gone : o'.dictionary.get? name = none := by
    cases e : o'.dictionary.get? name with
    | none => rfl
    | some x =>
      have own : h.ownReal id' name = .property id' .normal x.attributes := by
        rw [ownReal_eq hr gd.after, Shape.owned?_present slow e]
        rfl
      exact absurd rfl (length (show h.lookupReal id' name = _ by rw [lookupReal, own])).1
  have source := so.source gd.obeys₀
  generalize hh : spec.handler = f at source
  -- A slow array cannot have come from a fast store, and its dictionary has no entry for the
  -- others to write.
  cases source with
  | field own₀ => simp [so.fast_of_field gd own₀] at slow₀
  | added => simp [so.fast_of_added gd hh] at slow
  | normal own₀ =>
    rw [storeByHandler_normal hk hh]
    exact storeInDictionary_misses gd.after gone
  | global own₀ hg =>
    rw [gd.storeByHandler_global hk hh hg]
    exact storeInDictionary_misses gd.after gone
  | ownSetter own₀ function fast₀ =>
    simp [isFast, gd.before, slow₀] at fast₀
  | inheritedSetter absent found function fast =>
    obtain ⟨own, real⟩ := so.inherited_eq gd w.toSeesAccessors rfl absent found fast
    have look : h.lookupReal id' name = h.lookupInPrototypes id' name := by
      rw [lookupReal, gd.obeys.ownReal_notFound own]
    exact absurd (length (look.trans real)).2 (by simp [PropertyKind.isAccessor])

end Origin

end Heap

/-! ### Stubs -/

namespace StubSpec

variable {rules : Rules} {h : Heap} {spec : StubSpec} {receiver : Value} {id : ObjectId}
  {o : JsObject} {name : Name} {strict : Bool}

/-- Nothing that is not an object passes a stub with guards. -/
theorem runStore_primitive (hid : h.holderId? receiver .receiver = none)
    (special : spec.handler ≠ .generic) (key : Key) (v : Value) :
    Heap.runStore spec receiver key v h = (.ok .miss, h) := by
  have guarded : Heap.guardedStore spec receiver key v h = (.ok .miss, h) := by
    simp only [Heap.guardedStore, Computation.get_bind, hid]
    split <;> rfl
  unfold Heap.runStore
  cases hh : spec.handler with
  | fresh | premonomorphic | megamorphic => rfl
  | generic => exact absurd hh special
  | _ => exact guarded

/-- A stub with guards misses a named store if the property it was made from is not there. -/
theorem Sound.runStore_misses (s : spec.Sound rules h) (ob : h.Obeys rules)
    (ho : h.object? id = some o) (guards : spec.handler.isUnguarded = false) (v : Value)
    (named : ∀ {h₀ found holder i x}, h₀.StoreOrigin spec i x name found holder →
      Heap.Guarded rules h₀ h name holder i id x o →
      h.Passes spec (.object id) name →
      Heap.storeByHandler spec (.object id) id (.named name) v h = (.ok .miss, h))
    (length : spec.handler = .storeArrayLength → name = .length →
      h.isArray (.object id) = false) :
    h.Misses (Heap.runStore spec (.object id) (.named name) v) := by
  have hk : (Key.named name).name? h = some name := rfl
  have guarded (run : h.guardsHold spec (.object id) (some name) →
      h.Misses (Heap.storeByHandler spec (.object id) id (.named name) v)) :
      h.Misses (Heap.guardedStore spec (.object id) (.named name) v) := by
    rcases Heap.guardedStore_cases ho hk v with e | ⟨hold, e⟩
    · exact .inl e
    · simpa only [Heap.Misses, e] using run hold
  have origin (hold : h.guardsHold spec (.object id) (some name))
      (made : ∀ h₀, spec.Origin h₀ →
        ∃ id o name found holder, h₀.StoreOrigin spec id o name found holder) :
      Heap.storeByHandler spec (.object id) id (.named name) v h = (.ok .miss, h) := by
    obtain ⟨h₀, found, holder, i, x, so, gd⟩ := s.storeOrigin ob ho hold made
    exact named so gd (Heap.passes_of_guardsHold so.guards hold).1
  -- Each kind of handler: those compiled from a lookup miss by `named`, the array's by `length`,
  -- and those for elements since the key is a name.
  obtain ⟨h₁, -, -, -, -, compiled⟩ := s
  unfold Heap.runStore
  cases hh : spec.handler with
  | fresh | premonomorphic | megamorphic => exact .inl rfl
  | generic | storeGlobalProxy => simp [hh, Handler.isUnguarded] at guards
  | storeField | storeNormal | storeGlobal | storeViaSetter =>
    exact guarded fun hold => .inl (origin hold fun _ c => by simpa [StubSpec.Origin, hh] using c)
  | storeArrayLength =>
    refine guarded fun hold => .inl ?_
    have hn : name = .length := Option.some.inj
      (Heap.guardsHold_name hold (by simpa [StubSpec.Origin, hh] using compiled))
    cases v <;> simp [Heap.storeByHandler, hh, length hh hn]
  | storeElement | storeElementPolymorphic | storeNonStrictArguments =>
    exact guarded fun _ => Heap.storeByHandler_misses_name (by rw [hh]; rfl) rfl v
  | _ => exact guarded fun _ => .inl (by simp [Heap.storeByHandler, hh])

/-- A stub for a name that no miss treats as a special case. -/
theorem Sound.runStore_ordinary (s : spec.Sound rules h) (ob : h.Obeys rules) (owners : h.HasOwners)
    (kind : spec.kind = .store) (trusts : h.TrustsStore spec (.object id) name) (ho : h.object? id = some o)
    (hi : name.arrayIndex? = none) (mode : spec.handler.isUnguarded → spec.mode.strict = strict)
    (v : Value) : h.Stands (Heap.runStore spec (.object id) (.named name) v)
      (Heap.setProperty (.object id) name v strict) :=
  s.runStore_setProperty ob owners ho rfl hi (fun passes => (trusts passes).toSeesAccessors)
    (fun hn harr _ _ _ _ _ so gd passes =>
      so.misses_slowLength gd kind (so.wellGuarded trusts passes) rfl hn harr) mode

/-- **A stub stores by the rules of a miss, or misses**, except that a stub without guards may
perform what a miss treats as a special case. -/
theorem Sound.runStore_namedStore (s : spec.Sound rules h) (ob : h.Obeys rules)
    (owners : h.HasOwners) (made : spec.kind = .store) (trusts : h.TrustsStore spec receiver name)
    (mode : spec.handler.isUnguarded → spec.mode.strict = strict)
    (kept : h.escapes spec.handler receiver name strict = false) (v : Value) :
    h.Stands (Heap.runStore spec receiver (.named name) v)
      (h.namedStore receiver name v strict) := by
  by_cases hh : spec.handler = .generic
  · rw [hh] at kept
    refine Heap.stands_effect (c := Heap.setNamed receiver name v strict) ?_
      ((Heap.namedStore_eq_setNamed kept v).trans Heap.setNamed_value)
    simp only [Heap.runStore, hh, Heap.setByKey, mode (by rw [hh]; rfl)]
  cases hid : h.holderId? receiver .receiver with
  | none => exact .inl (runStore_primitive hid hh _ v)
  | some id =>
    obtain ⟨o, rfl, ho⟩ := Heap.object_of_holderId? hid
    rw [Heap.namedStore_object ho]
    -- The only unguarded handlers are the generic one, set apart above, and the global proxy's,
    -- which escapes here.
    have guards (special : (name.arrayIndex?.isSome || strict && h.isUndeclared id name) = true) :
        spec.handler.isUnguarded = false := by
      cases hg : spec.handler with
      | generic => exact absurd hg hh
      | storeGlobalProxy =>
        simp only [Heap.escapes, hg, hid] at kept
        rw [kept] at special
        cases special
      | _ => rfl
    cases hi : name.arrayIndex? with
    | some i =>
      refine (s.runStore_misses ob ho (guards (by simp [hi])) v (fun so gd _ => ?_)
        (fun _ hn => ?_)).stands _
      · exact absurd (hi.symm.trans so.index) (by simp)
      · rw [hn, show Name.length.arrayIndex? = none by decide] at hi
        cases hi
    | none =>
      dsimp only
      -- An undeclared global in strict mode: the slow store raises an error, so the stub has to
      -- miss.
      split
      · rename_i hu
        have undeclared : h.isUndeclared id name := (Bool.and_eq_true_iff.1 hu).2
        have global : h.isGlobalObject (.object id) := by
          simp only [Heap.isUndeclared, Bool.and_eq_true] at undeclared
          exact undeclared.1.1
        obtain ⟨x, hx, hc, hd⟩ := ob.globalObject
        rw [← ob.eq_globalObject global, ho] at hx
        obtain rfl := Option.some.inj hx
        have hr := Heap.resolveProxy_eq_self ho (by simp [hc])
        obtain ⟨own, nowhere⟩ := ob.isUndeclared_spec ho hr undeclared
        refine (s.runStore_misses ob ho (guards (by simp [hu])) v (fun so gd passes => ?_)
          (fun _ _ => ?_)).stands _
        · refine so.misses gd (so.wellGuarded trusts passes) rfl own nowhere fun i target hf => ?_
          simp [so.fast_of_added gd hf] at hd
        · simp [Heap.isArray, Heap.classOf?, Heap.asObject?, Value.objectId?, ho, hc]
      · exact s.runStore_ordinary ob owners made trusts ho hi mode v

/-- The stub cache holds stubs with guards only. -/
theorem Sound.guarded_of_monomorphic (s : spec.Sound rules h) (hs : spec.state = .monomorphic) :
    spec.handler.isUnguarded = false := by
  obtain ⟨h₁, -, -, -, -, compiled⟩ := s
  unfold StubSpec.Origin at compiled
  cases hh : spec.handler with
  | generic => simp [hh, hs] at compiled
  | storeGlobalProxy => simp [hh, hs] at compiled
  | _ => rfl

end StubSpec

/-! ### Stores through sites -/

/-- A stub with guards misses wherever the general rules treat a store as special. -/
theorem Heap.escapes_of_guarded {h : Heap} {handler : Handler} (hg : handler.isUnguarded = false)
    (receiver : Value) (name : Name) (strict : Bool) :
    h.escapes handler receiver name strict = false := by
  unfold Heap.escapes
  split <;> first | rfl | cases hg

namespace AtSite

variable {rules : Rules} {s t : AtSite}

/-- A store through a site stores by the general rules, unless the site has a stub without guards
that performs what a miss would treat as a special case. -/
theorem store_performs (ss : s.Sound rules) (owners : s.engine.heap.HasOwners)
    (made : s.site.target.kind = .store) {receiver : Value} {name : Name}
    (trusts : ∀ spec, s.Consults receiver (.named name) spec →
      s.engine.heap.TrustsStore spec receiver name)
    (kept : s.engine.heap.escapes s.site.target.spec.handler receiver name s.site.mode.strict = false)
    (v : Value) : Performs rules s (store receiver name v)
      (s.engine.heap.namedStore receiver name v s.site.mode.strict) := by
  simp only [store, dispatchStore_eq, bind_assoc]
  obtain ⟨found, t, e, k, site, heap, hf⟩ := consult_kept ss receiver (.named name)
  refine k.bind_performs e ?_
  rw [← heap, ← site] at kept ⊢
  -- A site with no stub to run goes straight to the slow store.
  cases found with
  | none => exact resolveStore_performs k.sound receiver name v
  | some spec =>
    obtain ⟨runs, sound, kind, own⟩ := hf spec rfl
    have trusts := trusts spec runs
    rw [← heap] at sound trusts owners
    rw [← site] at own
    have ob := k.sound.engine.heap
    refine stands_performs k.sound (Heap.runStore_leads ob sound receiver _ v)
      (sound.runStore_namedStore ob owners (kind.trans made) trusts ?_ ?_ v)
      (resolveStore_performs k.sound receiver name v)
    · intro unguarded
      rcases own with rfl | state
      · rfl
      · simp [sound.guarded_of_monomorphic state] at unguarded
    · rcases own with rfl | state
      · exact kept
      · exact Heap.escapes_of_guarded (sound.guarded_of_monomorphic state) ..

end AtSite

/-- **A store does not depend on the history of its site.** In every reachable session, a store
gives the same result through any two sites for stores of the same strictness and leaves the same
objects and shapes, provided that the guards of the stubs that the sites run, if any, say all that the
store depends on and that neither site has a stub without guards that performs what a miss would treat
as a special case. A setter may be any function of the host that does not look at the stubs of shapes. -/
theorem store_history {session : Session} (reachable : session.Reachable {})
    (sees : session.engine.heap.host.Blind) {a b : Site}
    (ha : a ∈ session.sites) (hb : b ∈ session.sites) (kindA : a.target.kind = .store)
    (kindB : b.target.kind = .store) (strict : a.mode.strict = b.mode.strict)
    {receiver : Value} {name : Name}
    (trustsA : ∀ spec, AtSite.Consults ⟨a, session.engine⟩ receiver (.named name) spec →
      session.engine.heap.TrustsStore spec receiver name)
    (trustsB : ∀ spec, AtSite.Consults ⟨b, session.engine⟩ receiver (.named name) spec →
      session.engine.heap.TrustsStore spec receiver name)
    (keptA : session.engine.heap.escapes a.target.spec.handler receiver name a.mode.strict = false)
    (keptB : session.engine.heap.escapes b.target.spec.handler receiver name b.mode.strict = false)
    (v : Value) :
    let first := AtSite.store receiver name v ⟨a, session.engine⟩
    let second := AtSite.store receiver name v ⟨b, session.engine⟩
    first.1 = second.1 ∧ first.2.engine.heap.bare = second.2.engine.heap.bare := by
  have sound := reachable.sound
  -- Each site does what the slow store does, and that store does not see the stubs.
  have first := AtSite.store_performs (s := ⟨a, session.engine⟩) (sound.atSite ha)
    reachable.hasOwners kindA trustsA keptA v
  have second := AtSite.store_performs (s := ⟨b, session.engine⟩) (sound.atSite hb)
    reachable.hasOwners kindB trustsB keptB v
  simp only [← strict] at second
  have blind := session.engine.heap.blind_namedStore sees.setting receiver name v a.mode.strict
  exact ⟨(first.result blind).trans (second.result blind).symm,
    (first.heap blind).trans (second.heap blind).symm⟩

/-- A site that knows the stored property and one that has not stored anything yet. -/
theorem store_history_taught :
    let name : Name := ⟨"x"⟩
    let store (i : Nat) : Operation := .atSite 0 (.store (.object ⟨i⟩) name (.smi 1))
    let session := (Session.ofConfig {}).run [
      .onHeap .object, .onHeap .object, .onHeap .object, .onHeap .object,
      .newSite .store {}, .newSite .store {}, store 10, store 11, store 12]
    ∃ a ∈ session.sites, ∃ b ∈ session.sites, a.targetState = .monomorphic ∧
      b.targetState = .uninitialized ∧
      (AtSite.store (.object ⟨13⟩) name (.smi 2) ⟨a, session.engine⟩).2.engine.heap.bare =
        (AtSite.store (.object ⟨13⟩) name (.smi 2) ⟨b, session.engine⟩).2.engine.heap.bare := by
  intro name store session
  have allowed : (Session.ofConfig {}).AllowedRun {} [
      .onHeap .object, .onHeap .object, .onHeap .object, .onHeap .object,
      .newSite .store {}, .newSite .store {}, store 10, store 11, store 12] :=
    ⟨trivial, trivial, trivial, trivial, trivial, trivial, trivial, trivial, trivial, trivial⟩
  have reachable : session.Reachable {} := .run (.initial {}) allowed
  have sees : session.engine.heap.host.Blind := Session.blind_idle_run rfl allowed
  have sites : ∃ a ∈ session.sites, ∃ b ∈ session.sites, a.targetState = .monomorphic ∧
      b.targetState = .uninitialized ∧ a.target.kind = .store ∧ b.target.kind = .store ∧
      a.mode.strict = b.mode.strict ∧
      session.engine.heap.escapes a.target.spec.handler (.object ⟨13⟩) name a.mode.strict = false ∧
      session.engine.heap.escapes b.target.spec.handler (.object ⟨13⟩) name b.mode.strict =
        false := by decide +kernel
  obtain ⟨a, ha, b, hb, taught, new, kindA, kindB, strict, keptA, keptB⟩ := sites
  have trusts : ∀ spec, session.engine.heap.TrustsStore spec (.object ⟨13⟩) name :=
    Heap.trustsStore_of_unhidden (by decide +kernel) (by decide +kernel)
  exact ⟨a, ha, b, hb, taught, new,
    (store_history reachable sees ha hb kindA kindB strict (fun spec _ => trusts spec)
      (fun spec _ => trusts spec) keptA keptB (.smi 2)).2⟩

/-- After a store to the global proxy a site stores array indices under their names and makes global
variables in strict code. -/
theorem store_history_differs :
    let index : Name := ⟨"0"⟩
    let name : Name := ⟨"y"⟩
    let object : Value := .object ⟨10⟩
    let global : Value := .object Heap.globalObject
    let session := (Session.ofConfig {}).run [
      .onHeap .object, .newSite .store { strict := true }, .newSite .store { strict := true },
      .atSite 0 (.store (.object Heap.globalProxy) ⟨"a"⟩ (.smi 1))]
    let h := session.engine.heap
    session.Reachable {} ∧ (∀ spec, h.TrustsStore spec object index) ∧
      (∀ spec, h.TrustsStore spec global name) ∧
      ∃ a ∈ session.sites, ∃ b ∈ session.sites, a.mode.strict = b.mode.strict ∧
        (AtSite.store object index (.smi 2) ⟨a, session.engine⟩).2.engine.heap.ownElement? ⟨10⟩ 0 =
          none ∧
        (AtSite.store object index (.smi 2) ⟨b, session.engine⟩).2.engine.heap.ownElement? ⟨10⟩ 0 =
          some (.smi 2) ∧
        (AtSite.store global name (.smi 2) ⟨a, session.engine⟩).1.toOption =
          some (.smi 2) ∧
        (AtSite.store global name (.smi 2) ⟨b, session.engine⟩).1.toOption = none := by
  intro index name object global session h
  exact ⟨.run (.initial {}) ⟨trivial, trivial, trivial, trivial, trivial⟩,
    Heap.trustsStore_of_unhidden (by decide +kernel) (by decide +kernel),
    Heap.trustsStore_of_unhidden (by decide +kernel) (by decide +kernel), by decide +kernel⟩

end Speculation
