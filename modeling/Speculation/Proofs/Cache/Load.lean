import Speculation.Proofs.Cache.Absence
import Speculation.Proofs.Cache.ElementLoad
import Speculation.Proofs.Cache.Holder

/-!
# Loads through sites are transparent

A named load gives the same result and leaves the same objects whatever the site has cached
(`load_transparent`). Both sides are compared with `Heap.namedLoad`, the load by the general rules:

* a stub whose guards hold either misses without a trace or does what `namedLoad` does
  (`runLoad_namedLoad`): its guards pin the lookup that it was made from, so what it does is what a
  lookup would lead to now;
* a miss is resolved by `namedLoad` and upkeep (`resolveLoad_performs`).

Objects above the receiver have to be fast, or at least to have nothing that the guards of the stub
overlook (`Heap.Trusts`), since a stub may rely on the absence of a property that an object in
dictionary mode has gained in the meantime. The generic stub goes by different rules for names that spell array
indices, and is left out.
-/

namespace Speculation

namespace Heap

variable {rules : Rules} {h₀ h : Heap} {name : Name} {id id' : ObjectId} {o o' : JsObject}

/-! ### Properties that no shape describes -/

/-- Which stub a property that no shape describes gets is a matter of the type. -/
theorem Twin.intrinsicHandler?_eq (t : Twin h₀ h id id' o o') (ob₀ : h₀.Obeys rules)
    (ob : h.Obeys rules) (g : h₀.Grows h) :
    h.intrinsicHandler? (.object id') name = h₀.intrinsicHandler? (.object id) name := by
  simp only [intrinsicHandler?, isStringWrapper_object t.before, isStringWrapper_object t.after,
    isArray_object t.before, isArray_object t.after, isFunction_object t.before,
    isFunction_object t.after, isString_object t.before, isString_object t.after,
    t.instanceType_eq ob₀ ob g]

/-- Only wrappers of strings have the length of a string. -/
theorem stringLength?_object (ho : h.object? id = some o) :
    h.stringLength? (.object id) = match o.objectClass with
      | .stringWrapper inner => (h.string? inner).map Text.unitLength
      | _ => none := by
  have hs : h.string? (.object id) = none := by
    simp [string?, get?, Value.objectId?, object?_eq_some.1 ho]
  simp only [stringLength?, hs, classOf?, asObject?, Value.objectId?, Option.bind_some, ho,
    Option.map_some]
  cases o.objectClass <;> rfl

/-- Objects that have such a stub have the property, as wrappers wrap strings, and the others do
not. -/
theorem Obeys.intrinsic?_isSome (ob : h.Obeys rules) (wrappers : rules.stringWrappers)
    (ho : h.object? id = some o) (name : Name) : (h.intrinsic? (.object id) name).isSome =
      (h.intrinsicHandler? (.object id) name).isSome := by
  have length : (Name.length = Name.prototype) = False := by simp [Name.length, Name.prototype]
  have prototype : (Name.prototype = Name.length) = False := by simp [Name.length, Name.prototype]
  have has : h.asObject? (.object id) = some o := ho
  have hf : h.functionData? (.object id) = o.function? := by simp [functionData?, has]
  simp only [intrinsicHandler?, isStringWrapper_object ho, isString_object ho, isArray_object ho,
    isFunction_object ho, intrinsic?, stringLength?_object ho, arrayLength?, has, hf,
    JsObject.function?]
  cases hc : o.objectClass with
  | stringWrapper v =>
    obtain ⟨s, hs⟩ : ∃ s, h.string? v = some s := by
      have hv := (ob.object ho).wrapper wrappers hc
      unfold isString at hv
      split at hv
      · rename_i s i hg
        exact ⟨s, by simp [string?, hg]⟩
      · cases hv
    by_cases hl : name = .length
    · simp [hl, hs, ObjectClass.instanceType]
    · by_cases hp : name = .prototype <;> simp [hl, hp, prototype, ObjectClass.instanceType]
  | _ =>
    by_cases hl : name = .length
    · simp [hl, length, ObjectClass.instanceType]
    · by_cases hp : name = .prototype <;> simp [hl, hp, prototype, ObjectClass.instanceType]

section Intrinsic

variable {receiver : Value}

/-- The general rules know the length of a string. -/
theorem intrinsicLoad?_string {s : String} (hs : h.string? receiver = some s) :
    h.intrinsicLoad? receiver .length = some (.smi (Text.unitLength s)) := by
  have hg : h.isString receiver := by
    unfold string? at hs
    split at hs
    · rename_i e
      simp [isString, e]
    · cases hs
  simp only [intrinsicLoad?, intrinsicHandler?, intrinsic?, stringLength?, hs, hg]
  split <;> simp_all

/-- The general rules know the length of a wrapped string. -/
theorem intrinsicLoad?_wrapper (hw : h.isStringWrapper receiver) {n : Nat}
    (hs : h.stringLength? receiver = some n) :
    h.intrinsicLoad? receiver .length = some (.smi n) := by
  simp [intrinsicLoad?, intrinsicHandler?, intrinsic?, hw, hs]

/-- The general rules know the length of an array. -/
theorem intrinsicLoad?_array {n : Nat} (hn : h.arrayLength? receiver = some n) :
    h.intrinsicLoad? receiver .length = some (.smi n) := by
  have hn' := hn
  unfold arrayLength? at hn
  split at hn
  · rename_i x hx
    obtain ⟨id, rfl, ho⟩ := object_of_asObject? hx
    split at hn
    · rename_i hc
      have hs := stringLength?_object ho
      simp only [hc] at hs
      simp [intrinsicLoad?, intrinsicHandler?, intrinsic?, hs, hn', isArray_object ho, hc,
        isStringWrapper_object ho, isString_object ho, ObjectClass.instanceType]
    · cases hn
  · cases hn

/-- The general rules know the prototype of a function. -/
theorem intrinsicLoad?_function {d : FunctionData} (hd : h.functionData? receiver = some d) :
    h.intrinsicLoad? receiver .prototype = some d.prototype := by
  have length : (Name.prototype = Name.length) = False := by simp [Name.length, Name.prototype]
  obtain ⟨x, hx, hf⟩ := Option.bind_eq_some_iff.1 hd
  obtain ⟨id, rfl, ho⟩ := object_of_asObject? hx
  have hc : x.objectClass.instanceType = .function := by
    unfold JsObject.function? at hf
    split at hf
    · rename_i e
      rw [e]
      rfl
    · cases hf
  simp [intrinsicLoad?, intrinsicHandler?, intrinsic?, length, hd, isFunction_object ho, hc]

/-- A property that no shape describes has a stub of its own. -/
theorem intrinsicLoad?_eq (h : Heap) (receiver : Value) (name : Name) :
    h.intrinsicLoad? receiver name = h.intrinsic? receiver name := by
  cases hv : h.intrinsic? receiver name with
  | none =>
    unfold intrinsicLoad?
    split
    · exact hv
    · rfl
  | some v =>
    unfold intrinsic? at hv
    split at hv
    · rename_i hl
      subst hl
      obtain ⟨n, hn, rfl⟩ : ∃ n : Nat,
          (h.stringLength? receiver).or (h.arrayLength? receiver) = some n ∧ Value.smi n = v := by
        simpa [Option.bind_eq_some_iff] using hv
      rcases Option.or_eq_some_iff.1 hn with hn | ⟨-, hn⟩
      · unfold stringLength? at hn
        split at hn
        · rename_i t ht
          cases hn
          exact intrinsicLoad?_string ht
        · rename_i primitive
          refine intrinsicLoad?_wrapper ?_ (by simpa only [stringLength?, primitive] using hn)
          split at hn
          · rename_i hc
            simp only [isStringWrapper, hc]
          · cases hn
      · exact intrinsicLoad?_array hn
    · split at hv
      · rename_i hp
        subst hp
        obtain ⟨d, hd, rfl⟩ := Option.map_eq_some_iff.1 hv
        exact intrinsicLoad?_function hd
      · cases hv

end Intrinsic

/-! ### The lookup of a stub, later -/

section Guarded

variable {holder : Option ObjectId} {j : ObjectId}

/-- Where the lookup of a stub found nothing, it still finds nothing. -/
theorem Guarded.lookup_notFound (gd : Guarded rules h₀ h name none id id' o o')
    (hp : ∀ g, o.objectClass ≠ .globalProxy g)
    (un : h.Unhidden (h₀.chainGuards (.object id) none).absentChecks (.object id') name)
    (nothing : h₀.lookup (.object id) name = .notFound) :
    h.lookup (.object id') name = .notFound := by
  rw [gd.obeys₀.lookup_object gd.before, firstFound_eq_notFound] at nothing
  have own := gd.own_absent hp (by simp) (nothing id (by simp))
  rw [gd.obeys.lookup_object gd.after, firstFound, own, firstFound_eq_notFound,
    gd.toTwin.chain_eq gd.obeys₀ gd.obeys gd.grows]
  exact gd.own_absent_before un (by simp) (List.append_nil _).symm (by simp) (by simp)
    fun j hj => nothing j (List.mem_cons_of_mem _ hj)

/-- Where the lookup of a stub ended at the receiver, it still does. -/
theorem Guarded.ends_own (gd : Guarded rules h₀ h name holder id id' o o')
    (hp : ∀ g, o.objectClass ≠ .globalProxy g)
    (ends : (h₀.lookup (.object id) name).holder? = some id) :
    Ends h₀ h (.object id) (.object id') name id id' o o' := by
  obtain ⟨real₀, real⟩ := gd.toTwin.resolveProxy_eq_self gd.obeys₀ gd.obeys gd.grows hp
  refine ⟨gd.toTwin, real₀, real, gd.obeys₀.own_of_lookup gd.before ends,
    gd.obeys.lookup_of_own gd.after, ?_⟩
  simpa using holderId?_relativeTo gd.after id id

/-- Where it ended further up, the objects before the holder are passed once more. A proxy shows
what the global object owns, which comes right after it. -/
theorem Guarded.ends_above (gd : Guarded rules h₀ h name (some j) id id' o o')
    (hp : ∀ g, o.objectClass ≠ .globalProxy g)
    (un : h.Unhidden (h₀.chainGuards (.object id) (some j)).absentChecks (.object id') name)
    (hne : id ≠ j) (ends : (h₀.lookup (.object id) name).holder? = some j) :
    ∃ x x', Ends h₀ h (.object id) (.object id') name j j x x' := by
  have ob₀ := gd.obeys₀
  have hne' : some id ≠ some j := fun e => hne (Option.some.inj e)
  have absent : h₀.own id name = .notFound :=
    ob₀.own_absent gd.before hp (by rw [ends]; exact fun e => hne (Option.some.inj e).symm)
  have absent' := gd.own_absent hp hne' absent
  obtain ⟨real₀, y, hy⟩ := ob₀.holder_of_lookup ends
  have look₀ : h₀.lookup (.object id) name =
      firstFound (h₀.own · name) (h₀.chain (h₀.prototypeOf (.object id))) := by
    rw [ob₀.lookup_object gd.before, firstFound, absent]
  obtain ⟨before, k, after, split, nothing, hk⟩ := firstFound_split look₀.symm
    fun h0 => by rw [h0] at ends; cases ends
  have found : h₀.own k name ≠ .notFound := fun h0 => by rw [← hk, h0] at ends; cases ends
  have hkj : h₀.resolveProxy k = j := by
    rw [← hk, ob₀.own_holder? found] at ends
    exact Option.some.inj ends
  have own₀ : h₀.own j name = h₀.lookup (.object id) name := by
    rw [← hkj, own_resolveProxy ob₀, hk]
  have passed : ∀ i ∈ before, some i ≠ some j := by
    intro i hi e
    obtain rfl := Option.some.inj e
    exact found (by rw [← own_resolveProxy ob₀, hkj]; exact nothing i hi)
  -- No proxy is passed if the global object comes next, as it would show the property.
  have global : ∀ i ∈ before, h₀.resolveProxy i ≠ i →
      (k :: after).head? ≠ some Heap.globalObject := by
    intro i hi proxy e
    obtain rfl := Option.some.inj e
    refine found ?_
    rw [← (ob₀.of_proxy proxy).1, own_resolveProxy ob₀]
    exact nothing i hi
  have before' := gd.own_absent_before un hne' split passed global nothing
  obtain ⟨z, hz⟩ := gd.object_above un.objects (j := k) (by rw [split]; simp)
  have checks := gd.above hne'
  rw [split] at checks
  obtain ⟨checks, -⟩ := checks.before fun i hi =>
    ⟨Option.isSome_iff_exists.2 (gd.object_above un.objects (by rw [split]; simp [hi])),
      passed i hi⟩
  have pinned : Pinned h₀ h j := by
    by_cases hkk : k = j
    · subst hkk
      exact checks.at_holder hy
    · have proxy : h₀.resolveProxy k ≠ k := by rw [hkj]; exact fun e => hkk e.symm
      have next := ob₀.tail_of_chain split
      rw [(ob₀.of_proxy proxy).2, ob₀.chain_object, ← (ob₀.of_proxy proxy).1, hkj] at next
      rw [next] at checks
      exact (checks.cons hz fun e => hkk (Option.some.inj e)).1.at_holder hy
  obtain ⟨x, x', t⟩ := pinned
  have real := (gd.grows.resolveProxy hy).trans real₀
  refine ⟨x, x', t, real₀, real, own₀, fun hn => ?_, ?_⟩
  · have same : h.own k name = h.own j name := by
      rw [← own_resolveProxy gd.obeys, gd.grows.resolveProxy hz, hkj]
    rw [gd.obeys.lookup_object gd.after, firstFound, absent',
      gd.toTwin.chain_eq ob₀ gd.obeys gd.grows, split,
      firstFound_of_split before' (by rwa [same]), same]
  · rw [holderId?_relativeTo gd.after, if_neg (Ne.symm hne)]

/-- Where the lookup of a stub ended somewhere, it ends at an object of the same shape if that still
has the property. -/
theorem Guarded.ends (gd : Guarded rules h₀ h name holder id id' o o')
    (hp : ∀ g, o.objectClass ≠ .globalProxy g)
    (un : h.Unhidden (h₀.chainGuards (.object id) holder).absentChecks (.object id') name)
    (found : (h₀.lookup (.object id) name).holder? = some j) (hj : holder = some j) :
    ∃ k x x', Ends h₀ h (.object id) (.object id') name j k x x' := by
  subst hj
  by_cases hne : id = j
  · subst hne
    exact ⟨id', o, o', gd.ends_own hp found⟩
  · obtain ⟨x, x', e⟩ := gd.ends_above hp un hne found
    exact ⟨j, x, x', e⟩

end Guarded

/-! ### What a stub finds -/

section Found

variable {spec : StubSpec} {holder : Option ObjectId}

/-- A named load whose lookup gives something, later: the receiver has the properties that no shape
describes still in no stub, and the lookup still decides. -/
theorem LookupDecides.namedLoad_eq (d : h₀.LookupDecides id o name)
    (gd : Guarded rules h₀ h name holder id id' o o') (wrappers : rules.stringWrappers)
    (global : h.lookup (.object id') name = .notFound →
      h.lookup (.object id') name = h₀.lookup (.object id) name) :
    h.intrinsic? (.object id') name = none ∧ h.namedLoad (.object id') name =
      readLookup (.object id') (h.lookup (.object id') name) name := by
  have none₀ : h₀.intrinsicHandler? (.object id) name = none := by
    rcases d.intrinsic with e | e
    · exact e
    · have := gd.obeys₀.intrinsic?_isSome wrappers gd.before name
      simpa [e] using this
  have none : h.intrinsic? (.object id') name = none := by
    have := gd.obeys.intrinsic?_isSome wrappers gd.after name
    rw [gd.toTwin.intrinsicHandler?_eq gd.obeys₀ gd.obeys gd.grows, none₀] at this
    simpa using this
  have notGlobal : (!(h.lookup (.object id') name).isFound &&
      h.isGlobalObject (.object id')) = false := by
    cases e : h.lookup (.object id') name with
    | notFound =>
      have := d.global ((global e).symm.trans e)
      rw [isGlobalObject_object gd.before] at this
      rw [isGlobalObject_object gd.after, gd.toTwin.instanceType_eq gd.obeys₀ gd.obeys gd.grows,
        this]
      rfl
    | _ => rfl
  refine ⟨none, ?_⟩
  simp [namedLoad, Value.isNullish, intrinsicLoad?_eq, none, d.index,
    notGlobal]

/-! ### Running a stub -/

section Stands

variable (l : h₀.LoadOrigin spec id o name holder)
  (gd : Guarded rules h₀ h name holder id id' o o') (wrappers : rules.stringWrappers)
  (un : h.Unhidden (h₀.chainGuards (.object id) holder).absentChecks (.object id') name)

include l gd wrappers un

/-- A stub for an absent property stands for the general rules. -/
theorem LoadOrigin.stands_notFound (found : h₀.lookup (.object id) name = .notFound) :
    Stands h (loadByHandler spec (.object id') (.named name))
      (h.namedLoad (.object id') name) := by
  have handler := l.handler
  rw [found] at handler
  obtain ⟨hh, rfl⟩ := Prod.mk.inj (Option.some.inj handler)
  have later := gd.lookup_notFound l.proxy un found
  obtain ⟨-, eq⟩ := l.toLookupDecides.namedLoad_eq gd wrappers fun _ => later.trans found.symm
  rw [eq, later]
  exact stands_hit (v := .undefined) (by simp [loadByHandler, ← hh]) rfl

/-- A stub for an interceptor stands for the general rules. -/
theorem LoadOrigin.stands_interceptor {j : ObjectId}
    (found : h₀.lookup (.object id) name = .interceptor j) :
    Stands h (loadByHandler spec (.object id') (.named name))
      (h.namedLoad (.object id') name) := by
  have handler := l.handler
  rw [found] at handler
  obtain ⟨hh, hj⟩ := Prod.mk.inj (Option.some.inj handler)
  obtain ⟨k, x, x', e⟩ := gd.ends l.proxy un (by rw [found]; rfl) hj.symm
  have own : h.own k name = .interceptor k :=
    e.toTwin.own_interceptor gd.obeys₀ gd.grows e.real₀ e.real (e.own₀.trans found)
  have later := (e.found (by simp [own])).trans own
  obtain ⟨none, eq⟩ := l.toLookupDecides.namedLoad_eq gd wrappers (by simp [later])
  rw [eq]
  cases value : h.interceptorValue? k name with
  | some v =>
    refine stands_hit (g := h) (v := v) ?_ ?_
    · simp [loadByHandler, ← hh, Key.name?, e.stored, value]
    · simp [later, readLookup, value]
  | none =>
    refine stands_perform (c := getProperty (.object id') name) ?_ ?_
    · simp only [loadByHandler, Computation.get_bind, ← hh, Key.name?, e.stored, Option.bind_some,
        value]
    · simp only [getProperty, Computation.get_bind, none]

/-- Fields, constants and getters are found where they were. -/
theorem LoadOrigin.stands_described {j : ObjectId} {kind : PropertyKind} {a : Attributes}
    (found : h₀.lookup (.object id) name = .property j kind a) (hk : kind ≠ .normal) :
    Stands h (loadByHandler spec (.object id') (.named name))
      (h.namedLoad (.object id') name) := by
  have handler := l.handler
  rw [found] at handler
  obtain ⟨f, hf, hh⟩ := Option.map_eq_some_iff.1 handler
  obtain ⟨rfl, hj⟩ := Prod.mk.inj hh
  obtain ⟨k, x, x', e⟩ := gd.ends l.proxy un (by rw [found]; rfl) hj.symm
  have own₀ := e.own₀.trans found
  -- The lookup ends where the property is.
  have later (own : h.own k name = .property k kind a) : h.namedLoad (.object id') name =
      readLookup (.object id') (.property k kind a) name := by
    have later := (e.found (by simp [own])).trans own
    rw [(l.toLookupDecides.namedLoad_eq gd wrappers (by simp [later])).2, later]
  cases kind with
  | field i =>
    simp only [propertyLoadHandler?, Option.some.injEq] at hf
    rw [later (e.toTwin.own_described gd.obeys₀ gd.grows e.real₀ e.real hk rfl own₀)]
    refine stands_hit (v := h.fieldValue k i) ?_ rfl
    simp [loadByHandler, ← hf, e.stored, Outcome.ofOption]
  | constant v =>
    simp only [propertyLoadHandler?, Option.some.injEq] at hf
    rw [later (e.toTwin.own_described gd.obeys₀ gd.grows e.real₀ e.real hk rfl own₀)]
    exact stands_hit (v := v) (by simp [loadByHandler, ← hf]) rfl
  | normal => exact absurd rfl hk
  | accessor getter setter =>
    simp only [propertyLoadHandler?] at hf
    split at hf
    · rename_i hg
      simp only [Bool.and_eq_true] at hg
      obtain ⟨y, hy, fast⟩ := isFast_eq_true.1 hg.2
      obtain rfl := Option.some.inj (e.before.symm.trans hy)
      rw [later (e.toTwin.own_fast gd.obeys₀ gd.grows e.real₀ e.real fast own₀)]
      have callable := gd.grows.isCallable hg.1.1
      simp only [Option.some.injEq] at hf
      refine stands_perform (c := Heap.call getter (.object id') []) ?_ ?_
      · simp only [loadByHandler, Computation.get_bind, ← hf]
      · simp only [readLookup, readReal, callGetter, Computation.get_bind, callable, if_true]
    · cases hf

/-- Dictionary entries are found at the receiver itself or at the global object. -/
theorem LoadOrigin.stands_normal {j : ObjectId} {a : Attributes}
    (found : h₀.lookup (.object id) name = .property j .normal a) :
    Stands h (loadByHandler spec (.object id') (.named name))
      (h.namedLoad (.object id') name) := by
  have handler := l.handler
  rw [found] at handler
  obtain ⟨f, hf, hh⟩ := Option.map_eq_some_iff.1 handler
  obtain ⟨rfl, hj⟩ := Prod.mk.inj hh
  obtain ⟨k, x, x', e⟩ := gd.ends l.proxy un (by rw [found]; rfl) hj.symm
  have own₀ := e.own₀.trans found
  -- A dictionary entry is read from the global object, or from the receiver itself, which is
  -- then the holder.
  have load : loadByHandler spec (.object id') (.named name) h =
      (.ok (.ofOption (h.dictionaryValue? k name)), h) := by
    simp only [propertyLoadHandler?] at hf
    split at hf
    · rename_i hg
      obtain rfl := e.toTwin.eq_of_global gd.obeys₀ gd.obeys gd.grows hg
      simp only [Option.some.injEq] at hf
      simp [loadByHandler, ← hf, Key.name?]
    · split at hf
      · rename_i self
        have stored := e.stored
        rw [Holder.relativeTo, if_pos self] at stored
        simp only [Option.some.injEq] at hf
        simp [loadByHandler, ← hf, Key.name?, stored]
      · cases hf
  cases value : h.dictionaryValue? k name with
  | none => exact .inl (by rw [load, value]; rfl)
  | some v =>
    obtain ⟨a', own⟩ := e.toTwin.own_entry gd.obeys₀ gd.grows e.real₀ e.real own₀ value
    have later := (e.found (by simp [own])).trans own
    obtain ⟨-, eq⟩ := l.toLookupDecides.namedLoad_eq gd wrappers (by simp [later])
    rw [eq, later]
    refine stands_hit (v := v) (by rw [load, value]; rfl) ?_
    simp [readLookup, readReal, value]

/-- A stub for a lookup does what the lookup leads to now. -/
theorem LoadOrigin.stands : Stands h (loadByHandler spec (.object id') (.named name))
    (h.namedLoad (.object id') name) := by
  cases found : h₀.lookup (.object id) name with
  | notFound => exact l.stands_notFound gd wrappers un found
  | property j kind a =>
    by_cases hk : kind = .normal
    · subst hk
      exact l.stands_normal gd wrappers un found
    · exact l.stands_described gd wrappers un found hk
  | interceptor j => exact l.stands_interceptor gd wrappers un found
  | transition j t d =>
    have handler := l.handler
    simp [found, loadHandler?] at handler

end Stands

end Found

/-! ### Stubs for properties that no shape describes -/

/-- A stub for an intrinsic property stands for the general rules if they give what it gives. -/
theorem stands_intrinsic {receiver : Value} {a : Action Outcome} {answer : Option Value}
    (ha : a h = (.ok (.ofOption answer), h))
    (hv : ∀ v, answer = some v → h.intrinsicLoad? receiver name = some v) :
    Stands h a (h.namedLoad receiver name) := by
  cases answer with
  | none => exact .inl ha
  | some v =>
    have proper : receiver.isNullish = false := by
      have e := hv v rfl
      cases receiver <;> first | rfl | simp [intrinsicLoad?, intrinsicHandler?, isStringWrapper,
        isString, isArray, isFunction, classOf?, get?, asObject?, Value.objectId?] at e
    refine stands_hit ha ?_
    simp [namedLoad, proper, hv v rfl]

/-- What stubs for such a property do, where their guards hold. -/
theorem loadIntrinsic_stands {spec : StubSpec} (origin : spec.Origin h₀)
    (intrinsic : spec.handler.isIntrinsic) {receiver : Value}
    (hold : h.guardsHold spec receiver (some name)) (key : Key) :
    h.Stands (loadByHandler spec receiver key) (h.namedLoad receiver name) := by
  -- The guards hold for the name that the stub was compiled for, so the intrinsic read is the
  -- one it stands for.
  have same {n : Name} (hn : spec.name = some n) : name = n :=
    Option.some.inj (guardsHold_name hold hn)
  cases hh : spec.handler with
  | loadStringLength =>
    obtain rfl := same (by simpa [StubSpec.Origin, hh] using origin)
    refine stands_intrinsic (by simp only [loadByHandler, Computation.get_bind, hh]; rfl)
      fun v hv => ?_
    obtain ⟨t, ht, rfl⟩ := Option.map_eq_some_iff.1 hv
    exact intrinsicLoad?_string ht
  | loadStringWrapperLength =>
    obtain rfl := same (by simpa [StubSpec.Origin, hh] using origin)
    by_cases hw : h.isStringWrapper receiver
    · refine stands_intrinsic (by
        simp only [loadByHandler, Computation.get_bind, hh, hw, if_true]
        rfl) fun v hv => ?_
      obtain ⟨n, hn, rfl⟩ : ∃ n, h.stringLength? receiver = some n ∧ Value.smi n = v := by
        simpa [Option.bind_eq_some_iff] using hv
      exact intrinsicLoad?_wrapper hw hn
    · exact .inl (by simp [loadByHandler, hh, hw])
  | loadArrayLength =>
    obtain rfl := same (by simpa [StubSpec.Origin, hh] using origin)
    refine stands_intrinsic (by simp only [loadByHandler, Computation.get_bind, hh]; rfl)
      fun v hv => ?_
    obtain ⟨n, hn, rfl⟩ : ∃ n, h.arrayLength? receiver = some n ∧ Value.smi n = v := by
      simpa [Option.bind_eq_some_iff] using hv
    exact intrinsicLoad?_array hn
  | loadFunctionPrototype =>
    obtain rfl := same (by simpa [StubSpec.Origin, hh] using origin)
    refine stands_intrinsic (by simp only [loadByHandler, Computation.get_bind, hh]; rfl)
      fun v hv => ?_
    obtain ⟨d, hd, rfl⟩ := Option.map_eq_some_iff.1 hv
    exact intrinsicLoad?_function hd
  | storeArrayLength => exact .inl (by simp [loadByHandler, hh])
  | _ => simp [Handler.isIntrinsic, hh] at intrinsic

/-! ### Stubs -/

/-- A name is no index of a character. -/
theorem loadCharacter_named (receiver : Value) (name : Name) :
    loadCharacter receiver (.named name) h = (.ok .miss, h) := by
  simp only [loadCharacter, Computation.get_bind, Key.elementIndex?]
  rfl

/-- Handlers that load elements miss every name. -/
theorem loadByHandler_misses_name {spec : StubSpec} (elements : spec.handler.loadsElements)
    (receiver : Value) (name : Name) : h.Misses (loadByHandler spec receiver (.named name)) := by
  cases hh : spec.handler with
  | loadElement => exact .inr (by simp [loadByHandler, hh, loadElement, Key.elementIndex?])
  | loadElementPolymorphic targets =>
    cases ht : h.targetFor? spec.receiverShapes targets receiver with
    | none => exact .inl (by simp [loadByHandler, hh, ht])
    | some target =>
      cases target with
      | elements kind =>
        exact .inr (by simp [loadByHandler, hh, ht, loadElement, Key.elementIndex?])
      | string => exact .inl (by simp [loadByHandler, hh, ht, loadCharacter_named])
  | loadIndexedString => exact .inl (by simp [loadByHandler, hh, loadCharacter_named])
  | loadNonStrictArguments =>
    exact .inl (by simp [loadByHandler, hh, loadArgument, Key.elementIndex?])
  | _ => simp [Handler.loadsElements, hh] at elements

end Heap

/-- The guards of a stub overlook nothing above a receiver that passes them. -/
def Heap.Trusts (h : Heap) (spec : StubSpec) (receiver : Value) (name : Name) : Prop :=
  h.Passes spec receiver name → h.Unhidden spec.absentChecks receiver name

/-- Where no object above the receiver has anything that guards could overlook, none do. -/
theorem Heap.trusts_of_unhidden {h : Heap} {receiver : Value} {name : Name}
    (above : ∀ j ∈ h.chain (h.prototypeOf receiver), (h.object? j).isSome ∧
      h.hidesAccessor j name = false ∧ h.hidesInterceptor j = false) (spec : StubSpec) :
    h.Trusts spec receiver name := fun _ =>
  ⟨⟨fun j hj => (above j hj).1, fun j hj _ => (above j hj).2.1⟩, fun j hj _ => (above j hj).2.2⟩

/-- Only sites that have gone generic have the generic stub. -/
theorem StubSpec.Sound.not_generic {rules : Rules} {h : Heap} {spec : StubSpec}
    (sound : spec.Sound rules h) (state : spec.state ≠ .generic) : spec.handler ≠ .generic := by
  obtain ⟨h₀, -, -, -, -, origin⟩ := sound
  intro hh
  simp only [Origin, hh] at origin
  exact state origin

/-- A stub either misses or does what a load by the general rules does. -/
theorem StubSpec.Sound.runLoad_namedLoad {rules : Rules} {h : Heap} {spec : StubSpec}
    (s : spec.Sound rules h) (ob : h.Obeys rules) (wrappers : rules.stringWrappers)
    (special : spec.handler ≠ .generic) {receiver : Value} (name : Name)
    (trusts : h.Trusts spec receiver name) :
    h.Stands (Heap.runLoad spec receiver (.named name)) (h.namedLoad receiver name) := by
  -- Behind guards that fail, every handler misses.
  have guarded (run : h.guardsHold spec receiver (some name) →
      h.Stands (Heap.loadByHandler spec receiver (.named name)) (h.namedLoad receiver name)) :
      h.Stands (do
        if (← get).guardsHold spec receiver ((Key.named name).name? (← get)) then
          Heap.loadByHandler spec receiver (.named name)
        else return .miss) (h.namedLoad receiver name) := by
    by_cases hold : h.guardsHold spec receiver (some name)
    · simpa only [Heap.Stands, Computation.get_bind, Key.name?, hold, if_true] using run hold
    · exact .inl (by simp [Key.name?, hold])
  -- A handler compiled from a lookup stands by the heap it was made in.
  have looked (hold : h.guardsHold spec receiver (some name))
      (named : ∀ h₀, spec.Origin h₀ → ∃ id o name holder, h₀.LoadOrigin spec id o name holder) :
      h.Stands (Heap.loadByHandler spec receiver (.named name)) (h.namedLoad receiver name) := by
    obtain ⟨h₀, name, holder, id, id', o, o', l, e, rfl, gd⟩ := s.load ob hold named
    obtain rfl := Option.some.inj e
    obtain ⟨passes, asked⟩ := Heap.passes_of_guardsHold l.guards hold
    exact l.stands gd wrappers (asked ▸ trusts passes)
  obtain ⟨h₁, -, -, -, -, origin, -⟩ := id s
  unfold Heap.runLoad
  cases hh : spec.handler with
  | fresh | premonomorphic | megamorphic => exact .inl rfl
  | generic => exact absurd hh special
  | loadField | loadConstant | loadNonexistent | loadNormal | loadGlobal | loadViaGetter
  | loadInterceptor =>
    exact guarded fun hold => looked hold fun _ c => by simpa [StubSpec.Origin, hh] using c
  | loadStringLength | loadStringWrapperLength | loadArrayLength | loadFunctionPrototype =>
    exact guarded fun hold => Heap.loadIntrinsic_stands origin (by rw [hh]; rfl) hold _
  | loadElement | loadElementPolymorphic | loadIndexedString | loadNonStrictArguments =>
    exact guarded fun _ =>
      (Heap.loadByHandler_misses_name (by rw [hh]; rfl) receiver name).stands _
  | _ => exact guarded fun _ => .inl (by simp [Heap.loadByHandler, hh])

/-! ### Loads through sites -/

namespace AtSite

variable {rules : Rules} {s : AtSite}

/-- A load through a site that is not generic loads by the general rules. -/
theorem load_performs (ss : s.Sound rules) (wrappers : rules.stringWrappers)
    (specialized : s.site.targetState ≠ .generic) {receiver : Value} (name : Name)
    (fast : ∀ j ∈ s.engine.heap.chain (s.engine.heap.prototypeOf receiver),
      s.engine.heap.isFast j) :
    Performs rules s (load receiver name) (s.engine.heap.namedLoad receiver name) := by
  have trusts : ∀ spec, s.engine.heap.Trusts spec receiver name := fun spec _ =>
    ss.engine.heap.unhidden_of_fastAbove fast spec.absentChecks name
  simp only [load, dispatchLoad_eq, bind_assoc]
  obtain ⟨found, t, e, k, -, heap, hf⟩ := consult_kept ss receiver (.named name)
  refine k.bind_performs e ?_
  rw [← heap]
  cases found with
  | none => exact resolveLoad_performs k.sound receiver name
  | some spec =>
    obtain ⟨-, sound, -, runs⟩ := hf spec rfl
    rw [← heap] at sound trusts
    -- The stub run is the site's own, which is not generic, or one of the archive, where all are
    -- monomorphic.
    have state : spec.state ≠ .generic := by
      rcases runs with rfl | state
      · exact specialized
      · simp [state]
    have ob := k.sound.engine.heap
    exact stands_performs k.sound (Heap.runLoad_leads ob receiver _)
      (sound.runLoad_namedLoad ob wrappers (sound.not_generic state) name (trusts spec))
      (resolveLoad_performs k.sound receiver name)

end AtSite

/-- **Loads through sites are transparent.** In every session of a program whose string wrappers
wrap strings, a load through a site gives the result of a load through a new site and leaves the
same objects and shapes, whatever the site has cached. A getter may be any function of the host that
does not look at the stubs of shapes; one that does sees what the site has made of them. -/
theorem load_transparent {session : Session}
    (reachable : session.Reachable { stringWrappers := true })
    (sees : session.engine.heap.host.Blind) {site : Site}
    (made : site ∈ session.sites) (specialized : site.targetState ≠ .generic) (mode : SiteMode)
    (receiver : Value) (name : Name)
    (fast : ∀ id ∈ session.engine.heap.chain (session.engine.heap.prototypeOf receiver),
      session.engine.heap.isFast id) :
    let (fresh, engine) := session.engine.newSite .load mode
    let cached := AtSite.load receiver name ⟨site, session.engine⟩
    let uncached := AtSite.load receiver name ⟨fresh, engine⟩
    cached.1 = uncached.1 ∧ cached.2.engine.heap.bare = uncached.2.engine.heap.bare := by
  have sound := reachable.sound
  have old := AtSite.load_performs (sound.atSite made) rfl specialized name fast
  have sound' := sound.perform (.newSite .load mode) trivial
  have state : (session.engine.newSite .load mode).1.targetState = .uninitialized :=
    congrArg StubSpec.state (StubTable.spec_request session.engine.stubs (.fresh .load mode))
  have new := AtSite.load_performs (s := ⟨_, (session.engine.newSite .load mode).2⟩)
    (sound'.atSite (List.mem_append_right _ (List.mem_singleton_self _))) rfl
    (by simp [state]) name fast
  have blind := session.engine.heap.blind_namedLoad sees.setting receiver name
  exact ⟨(old.result blind).trans (new.result blind).symm, (old.heap blind).trans (new.heap blind).symm⟩

/-- The third load of an absent property through the same site, by a specialized stub. -/
theorem load_transparent_absent :
    let name : Name := ⟨"x"⟩
    let receiver : Value := .object Heap.arrayPrototype
    let load : Operation := .atSite 0 (.load receiver name)
    let session := (Session.ofConfig {}).run [.newSite .load {}, load, load]
    ∃ site ∈ session.sites, site.targetState = .monomorphic ∧
      (AtSite.load receiver name ⟨site, session.engine⟩).1 =
        (AtSite.load receiver name ⟨(session.engine.newSite .load {}).1,
          (session.engine.newSite .load {}).2⟩).1 := by
  intro name receiver load session
  have allowed : (Session.ofConfig {}).AllowedRun { stringWrappers := true }
      [.newSite .load {}, load, load] := ⟨trivial, trivial, trivial, trivial⟩
  have reachable : session.Reachable { stringWrappers := true } := .run (.initial {}) allowed
  have sees : session.engine.heap.host.Blind := Session.blind_idle_run rfl allowed
  have made : session.sites ≠ [] := by decide +kernel
  have states : ∀ site ∈ session.sites, site.targetState = .monomorphic := by decide +kernel
  have state := states _ (List.head_mem made)
  refine ⟨session.sites.head made, List.head_mem made, state, ?_⟩
  exact (load_transparent reachable sees (List.head_mem made) (by simp [state]) {} receiver name
    (by decide +kernel)).1

end Speculation
