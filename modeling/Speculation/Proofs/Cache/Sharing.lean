import Speculation.Proofs.Cache.Callee
import Speculation.Proofs.Cache.Session
import Speculation.Proofs.Cache.Steps

/-!
# What enters the stub cache

A site shares stubs in two ways: the stub that a resolver has just made, and the stub that a
monomorphic site held when it goes megamorphic. Both are entered under the name of the access that
missed. The first one was made for that name and for the receiver of the access, so its key describes
it (`Heap.answers_of_monomorphic`, `DirectCall.answers`). Of the second one this is known only if the
site was used under one name (`Archives`).

`Engine.Admits may` says that from one engine to a later one nothing else has entered the stub cache
than what `may` be there, and that the configuration is the same. It holds across every operation at a
site (`SiteOperation.admits`) and across everything that a program does (`Session.perform_admits`).
-/

namespace Speculation

variable {rules : Rules}

/-- The key says what the stub is for. -/
structure StubKey.Describes (key : StubKey) (stub : Stub) : Prop where
  state : stub.state = .monomorphic
  kind : stub.kind = key.kind
  name : stub.name = some key.name
  shape : stub.probeShape? = some key.shape

/-- What may be in the stub cache. -/
abbrev StubKey.Admission := StubKey → Stub → Prop

/-- From one engine to a later one the configuration stays, and what has entered the stub cache
may be there. -/
structure Engine.Admits (may : StubKey.Admission) (e e' : Engine) : Prop where
  config : e'.config = e.config
  cached : ∀ {key : StubKey} {stub : Stub}, e'.stubCache.peek? key = some stub →
    e.stubCache.peek? key = some stub ∨ may key stub

namespace Engine.Admits

variable {may : StubKey.Admission} {e e' e'' : Engine}

theorem of_eq (config : e'.config = e.config) (cache : e'.stubCache = e.stubCache) :
    Admits may e e' := ⟨config, fun h => .inl (cache ▸ h)⟩

theorem refl (e : Engine) : Admits may e e := .of_eq rfl rfl

theorem trans (a : Admits may e e') (b : Admits may e' e'') : Admits may e e'' :=
  ⟨b.config.trans a.config, fun h => (b.cached h).elim a.cached .inr⟩

end Engine.Admits

/-! ### Stubs and their keys -/

namespace Heap

variable {h : Heap} {kind : SiteKind} {mode : SiteMode} {receiver : Value} {name : Name}
  {stub : Stub}

/-- Where a megamorphic site would look for a stub for an access, the key describes the stub. -/
def Answers (h : Heap) (kind : SiteKind) (receiver : Value) (name : Name) (stub : Stub) : Prop :=
  ∀ shape, h.probeShape? kind receiver = some shape → StubKey.Describes ⟨name, shape, kind⟩ stub

theorem probeShape?_bare (h : Heap) (kind : SiteKind) (receiver : Value) :
    h.bare.probeShape? kind receiver = h.probeShape? kind receiver := by
  have mapOf (v : Value) : h.bare.mapOf? v = h.mapOf? v := rfl
  have immediate : h.bare.receiverShape? receiver = h.receiverShape? receiver := by
    cases receiver <;> rfl
  simp only [probeShape?, isJsObject_bare, prototypeOf_bare, mapOf, immediate]

theorem Answers.of_bare {h' : Heap} (a : h.Answers kind receiver name stub)
    (e : h'.bare = h.bare) : h'.Answers kind receiver name stub := by
  intro shape hs
  rw [← probeShape?_bare, e, probeShape?_bare] at hs
  exact a shape hs

/-- An object is looked for under its own shape. -/
theorem probeShape?_object {id : ObjectId} {o : JsObject} (ho : h.object? id = some o) :
    h.probeShape? kind (.object id) = some o.shape := by
  simp only [probeShape?, isJsObject_object ho, Bool.not_true, Bool.and_false, Bool.false_eq_true,
    if_false]
  exact mapOf?_object ho

/-- A stub made for an object is found under the shape of the object. -/
theorem answers_of_monomorphic {handler : Handler} {holder : Option ObjectId}
    (object : h.isJsObject receiver)
    (hs : h.monomorphicSpec? kind mode handler receiver holder name = some stub.spec) :
    h.Answers kind receiver name stub := by
  obtain ⟨state, named, -⟩ := monomorphicSpec?_specialized hs
  obtain ⟨sameKind, -, -⟩ := monomorphicSpec?_eq_some hs
  obtain ⟨shape, hr, e⟩ := Option.map_eq_some_iff.1 hs
  intro shape' hp
  simp only [probeShape?, object, Bool.not_true, Bool.and_false, Bool.false_eq_true, if_false, hr,
    Option.some.injEq] at hp
  subst hp
  refine ⟨state, sameKind, named, ?_⟩
  simp [Stub.probeShape?, Stub.firstShape?, ← e, cacheHolder, object]

/-- The prototype of a primitive receiver is the first object that a stub for a call pins. -/
theorem firstGuard_of_primitive (ob : h.Obeys rules) (primitive : ¬ h.isJsObject receiver)
    {holder : ObjectId} (direct : h.dictionaryBefore receiver holder = false)
    (known : (h.object? holder).isSome) {p : ObjectId} (hp : h.prototypeOf receiver = .object p)
    {o : JsObject} (ho : h.object? p = some o) :
    (h.guardsAlong (some holder) (h.chain (.object p))).prototypeChecks.head? =
      some (p, o.shape) := by
  rw [ob.chain_object]
  simp only [guardsAlong, ho]
  by_cases e : p = holder
  · simp [e]
  · have chain : h.chain (h.lookupStart receiver) = [p] ++ h.chain (h.prototypeOf (.object p)) := by
      simp only [lookupStart, primitive, Bool.false_eq_true, if_false, hp, ob.chain_object,
        List.singleton_append]
    obtain ⟨o', ho', fast⟩ := isFast_eq_true.1 (isFast_of_dictionaryBefore ob direct known chain
      (by simpa using e) (List.mem_singleton_self p) ho)
    obtain rfl := Option.some.inj (ho.symm.trans ho')
    simp [e, fast]

/-- Whose shape a stub stands under is decided by the receiver that it was made for. -/
theorem MadeFor.cacheHolder_eq {spec : StubSpec} {holder : Option ObjectId}
    (m : h.MadeFor spec receiver name holder) : spec.cacheHolder = h.cacheHolder receiver := by
  obtain ⟨shape, -, e⟩ := Option.map_eq_some_iff.1 m.guards
  exact (congrArg StubSpec.cacheHolder e).symm

/-- A stub made for a primitive receiver is found under the shape of the prototype of the receiver,
which it pins. -/
theorem MadeFor.firstGuard {holder : Option ObjectId} (m : h.MadeFor stub.spec receiver name holder)
    (ob : h.Obeys rules) (primitive : ¬ h.isJsObject receiver) :
    ∃ p o, h.prototypeOf receiver = .object p ∧ h.object? p = some o ∧
      (h.guardsAlong holder (h.chain (h.prototypeOf receiver))).prototypeChecks.head? =
        some (p, o.shape) ∧ stub.probeShape? = some o.shape := by
  obtain ⟨j, rfl, found, direct⟩ := m.direct.resolve_left primitive
  obtain ⟨-, x, hx⟩ := ob.holder_of_lookup found
  have before : h.dictionaryBefore receiver j = false := by
    refine direct.resolve_left ?_
    rintro rfl
    exact primitive (isJsObject_object hx)
  obtain ⟨shape, hs, e⟩ := Option.map_eq_some_iff.1 m.guards
  obtain ⟨p, hp⟩ : ∃ p, h.prototypeOf receiver = .object p := by
    rcases primitive_of_receiverShape? (by simpa using primitive) hs with ⟨-, hp⟩ | ⟨-, hp⟩ <;>
      exact ⟨_, hp⟩
  obtain ⟨o, ho⟩ := ob.object_of_primitive primitive hp
  have first := firstGuard_of_primitive ob primitive before (by simp [hx]) hp ho
  have none : h.asObject? receiver = none := by simpa [isJsObject] using primitive
  have filed : stub.spec.cacheHolder = .prototypeShape := m.cacheHolder_eq.trans (if_neg primitive)
  have checks : stub.spec.prototypeChecks =
      (h.guardsAlong (some j) (h.chain (.object p))).prototypeChecks := by
    rw [← e]
    simp only [chainGuards, none, hp]
  refine ⟨p, o, hp, ho, hp ▸ first, ?_⟩
  simp only [Stub.probeShape?, filed, checks, first, Option.map_some]

/-! ### Computed keys -/

/-- A key that is a name does not become another one. -/
theorem name?_unique {h' : Heap} (g : h.Grows h') {key : Value} {name' : Name}
    (hn : (Key.computed key).name? h = some name)
    (hn' : (Key.computed key).name? h' = some name') : name' = name := by
  obtain ⟨⟨i, hk⟩, -⟩ := string_of_name? hn
  obtain ⟨⟨i', hk'⟩, -⟩ := string_of_name? hn'
  obtain ⟨id, hid, hc⟩ := Option.bind_eq_some_iff.1 hk
  have kept : h'.get? key = some (.string name.text i) :=
    Option.bind_eq_some_iff.2 ⟨id, hid, g.primitive hc (by simp)⟩
  rw [kept] at hk'
  cases name
  cases name'
  cases hk'
  rfl

/-- The handler of a call only looks at the heap for a key that is no name. -/
theorem calleeByHandler_unnamed {spec : StubSpec} (receiver : Value) {key : Key}
    (unnamed : key.name? h = none) (args : List Value) :
    (calleeByHandler spec receiver key args h).2 = h := by
  simp only [calleeByHandler, Computation.get_bind, unnamed]
  cases spec.handler with
  | callConstant f =>
    dsimp only
    split <;> rfl
  | callArguments =>
    dsimp only
    cases h.loadArgument receiver key <;> rfl
  | _ => rfl

/-- A stub for calls leaves the heap as it is for a key that is no name. -/
theorem runCall_unnamed {spec : StubSpec} (special : spec.handler ≠ .generic) (receiver : Value)
    {key : Key} (unnamed : key.name? h = none) (args : List Value) :
    (runCall spec receiver key args h).2 = h := by
  have guarded : (guardedCall spec receiver key args h).2 = h := by
    simp only [guardedCall, Computation.get_bind]
    split
    · exact calleeByHandler_unnamed receiver unnamed args
    · rfl
  unfold runCall
  cases hh : spec.handler with
  | fresh | premonomorphic | megamorphic => rfl
  | generic => exact absurd hh special
  | _ => exact guarded

end Heap

namespace AtSite

variable {s : AtSite} {α β : Type}

/-- A stub for a call is found under the shape of an object or of the prototype of a primitive
receiver. -/
theorem DirectCall.answers {h : Heap} (ob : h.Obeys rules) {kind : SiteKind} {mode : SiteMode}
    (call : kind.isCall) {receiver : Value} {name : Name} (direct : DirectCall h receiver name)
    {stub : Stub}
    (hs : h.callSpec? kind mode receiver name (h.lookup receiver name) = some stub.spec) :
    h.Answers kind receiver name stub := by
  obtain ⟨state, named, -⟩ := Heap.callSpec?_specialized hs
  obtain ⟨rfl, holder, co⟩ := Heap.callOrigin_of_callSpec? direct hs
  by_cases object : h.isJsObject receiver
  · exact Heap.answers_of_monomorphic object co.guards
  obtain ⟨p, o, prototype, ho, -, found⟩ := co.madeFor.firstGuard ob object
  intro shape hp
  obtain rfl : o.shape = shape := by
    simpa [Heap.probeShape?, call, object, prototype, Heap.mapOf?_object ho] using hp
  exact ⟨state, rfl, named, found⟩

/-! ### Actions that share nothing -/

/-- What is in the stub cache after an action was there before or may be there, and the configuration
is the same. -/
def Admits (may : StubKey.Admission) (s : AtSite) (a : Action α) : Prop :=
  s.engine.Admits may (a s).2.engine

section Rules

variable {may : StubKey.Admission}

theorem admits_pure {x : α} : Admits may s (pure x) := .refl _

theorem admits_throw {e : Fault} : Admits may s (throw e : Action α) := .refl _

theorem admits_onHeap (a : Heap.Action α) : Admits may s (onHeap a) := .of_eq rfl rfl

/-- The rule for sequences. -/
theorem Admits.bind {a : Action α} {f : α → Action β} (ha : Admits may s a)
    (next : ∀ x t, a s = (.ok x, t) → Admits may t (f x)) : Admits may s (a >>= f) := by
  rcases e : a s with ⟨_ | x, t⟩
  · rw [Admits, e] at ha
    rwa [Admits, Computation.bind_error e]
  · rw [Admits, e] at ha
    rw [Admits, Computation.bind_ok e]
    exact ha.trans (next x t e)

theorem admits_if {c : Prop} [Decidable c] {a b : Action α} (ha : c → Admits may s a)
    (hb : ¬ c → Admits may s b) : Admits may s (if c then a else b) := by
  split
  · exact ha ‹_›
  · exact hb ‹_›

theorem admits_ite {c : Prop} [Decidable c] {a b : Action α} (ha : Admits may s a)
    (hb : Admits may s b) : Admits may s (if c then a else b) :=
  admits_if (fun _ => ha) fun _ => hb

@[simp] theorem admits_heap {f : Heap → Action α} :
    Admits may s (heap >>= f) ↔ Admits may s (f s.engine.heap) := Iff.rfl

@[simp] theorem admits_current {f : Site → Action α} :
    Admits may s (current >>= f) ↔ Admits may s (f s.site) := Iff.rfl

@[simp] theorem admits_config {f : Config → Action α} :
    Admits may s (config >>= f) ↔ Admits may s (f s.engine.config) := Iff.rfl

@[simp] theorem admits_get {f : AtSite → Action α} :
    Admits may s (get >>= f) ↔ Admits may s (f s) := Iff.rfl

theorem request_admits (spec : StubSpec) : Admits may s (request spec) := .of_eq rfl rfl

theorem requestFiled_admits (receiver : Value) (name : Name) (spec : StubSpec) :
    Admits may s (requestFiled receiver name spec) := by
  simp only [requestFiled, admits_heap]
  split
  · exact admits_pure
  · split
    · exact admits_pure
    · exact (request_admits spec).bind fun stub t _ => .of_eq rfl rfl

theorem install_admits (stub : Stub) : Admits may s (install stub) := by
  simp only [install, admits_config]
  exact admits_ite (.of_eq rfl rfl) admits_pure

theorem requestInstall_admits (spec : StubSpec) : Admits may s (do install (← request spec)) :=
  (request_admits spec).bind fun stub _ _ => install_admits stub

theorem trace_admits (text : String) : Admits may s (trace text) := by
  simp only [trace, admits_config]
  exact admits_ite (.of_eq rfl rfl) admits_pure

theorem traceMiss_admits (key : String) (old : SiteState) : Admits may s (traceMiss key old) := by
  simp only [traceMiss, admits_current]
  exact trace_admits _

theorem installTraced_admits (spec : StubSpec) (key : String) (old : SiteState) :
    Admits may s (installTraced spec key old) :=
  (request_admits spec).bind fun stub _ _ =>
    (install_admits stub).bind fun _ _ _ => traceMiss_admits key old

theorem unfile_admits (stub : Stub) (receiver : Value) (name : Name) :
    Admits may s (unfile stub receiver name) := by
  simp only [unfile, admits_heap]
  split
  · exact admits_pure
  · exact admits_ite (.of_eq rfl rfl) admits_pure

theorem stateOfMiss_admits (receiver : Value) (name : Name) :
    Admits may s (stateOfMiss receiver name) := by
  simp only [stateOfMiss, admits_current]
  refine admits_ite ?_ admits_pure
  exact (unfile_admits _ receiver name).bind fun _ _ _ => admits_pure

theorem realize_admits (receiver : Value) (name : Name) (plan : StubPlan) :
    Admits may s (realize receiver name plan) := by
  cases plan with
  | common spec => exact (request_admits spec).bind fun _ _ _ => admits_pure
  | filed spec => exact requestFiled_admits receiver name spec

/-- Looking into the stub cache only counts. -/
theorem probe_admits (stub : Stub) (receiver : Value) (key : Key) :
    Admits may s (probe stub receiver key) := by
  simp only [probe, admits_heap]
  split
  · simp only [admits_get]
    refine Admits.bind ⟨rfl, fun h => .inl (StubCache.peek?_get h)⟩ fun _ t _ => ?_
    split <;> exact admits_pure
  · exact admits_pure

theorem dispatchLoad_admits (receiver : Value) (key : Key) :
    Admits may s (dispatchLoad receiver key) := by
  simp only [dispatchLoad, admits_current]
  refine admits_ite ((probe_admits ..).bind fun r _ _ => ?_) (admits_onHeap _)
  cases r with
  | some spec => exact admits_onHeap _
  | none => exact admits_pure

theorem dispatchStore_admits (receiver : Value) (key : Key) (v : Value) :
    Admits may s (dispatchStore receiver key v) := by
  simp only [dispatchStore, admits_current]
  refine admits_ite ((probe_admits ..).bind fun r _ _ => ?_) (admits_onHeap _)
  cases r with
  | some spec => exact admits_onHeap _
  | none => exact admits_pure

theorem dispatchCall_admits (receiver : Value) (key : Key) (args : List Value) :
    Admits may s (dispatchCall receiver key args) := by
  simp only [dispatchCall, admits_current]
  refine admits_ite ((probe_admits ..).bind fun r _ _ => ?_) (admits_onHeap _)
  have general {t : AtSite} : Admits may t (if s.site.target.kind = .call then pure .miss
      else onHeap (Heap.calleeByKey receiver key)) := admits_ite admits_pure (admits_onHeap _)
  cases r with
  | some spec =>
    refine (admits_onHeap _).bind fun found _ _ => ?_
    cases found with
    | hit f => exact admits_pure
    | miss | missForGood => exact general
  | none =>
    refine admits_pure.bind fun found _ e => ?_
    cases e
    exact general

theorem resolveIntrinsic_admits (old : SiteState) (receiver : Value) (name : Name) :
    Admits may s (resolveIntrinsic old receiver name) := by
  simp only [resolveIntrinsic, admits_heap]
  split
  · simp only [admits_config]
    refine admits_ite ?_ admits_pure
    simp only [admits_current]
    split
    · exact admits_pure
    · refine (request_admits _).bind fun stub _ _ => ?_
      refine (install_admits stub).bind fun _ _ _ => ?_
      exact (traceMiss_admits _ old).bind fun _ _ _ => admits_pure
  · exact admits_pure

theorem settle_admits (d : Except GiveUp StubSpec) : Admits may s (settle d) := by
  cases d with
  | ok spec => exact request_admits spec
  | error why =>
    simp only [settle, admits_current]
    exact (trace_admits _).bind fun _ _ _ => request_admits _

theorem keyedStoreStub_admits (receiver key v : Value) (force : Bool) :
    Admits may s (keyedStoreStub receiver key v force) := by
  simp only [keyedStoreStub, admits_heap, admits_current]
  refine admits_ite (settle_admits _) ?_
  split
  · exact request_admits _
  · refine admits_ite (request_admits _) (admits_ite ?_ (request_admits _))
    split
    · exact request_admits _
    · split
      · refine (admits_onHeap _).bind fun _ t _ => ?_
        simp only [admits_heap, admits_config]
        exact settle_admits _
      · refine admits_pure.bind fun _ t _ => ?_
        simp only [admits_heap, admits_config]
        exact settle_admits _

theorem callStub_admits (mode : SiteMode) (receiver : Value) (name : Name) (found : Lookup) :
    Admits may s (callStub mode receiver name found) := by
  simp only [callStub, admits_heap, admits_current]
  split
  · exact admits_pure
  · exact requestFiled_admits receiver name _

theorem chooseCall_admits (old : SiteState) (receiver : Value) (name : Name) (found : Lookup)
    (args : List Value) : Admits may s (chooseCall old receiver name found args) := by
  have made (state : SiteState) (mode : SiteMode) {t : AtSite} :
      Admits may t (do return (state, ← callStub mode receiver name found)) :=
    (callStub_admits mode receiver name found).bind fun _ _ _ => admits_pure
  have simple (state : SiteState) (spec : StubSpec) {t : AtSite} :
      Admits may t (do return (state, some (← request spec))) :=
    (request_admits spec).bind fun _ _ _ => admits_pure
  simp only [chooseCall, admits_heap, admits_current]
  split
  · exact admits_ite (simple _ _) (made _ _)
  · split
    · exact made _ _
    · refine admits_ite ((unfile_admits ..).bind fun stale _ _ => ?_)
        (admits_pure.bind fun stale _ _ => ?_)
      all_goals exact admits_ite (made _ _) (simple _ _)
  · exact made _ _

theorem record_admits (text : String) (spec : StubSpec) : Admits may s (record text spec) :=
  (trace_admits text).bind fun _ _ _ => requestInstall_admits spec

theorem foreign_admits (text : String) : Admits may s (foreign text : Action α) := by
  simp only [foreign, admits_current]
  exact admits_throw

theorem compare_admits (x y : Value) : Admits may s (compare x y) := by
  simp only [compare, admits_current]
  split
  · simp only [admits_heap]
    exact admits_ite ((record_admits _ _).bind fun _ _ _ => admits_pure) admits_pure
  · exact foreign_admits _

theorem unary_admits (x : Value) : Admits may s (unary x) := by
  simp only [unary, admits_current]
  split
  · refine (admits_onHeap _).bind fun result t _ => ?_
    simp only [admits_heap]
    exact admits_ite ((record_admits _ _).bind fun _ _ _ => admits_pure) admits_pure
  · exact foreign_admits _

theorem binary_admits (x y : Value) : Admits may s (binary x y) := by
  simp only [binary, admits_current]
  split
  · refine (admits_onHeap _).bind fun result t _ => ?_
    simp only [admits_heap]
    exact admits_ite ((record_admits _ _).bind fun _ _ _ => admits_pure) admits_pure
  · exact foreign_admits _

theorem toBoolean_admits (x : Value) : Admits may s (toBoolean x) := by
  simp only [toBoolean, admits_current]
  split
  · simp only [admits_heap]
    exact admits_ite ((record_admits _ _).bind fun _ _ _ => admits_pure) admits_pure
  · exact foreign_admits _

theorem clear_admits : Admits may s clear := by
  have reset (spec : StubSpec) : Admits may s (do
      let stub ← request spec
      modify fun s => { s with site := s.site.patch stub }) :=
    (request_admits spec).bind fun _ _ _ => .of_eq rfl rfl
  simp only [clear, admits_current]
  refine admits_ite admits_pure ?_
  split
  · exact admits_ite (reset _) admits_pure
  · exact admits_pure
  · exact admits_pure
  · exact admits_pure
  · exact admits_pure
  · exact reset _

end Rules

/-! ### Actions that share stubs -/

/-- What a monomorphic site holds may be entered under a name. -/
def Archives (may : StubKey.Admission) (site : Site) (name : Name) : Prop :=
  site.kind.usesStubCache → site.targetState = .monomorphic → ∀ shape,
    site.target.probeShape? = some shape → may ⟨name, shape, site.target.kind⟩ site.target

/-- Only the stubs of shapes change while a stub is made. -/
theorem realize_bare (receiver : Value) (name : Name) (plan : StubPlan) :
    (realize receiver name plan s).2.engine.heap.bare = s.engine.heap.bare := by
  cases plan with
  | common spec => rfl
  | filed spec =>
    have read (f : Heap → Action (Option Stub)) : (heap >>= f) s = f s.engine.heap s := rfl
    simp only [realize, requestFiled, read]
    cases s.engine.heap.filingShape? receiver spec.cacheHolder with
    | none => rfl
    | some shape =>
      dsimp only
      cases (s.engine.heap.shape shape).cachedStub? name fun t => t.spec == spec with
      | some stub => rfl
      | none => exact Heap.bare_modifyShape _ shape fun _ => rfl

theorem unfile_bare (stub : Stub) (receiver : Value) (name : Name) :
    (unfile stub receiver name s).2.engine.heap.bare = s.engine.heap.bare := by
  have read (f : Heap → Action Bool) : (heap >>= f) s = f s.engine.heap s := rfl
  simp only [unfile, read]
  cases s.engine.heap.filingShape? receiver stub.spec.cacheHolder with
  | none => rfl
  | some shape =>
    dsimp only
    split
    · exact Heap.bare_modifyShape _ shape fun t => by
        unfold Shape.forgetStub
        split <;> rfl
    · rfl

/-- So it is when a miss looks for a changed prototype. -/
theorem stateOfMiss_bare (receiver : Value) (name : Name) :
    (stateOfMiss receiver name s).2.engine.heap.bare = s.engine.heap.bare := by
  have read (f : Site → Action SiteState) : (current >>= f) s = f s.site s := rfl
  simp only [stateOfMiss, read]
  split
  · have bare := unfile_bare (s := s) s.site.target receiver name
    rw [Computation.bind_apply]
    split
    · rename_i e
      rwa [e] at bare
    · rename_i e
      rwa [e] at bare
  · rfl

section Sharing

variable {may : StubKey.Admission}

theorem share_admits {name : Name} {shape : Option ShapeId} {stub : Stub}
    (admitted : ∀ t, shape = some t → may ⟨name, t, stub.kind⟩ stub) :
    Admits may s (share name shape stub) := by
  cases shape with
  | none => exact admits_pure
  | some shape =>
    refine ⟨rfl, fun h => ?_⟩
    rcases StubCache.peek?_set h with ⟨rfl, rfl⟩ | h
    · exact .inr (admitted shape rfl)
    · exact .inl h

/-- A miss that is resolved from the monomorphic state is one of a monomorphic site. -/
theorem MissesFrom.monomorphic {site : Site} (m : MissesFrom site .monomorphic) :
    site.targetState = .monomorphic := by
  rcases m with e | ⟨e, -⟩
  · exact e.symm
  · cases e

variable (fresh : ∀ {key : StubKey} {stub : Stub}, key.Describes stub → may key stub)

include fresh

theorem advance_admits {old : SiteState} (m : MissesFrom s.site old) {receiver : Value}
    {name : Name} {stub : Stub} (archives : Archives may s.site name)
    (answers : s.site.kind.usesStubCache → old ≠ .uninitialized →
      s.engine.heap.Answers s.site.kind receiver name stub) :
    Admits may s (advance old receiver name stub) := by
  -- The new stub is filed under the name and the shape that the probe will look it up by.
  have made (u : s.site.kind.usesStubCache) (late : old ≠ .uninitialized) (shape : ShapeId)
      (hs : s.engine.heap.probeShape? s.site.kind receiver = some shape) :
      may ⟨name, shape, stub.kind⟩ stub := by
    have describes := answers u late shape hs
    rw [describes.kind]
    exact fresh describes
  simp only [advance, admits_current, admits_heap]
  cases old with
  | uninitialized => exact install_admits stub
  | premonomorphic => exact install_admits stub
  | prototypeFailure => exact install_admits stub
  | monomorphic =>
    dsimp only
    refine admits_ite admits_pure (admits_if (fun u => ?_) fun _ => requestInstall_admits _)
    refine (share_admits (archives u m.monomorphic)).bind fun _ _ _ => ?_
    exact (share_admits (made u (by decide))).bind fun _ _ _ => requestInstall_admits _
  | megamorphic => exact admits_if (fun u => share_admits (made u (by decide))) fun _ => admits_pure
  | polymorphic => exact requestInstall_admits _
  | generic => exact admits_pure
  | debugStub => exact admits_pure

theorem realizeAdvance_admits {old : SiteState} (m : MissesFrom s.site old) {receiver : Value}
    {name : Name} {plan : StubPlan} (archives : Archives may s.site name)
    (answers : s.site.kind.usesStubCache → old ≠ .uninitialized → ∀ stub : Stub,
      stub.spec = plan.spec → s.engine.heap.Answers s.site.kind receiver name stub) :
    Admits may s (do
      match ← realize receiver name plan with
      | none => return
      | some stub =>
        advance old receiver name stub
        traceMiss name.text old) := by
  refine (realize_admits receiver name plan).bind fun r t e => ?_
  obtain ⟨site, result⟩ := realize_spares (s := s) receiver name plan
  have bare := realize_bare (s := s) receiver name plan
  rw [e] at site result bare
  cases r with
  | none => exact admits_pure
  | some stub =>
    refine Admits.bind ?_ fun _ _ _ => traceMiss_admits _ old
    rw [← show t.site = s.site from site] at m archives answers
    exact advance_admits fresh m archives fun u late =>
      (answers u late stub (result _ rfl stub rfl)).of_bare bare

theorem updateLoad_admits {old : SiteState} (m : MissesFrom s.site old) {receiver : Value}
    {name : Name} (archives : Archives may s.site name) (found : Lookup) :
    Admits may s (updateLoad old receiver name found) := by
  simp only [updateLoad, admits_heap, admits_current]
  refine admits_if (fun hr => ?_) fun _ => admits_pure
  simp only [Bool.and_eq_true] at hr
  split
  · exact admits_pure
  · rename_i plan hp
    refine realizeAdvance_admits fresh m archives fun u late stub e => ?_
    split at hp
    · rename_i first
      simp only [Bool.and_eq_true, decide_eq_true_eq] at first
      exact absurd first.1 late
    · split at hp
      · rename_i key
        rw [key] at u
        cases u
      · obtain ⟨_, -, hm⟩ := Option.bind_eq_some_iff.1 hp
        obtain ⟨spec, hs, rfl⟩ := Option.map_eq_some_iff.1 hm
        exact Heap.answers_of_monomorphic hr.1 (hs.trans (congrArg some e.symm))

theorem resolveLoad_admits {receiver : Value} {name : Name} (archives : Archives may s.site name) :
    Admits may s (resolveLoad receiver name) := by
  simp only [resolveLoad, admits_heap]
  refine admits_ite (admits_onHeap _) ?_
  refine (stateOfMiss_admits receiver name).bind fun old t e => ?_
  obtain ⟨site, result⟩ := stateOfMiss_spares (s := s) receiver name
  rw [e] at site result
  refine (resolveIntrinsic_admits old receiver name).bind fun r u e' => ?_
  cases r with
  | some v => exact admits_pure
  | none =>
    have same : u.site = s.site := (resolveIntrinsic_none e').trans site
    dsimp only
    split
    · simp only [admits_current, admits_config]
      refine admits_ite ?_ (admits_onHeap _)
      refine (request_admits _).bind fun stub _ _ => (install_admits stub).bind fun _ _ _ => ?_
      exact (traceMiss_admits _ old).bind fun _ _ _ => admits_onHeap _
    · simp only [admits_heap]
      refine admits_ite (admits_onHeap _) ?_
      simp only [admits_config]
      refine admits_ite ?_ (admits_onHeap _)
      exact (updateLoad_admits fresh (same ▸ result old rfl) (same ▸ archives) _).bind
        fun _ _ _ => admits_onHeap _

theorem updateStore_admits {old : SiteState} (m : MissesFrom s.site old) {receiver : Value}
    {name : Name} (archives : Archives may s.site name) (object : s.engine.heap.isJsObject receiver)
    (id : ObjectId) (found : Lookup) : Admits may s (updateStore old receiver id name found) := by
  simp only [updateStore, admits_heap, admits_current]
  split
  · exact admits_pure
  · rename_i plan hp
    refine realizeAdvance_admits fresh m archives fun u late stub e => ?_
    split at hp
    · rename_i first
      simp only [Bool.and_eq_true, decide_eq_true_eq] at first
      exact absurd first.1 late
    · unfold Heap.storePlan? at hp
      split at hp
      · rename_i key
        rw [key] at u
        cases u
      · obtain ⟨_, -, hm⟩ := Option.bind_eq_some_iff.1 hp
        obtain ⟨spec, hs, rfl⟩ := Option.map_eq_some_iff.1 hm
        exact Heap.answers_of_monomorphic object (hs.trans (congrArg some e.symm))

theorem resolveStore_admits {receiver : Value} {name : Name} (v : Value)
    (archives : Archives may s.site name) : Admits may s (resolveStore receiver name v) := by
  simp only [resolveStore, admits_heap, admits_current]
  refine admits_ite (admits_onHeap _) (admits_ite (admits_onHeap _) ?_)
  split
  · exact admits_pure
  · rename_i id hid
    split
    · exact admits_onHeap _
    · refine (stateOfMiss_admits receiver name).bind fun old t e => ?_
      obtain ⟨site, result⟩ := stateOfMiss_spares (s := s) receiver name
      rw [e] at site result
      have bare := stateOfMiss_bare (s := s) receiver name
      rw [e] at bare
      have object : t.engine.heap.isJsObject receiver := by
        rw [← Heap.isJsObject_bare, bare, Heap.isJsObject_bare]
        exact (Option.filter_eq_some_iff.1 hid).2
      simp only [admits_config]
      refine admits_ite ((installTraced_admits ..).bind fun _ _ _ => admits_onHeap _) ?_
      refine admits_ite (admits_ite ?_ (admits_onHeap _)) ?_
      · exact (installTraced_admits ..).bind fun _ _ _ => admits_onHeap _
      · refine admits_ite (admits_ite ?_ (admits_onHeap _))
          (admits_ite (admits_onHeap _) (admits_onHeap _))
        exact (updateStore_admits fresh (site ▸ result old rfl) (site ▸ archives) object id _).bind
          fun _ _ _ => admits_onHeap _

omit fresh in
/-- A stub that is made for a call answers for its receiver. -/
theorem callStub_answers (ob : s.engine.heap.Obeys rules) (call : s.site.kind.isCall)
    (mode : SiteMode) {receiver : Value} {name : Name}
    (direct : DirectCall s.engine.heap receiver name) :
    Spares s (callStub mode receiver name (s.engine.heap.lookup receiver name)) fun r =>
      ∀ stub, r = some stub → s.engine.heap.Answers s.site.kind receiver name stub := by
  simp only [callStub, spares_heap, spares_current]
  split
  · exact spares_pure (by simp)
  · rename_i spec hs
    refine (requestFiled_spares receiver name spec).imp fun r hr stub e => ?_
    exact direct.answers ob call (hs.trans (congrArg some (hr stub e).symm))

/-- A call goes on from the monomorphic state only if it missed there, and at megamorphic sites with
a stub that answers it. -/
structure GoesOn (s : AtSite) (old : SiteState) (receiver : Value) (name : Name)
    (r : SiteState × Option Stub) : Prop where
  monomorphic : r.1 = .monomorphic → old = .monomorphic
  megamorphic : r.1 = .megamorphic → ∀ stub, r.2 = some stub →
    s.engine.heap.Answers s.site.kind receiver name stub

omit fresh in
/-- What a call chooses goes on from the state that it missed in. -/
theorem chooseCall_goesOn (ob : s.engine.heap.Obeys rules) (call : s.site.kind.isCall)
    (old : SiteState) {receiver : Value} {name : Name}
    (direct : DirectCall s.engine.heap receiver name) (args : List Value) :
    Spares s (chooseCall old receiver name (s.engine.heap.lookup receiver name) args)
      (GoesOn s old receiver name) := by
  have made (state : SiteState) (mode : SiteMode) (mono : state = .monomorphic → old = .monomorphic)
      (ne : state ≠ .megamorphic) {found : Lookup} {t : AtSite} :
      Spares t (do return (state, ← callStub mode receiver name found))
        (GoesOn s old receiver name) :=
    (callStub_spares ..).bind fun r t _ _ => spares_pure ⟨mono, fun e => absurd e ne⟩
  have simple (state : SiteState) (spec : StubSpec) (mono : state = .monomorphic → old = .monomorphic)
      (ne : state ≠ .megamorphic) {t : AtSite} :
      Spares t (do return (state, some (← request spec))) (GoesOn s old receiver name) :=
    (request_spares spec).bind fun r t _ _ => spares_pure ⟨mono, fun e => absurd e ne⟩
  simp only [chooseCall, spares_heap, spares_current]
  cases old with
  | uninitialized =>
    exact spares_if (fun _ => simple .uninitialized _ (by decide) (by decide))
      fun _ => made .uninitialized _ (by decide) (by decide)
  | monomorphic =>
    dsimp only
    split
    · exact made .monomorphic _ (fun e => e) (by decide)
    · refine spares_if (fun _ => (unfile_spares ..).bind fun stale t _ _ => ?_)
        fun _ => (spares_pure trivial).bind fun stale t _ (_ : True) => ?_
      all_goals
        exact spares_if (fun _ => made .prototypeFailure _ (by decide) (by decide))
          fun _ => simple .monomorphic _ (fun e => e) (by decide)
  | megamorphic =>
    refine (callStub_answers ob call _ direct).bind fun r t _ hr => ?_
    exact spares_pure ⟨by simp, fun _ => hr⟩
  | _ => exact made _ _ (fun e => e) (by decide)

theorem updateCall_admits (ss : s.Sound rules) (call : s.site.kind.isCall) {old : SiteState}
    (m : MissesFrom s.site old) {receiver : Value} {name : Name}
    (archives : Archives may s.site name) (args : List Value) :
    Admits may s (updateCall old receiver name (s.engine.heap.lookup receiver name) args) := by
  have u : s.site.kind.usesStubCache := by
    revert call
    cases s.site.kind <;> decide
  simp only [updateCall, admits_heap]
  refine admits_if (fun cacheable => ?_) fun _ => admits_pure
  have direct : DirectCall s.engine.heap receiver name := directCall_of_cacheable cacheable
  refine (chooseCall_admits ..).bind fun r t e => ?_
  obtain ⟨site, result⟩ := chooseCall_goesOn ss.engine.heap call old direct args
  have bare := (chooseCall_upkeep ss old args direct).kept.heap
  rw [e] at site result bare
  obtain ⟨state, _ | stub⟩ := r
  · exact admits_pure
  · obtain ⟨mono, mega⟩ := result _ rfl
    refine Admits.bind ?_ fun _ _ _ => traceMiss_admits _ state
    simp only [advanceCall, admits_heap, admits_current]
    rw [show t.site = s.site from site]
    cases state with
    | uninitialized => exact install_admits stub
    | premonomorphic => exact install_admits stub
    | prototypeFailure => exact install_admits stub
    | monomorphic =>
      obtain rfl := mono rfl
      refine admits_ite ?_ (install_admits stub)
      exact (share_admits (archives u m.monomorphic)).bind fun _ _ _ => install_admits stub
    | megamorphic =>
      refine share_admits fun shape hs => ?_
      have describes := (mega rfl stub rfl).of_bare bare shape hs
      rw [describes.kind]
      exact fresh describes
    | _ => exact admits_pure

theorem elementOrMethod_admits (ss : s.Sound rules) (call : s.site.kind.isCall) {old : SiteState}
    (m : MissesFrom s.site old) {receiver : Value} {name : Name}
    (archives : Archives may s.site name) (args : List Value) (element : Option Value) :
    Admits may s (elementOrMethod old receiver name args element) := by
  simp only [elementOrMethod, admits_heap]
  split
  · exact admits_pure
  · refine admits_ite (admits_onHeap _) ?_
    simp only [admits_config]
    refine admits_ite ?_ (admits_onHeap _)
    exact (updateCall_admits fresh ss call m archives args).bind fun _ _ _ => admits_onHeap _

theorem resolveCall_admits (ss : s.Sound rules) (call : s.site.kind.isCall) {receiver : Value}
    {name : Name} (archives : Archives may s.site name) (args : List Value) :
    Admits may s (resolveCall receiver name args) := by
  rw [resolveCall_eq, admits_heap]
  refine admits_ite (admits_onHeap _) ?_
  refine (stateOfMiss_admits receiver name).bind fun old t e => ?_
  obtain ⟨site, m⟩ := stateOfMiss_spares (s := s) receiver name
  have ts := (stateOfMiss_upkeep ss receiver name).kept.sound
  rw [e] at site m ts
  replace m := m _ rfl
  rw [← show t.site = s.site from site] at m call archives
  refine (admits_onHeap _).bind fun element w e' => ?_
  have leads := (Heap.callClosed_leads rules).elementNamed ts.engine.heap receiver name
  have ws := (onHeap_safe ts leads).sound
  have same := (spares_onHeap (s := t) (Heap.elementNamed receiver name)).1
  rw [e'] at ws same
  rw [← show w.site = t.site from same] at m call archives
  exact elementOrMethod_admits fresh ws call m archives args element

theorem resolveKeyedCall_admits (ss : s.Sound rules) (call : s.site.kind.isCall)
    {receiver key : Value}
    (archives : ∀ name, (Key.computed key).name? s.engine.heap = some name →
      Archives may s.site name) (args : List Value) :
    Admits may s (resolveKeyedCall receiver key args) := by
  simp only [resolveKeyedCall, onHeap_keyedMethod, admits_heap]
  split
  · rename_i name hn
    exact resolveCall_admits fresh ss call (archives name hn) args
  · refine admits_ite (admits_onHeap _) ?_
    simp only [admits_current, admits_config]
    exact admits_ite ((installTraced_admits ..).bind fun _ _ _ => admits_onHeap _)
      (admits_onHeap _)

theorem resolveKeyedLoad_admits {receiver key : Value}
    (archives : ∀ name, Archives may s.site name) (force : Bool) :
    Admits may s (resolveKeyedLoad receiver key force) := by
  simp only [resolveKeyedLoad, admits_heap]
  split
  · exact resolveLoad_admits fresh (archives _)
  · simp only [admits_current, admits_config]
    refine admits_ite ?_ (admits_onHeap _)
    simp only [admits_heap]
    refine (settle_admits _).bind fun stub _ _ => (install_admits stub).bind fun _ t _ => ?_
    simp only [admits_heap]
    exact (traceMiss_admits ..).bind fun _ _ _ => admits_onHeap _

theorem resolveKeyedStore_admits {receiver key : Value} (v : Value)
    (archives : ∀ name, Archives may s.site name) (force : Bool) :
    Admits may s (resolveKeyedStore receiver key v force) := by
  simp only [resolveKeyedStore, admits_heap]
  split
  · exact resolveStore_admits fresh v (archives _)
  · simp only [admits_current, admits_config]
    refine admits_ite ?_ (admits_onHeap _)
    refine (keyedStoreStub_admits ..).bind fun stub _ _ => (install_admits stub).bind fun _ t _ => ?_
    simp only [admits_heap]
    exact (traceMiss_admits ..).bind fun _ _ _ => admits_onHeap _

/-! ### Accesses -/

theorem load_admits {receiver : Value} {name : Name} (archives : Archives may s.site name) :
    Admits may s (load receiver name) := by
  refine (dispatchLoad_admits receiver (.named name)).bind fun o t e => ?_
  have site := (dispatchLoad_spares (s := s) receiver (.named name)).1
  rw [e] at site
  rw [← show t.site = s.site from site] at archives
  cases o with
  | hit v => exact admits_pure
  | _ => exact resolveLoad_admits fresh archives

theorem store_admits {receiver : Value} {name : Name} (v : Value)
    (archives : Archives may s.site name) : Admits may s (store receiver name v) := by
  refine (dispatchStore_admits receiver (.named name) v).bind fun o t e => ?_
  have site := (dispatchStore_spares (s := s) receiver (.named name) v).1
  rw [e] at site
  rw [← show t.site = s.site from site] at archives
  cases o with
  | hit v => exact admits_pure
  | _ => exact resolveStore_admits fresh v archives

theorem keyedLoad_admits {receiver key : Value} (archives : ∀ name, Archives may s.site name) :
    Admits may s (keyedLoad receiver key) := by
  refine (dispatchLoad_admits receiver (.computed key)).bind fun o t e => ?_
  have site := (dispatchLoad_spares (s := s) receiver (.computed key)).1
  rw [e] at site
  rw [← show t.site = s.site from site] at archives
  cases o with
  | hit v => exact admits_pure
  | _ => exact resolveKeyedLoad_admits fresh archives _

theorem keyedStore_admits {receiver key : Value} (v : Value)
    (archives : ∀ name, Archives may s.site name) : Admits may s (keyedStore receiver key v) := by
  refine (dispatchStore_admits receiver (.computed key) v).bind fun o t e => ?_
  have site := (dispatchStore_spares (s := s) receiver (.computed key) v).1
  rw [e] at site
  rw [← show t.site = s.site from site] at archives
  cases o with
  | hit v => exact admits_pure
  | _ => exact resolveKeyedStore_admits fresh v archives _

theorem call_admits (ss : s.Sound rules) (call : s.site.kind.isCall) {receiver : Value}
    {name : Name} (archives : Archives may s.site name) (args : List Value) :
    Admits may s (AtSite.call receiver name args) := by
  refine (dispatchCall_admits receiver (.named name) args).bind fun o t e => ?_
  have site := (dispatchCall_spares (s := s) receiver (.named name) args).1
  have ts := (dispatchCall_across (Heap.accessClosed_leads rules) ss receiver (.named name) args).sound
  rw [e] at site ts
  rw [← show t.site = s.site from site] at call archives
  cases o with
  | hit f => exact admits_pure.bind fun _ _ _ => admits_onHeap _
  | _ =>
    exact (resolveCall_admits fresh ts call archives args).bind fun _ _ _ => admits_onHeap _

omit fresh in
/-- A monomorphic call site whose stub is run for a key that is no name leaves the heap as it is. -/
theorem dispatchCall_unnamed (ss : s.Sound rules) (mono : s.site.targetState = .monomorphic)
    (receiver : Value) {key : Key} (unnamed : key.name? s.engine.heap = none) (args : List Value) :
    (dispatchCall receiver key args s).2.engine.heap = s.engine.heap := by
  -- Only sites in the megamorphic state have a stub that asks the stub cache.
  have plain : s.site.target.spec.handler ≠ .megamorphic := by
    obtain ⟨h₀, -, -, -, -, origin⟩ := ss.target
    intro hh
    simp only [StubSpec.Origin, hh] at origin
    cases mono.symm.trans origin
  have special := StubSpec.Sound.not_generic ss.target fun e => by
    cases mono.symm.trans (show s.site.targetState = .generic from e)
  rw [dispatchCall_own receiver key args plain]
  exact Heap.runCall_unnamed special receiver unnamed args

theorem keyedCall_admits (ss : s.Sound rules) (call : s.site.kind.isCall) {receiver key : Value}
    (archives : ∀ name, (Key.computed key).name? s.engine.heap = some name →
      Archives may s.site name) (args : List Value) :
    Admits may s (keyedCall receiver key args) := by
  refine (dispatchCall_admits receiver (.computed key) args).bind fun o t e => ?_
  have site := (dispatchCall_spares (s := s) receiver (.computed key) args).1
  have reach := (dispatchCall_across (Heap.accessClosed_leads rules) ss receiver (.computed key) args).reaches
    (Heap.accessClosed_leads rules)
  have unnamed (mono : s.site.targetState = .monomorphic)
      (none : (Key.computed key).name? s.engine.heap = none) :=
    dispatchCall_unnamed ss mono receiver none args
  rw [e] at site reach unnamed
  have later (name : Name) (hn : (Key.computed key).name? t.engine.heap = some name) :
      Archives may t.site name := by
    rw [show t.site = s.site from site]
    intro u mono
    cases h : (Key.computed key).name? s.engine.heap with
    | none =>
      rw [show t.engine.heap = s.engine.heap from unnamed mono h, h] at hn
      cases hn
    | some name' =>
      obtain rfl := Heap.name?_unique reach.grows h hn
      exact archives _ h u mono
  rw [← show t.site = s.site from site] at call
  cases o with
  | hit f => exact admits_pure.bind fun _ _ _ => admits_onHeap _
  | _ =>
    exact (resolveKeyedCall_admits fresh reach.sound call later args).bind fun _ _ _ =>
      admits_onHeap _

end Sharing

end AtSite

end Speculation
