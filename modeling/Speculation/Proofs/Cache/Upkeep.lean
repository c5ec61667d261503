import Speculation.Cache.Access
import Speculation.Cache.Operator
import Speculation.Proofs.Cache.Origin

/-!
# Keeping the books of a site

Most of what happens at a site after a miss only concerns caches: stubs are requested, filed under
shapes, installed and shared, and lines of the trace are written. `Upkeep` says of such an action
that it succeeds and changes no more of the heap than the stubs of its shapes, and that all stubs
within reach stay sound. The laws follow the definitions; `Upkeep.bind` is the rule for sequences.
-/

namespace Speculation

variable {rules : Rules}

/-- The heap is well formed, and so are all stubs made so far. The stub cache has them under their
kinds. -/
structure Engine.Sound (rules : Rules) (e : Engine) : Prop where
  heap : e.heap.Obeys rules
  made : ∀ spec ∈ e.stubs.specs, spec.Sound rules e.heap
  cached : ∀ {key : StubKey} {stub : Stub}, e.stubCache.peek? key = some stub →
    stub.spec.Sound rules e.heap
  kinds : ∀ {key : StubKey} {stub : Stub}, e.stubCache.peek? key = some stub → stub.kind = key.kind

/-- An engine is sound if its heap comes from that of a sound one and its new stubs are sound. -/
theorem Engine.Sound.step {e e' : Engine} (es : e.Sound rules)
    (leads : Heap.Leads rules e.heap e'.heap)
    (made : ∀ spec ∈ e'.stubs.specs, spec ∈ e.stubs.specs ∨ spec.Sound rules e'.heap)
    (cached : ∀ key stub, e'.stubCache.peek? key = some stub →
      e.stubCache.peek? key = some stub ∨ stub.spec.Sound rules e'.heap ∧ stub.kind = key.kind) :
    e'.Sound rules where
  heap := leads.obeys
  made spec hs := (made spec hs).elim (fun h => (es.made spec h).mono leads.grows) fun h => h
  cached hs := (cached _ _ hs).elim (fun h => (es.cached h).mono leads.grows) fun h => h.1
  kinds hs := (cached _ _ hs).elim es.kinds fun h => h.2

namespace StubCache

variable {c : StubCache} {key : StubKey} {stub : Stub}

/-- What is found after an eviction was there before. -/
theorem peek?_evictOne (hk : c.evictOne.peek? key = some stub) : c.peek? key = some stub := by
  unfold evictOne at hk
  split at hk
  · exact hk
  · simp only [peek?, Table.get?_erase] at hk
    split at hk
    · cases hk
    · exact hk

/-- An entry of the cache is the one just made or was there before. -/
theorem peek?_set {name : Name} {shape : ShapeId} {new : Stub}
    (hk : (c.set name shape new).peek? key = some stub) :
    key = ⟨name, shape, new.kind⟩ ∧ stub = new ∨ c.peek? key = some stub := by
  simp only [set, peek?, Table.get?_insert] at hk
  split at hk
  · rename_i e
    exact .inl ⟨e.symm, (Option.some.inj hk).symm⟩
  · right
    split at hk
    · exact peek?_evictOne hk
    · exact hk

theorem peek?_evictShape {shape : ShapeId} (hk : (c.evictShape shape).2.peek? key = some stub) :
    c.peek? key = some stub := by
  simp only [evictShape, peek?, Table.get?_filterKeys] at hk
  split at hk
  · exact hk
  · cases hk

/-- Looking a key up changes no entry. -/
theorem peek?_get {key' : StubKey} (hk : (c.get key').2.peek? key = some stub) :
    c.peek? key = some stub := by
  unfold get at hk
  split at hk <;> exact hk

theorem get_fst (key : StubKey) : (c.get key).1 = c.peek? key := by
  unfold get
  split <;> simp_all

end StubCache

/-- A request adds the stub that is requested, and no other. -/
theorem StubTable.mem_request {t : StubTable} {spec new : StubSpec}
    (hs : spec ∈ (t.request new).2.specs) : spec ∈ t.specs ∨ spec = new := by
  unfold request at hs
  split at hs
  · exact .inl hs
  · simpa using hs

namespace Heap

/-- A property that no shape describes, where it has a stub of its own. -/
def intrinsicLoad? (h : Heap) (receiver : Value) (name : Name) : Option Value :=
  if (h.intrinsicHandler? receiver name).isSome then h.intrinsic? receiver name else none

/-- There is no intrinsic load where the property is not intrinsic or has no value. -/
theorem intrinsicLoad?_eq_none {h : Heap} {receiver : Value} {name : Name} :
    h.intrinsicLoad? receiver name = none ↔
      h.intrinsicHandler? receiver name = none ∨ h.intrinsic? receiver name = none := by
  unfold intrinsicLoad?
  cases h.intrinsicHandler? receiver name <;> simp

/-- Receivers for which named stubs are made. -/
theorem exists_object_of_receiver {h : Heap} {receiver : Value}
    (hr : (h.isJsObject receiver && !h.isGlobalProxy receiver) = true) :
    ∃ id o, receiver = .object id ∧ h.object? id = some o ∧
      ∀ g, o.objectClass ≠ .globalProxy g := by
  cases receiver with
  | object id =>
    cases ho : h.object? id with
    | none => simp [isJsObject, asObject?, Value.objectId?, ho] at hr
    | some o =>
      refine ⟨id, o, rfl, ho, fun g hc => ?_⟩
      simp [isGlobalProxy, classOf?, asObject?, Value.objectId?, ho, hc] at hr
  | _ => simp [isJsObject, asObject?, Value.objectId?] at hr

end Heap

namespace AtSite

/-- A site whose stub is sound, in an engine that is. -/
structure Sound (rules : Rules) (s : AtSite) : Prop where
  engine : s.engine.Sound rules
  target : s.site.target.spec.Sound rules s.engine.heap

/-- Only caches have changed. -/
structure Kept (rules : Rules) (s t : AtSite) : Prop where
  sound : t.Sound rules
  heap : t.engine.heap.bare = s.engine.heap.bare
  log : t.engine.heap.invocations = s.engine.heap.invocations
  kind : t.site.kind = s.site.kind

variable {s t u : AtSite} {α β : Type}

theorem Sound.kept (ss : s.Sound rules) : Kept rules s s := ⟨ss, rfl, rfl, rfl⟩

theorem Kept.trans (a : Kept rules s t) (b : Kept rules t u) : Kept rules s u :=
  ⟨b.sound, b.heap.trans a.heap, b.log.trans a.log, b.kind.trans a.kind⟩

/-- What keeps the heap up lets it grow. -/
theorem Kept.grows (k : Kept rules s t) : s.engine.heap.Grows t.engine.heap := .of_bare k.heap

/-- An action that succeeds and changes nothing but caches. -/
def Upkeep (rules : Rules) (s : AtSite) (a : Action α) (post : α → Prop) : Prop :=
  ∃ x t, a s = (.ok x, t) ∧ Kept rules s t ∧ post x

theorem Upkeep.kept {a : Action α} {post : α → Prop} (up : Upkeep rules s a post) :
    Kept rules s (a s).2 := by
  obtain ⟨x, t, e, k, -⟩ := up
  rwa [e]

theorem upkeep_pure (ss : s.Sound rules) {x : α} {post : α → Prop} (hx : post x) :
    Upkeep rules s (pure x) post := ⟨x, s, rfl, ss.kept, hx⟩

/-- The rule for sequences. -/
theorem Upkeep.bind {a : Action α} {f : α → Action β} {pre : α → Prop} {post : β → Prop}
    (up : Upkeep rules s a pre)
    (next : ∀ x t, Kept rules s t → pre x → Upkeep rules t (f x) post) :
    Upkeep rules s (a >>= f) post := by
  obtain ⟨x, t, e, k, hx⟩ := up
  obtain ⟨y, u, e', k', hy⟩ := next x t k hx
  exact ⟨y, u, by rw [Computation.bind_ok e, e'], k.trans k', hy⟩

theorem Upkeep.imp {a : Action α} {pre post : α → Prop} (up : Upkeep rules s a pre)
    (hp : ∀ x, pre x → post x) : Upkeep rules s a post := by
  obtain ⟨x, t, e, k, hx⟩ := up
  exact ⟨x, t, e, k, hp x hx⟩

theorem upkeep_if {c : Prop} [Decidable c] {a b : Action α} {post : α → Prop}
    (ha : c → Upkeep rules s a post) (hb : ¬ c → Upkeep rules s b post) :
    Upkeep rules s (if c then a else b) post := by
  split
  · exact ha ‹_›
  · exact hb ‹_›

theorem upkeep_ite {c : Prop} [Decidable c] {a b : Action α} {post : α → Prop}
    (ha : Upkeep rules s a post) (hb : Upkeep rules s b post) :
    Upkeep rules s (if c then a else b) post := upkeep_if (fun _ => ha) fun _ => hb

/-! ### Reading the state -/

section Reads

variable {post : α → Prop}

@[simp] theorem upkeep_heap {f : Heap → Action α} :
    Upkeep rules s (heap >>= f) post ↔ Upkeep rules s (f s.engine.heap) post := Iff.rfl

@[simp] theorem upkeep_current {f : Site → Action α} :
    Upkeep rules s (current >>= f) post ↔ Upkeep rules s (f s.site) post := Iff.rfl

@[simp] theorem upkeep_config {f : Config → Action α} :
    Upkeep rules s (config >>= f) post ↔ Upkeep rules s (f s.engine.config) post := Iff.rfl

@[simp] theorem upkeep_get {f : AtSite → Action α} :
    Upkeep rules s (get >>= f) post ↔ Upkeep rules s (f s) post := Iff.rfl

end Reads

/-! ### Stubs, installation and traces -/

section Books

variable (ss : s.Sound rules)

include ss

/-- A change of the engine that adds sound stubs. -/
theorem Sound.kept_engine {e : Engine} (bare : e.heap.bare = s.engine.heap.bare)
    (log : e.heap.invocations = s.engine.heap.invocations)
    (made : ∀ spec ∈ e.stubs.specs, spec ∈ s.engine.stubs.specs ∨ spec.Sound rules e.heap)
    (cached : ∀ key stub, e.stubCache.peek? key = some stub →
      s.engine.stubCache.peek? key = some stub ∨
        stub.spec.Sound rules e.heap ∧ stub.kind = key.kind) :
    Kept rules s { s with engine := e } := by
  have leads := ss.engine.heap.leads_of_bare bare log
  exact ⟨⟨ss.engine.step leads made cached, ss.target.mono leads.grows⟩, bare, log, rfl⟩

theorem request_upkeep {spec : StubSpec} (hs : spec.Sound rules s.engine.heap) :
    Upkeep rules s (request spec) fun stub => stub.spec = spec := by
  refine ⟨_, _, rfl, ss.kept_engine rfl rfl (fun spec' h => ?_) (fun _ _ h => .inl h), ?_⟩
  · rcases StubTable.mem_request h with h | rfl
    · exact .inl h
    · exact .inr hs
  · exact StubTable.spec_request _ spec

theorem requestFiled_upkeep (receiver : Value) (name : Name) {spec : StubSpec}
    (hs : spec.Sound rules s.engine.heap) :
    Upkeep rules s (requestFiled receiver name spec) fun r =>
      ∀ stub, r = some stub → stub.spec = spec := by
  simp only [requestFiled, upkeep_heap]
  cases s.engine.heap.filingShape? receiver spec.cacheHolder with
  | none => exact upkeep_pure ss (by simp)
  | some shape =>
    dsimp only
    cases e : (s.engine.heap.shape shape).cachedStub? name fun t => t.spec == spec with
    | some stub =>
      have hstub : stub.spec = spec := by simpa using List.find?_some e
      exact upkeep_pure ss (by simpa using hstub)
    | none =>
      refine (request_upkeep ss hs).bind fun stub t k hstub => ?_
      have bare := t.engine.heap.bare_modifyShape shape (f := fun u => u.keepStub name stub)
        fun _ => rfl
      exact ⟨_, _, rfl, k.sound.kept_engine bare rfl (fun _ h => .inl h) (fun _ _ h => .inl h),
        by simpa using hstub⟩

theorem install_upkeep {stub : Stub} (hs : stub.spec.Sound rules s.engine.heap) :
    Upkeep rules s (install stub) fun _ => True := by
  simp only [install, upkeep_config]
  split
  · exact ⟨_, _, rfl, ⟨⟨ss.engine, hs⟩, rfl, rfl, rfl⟩, trivial⟩
  · exact upkeep_pure ss trivial

theorem share_upkeep (name : Name) (shape : Option ShapeId) {stub : Stub}
    (hs : stub.spec.Sound rules s.engine.heap) :
    Upkeep rules s (share name shape stub) fun _ => True := by
  cases shape with
  | none => exact upkeep_pure ss trivial
  | some shape =>
    refine ⟨_, _, rfl, ss.kept_engine rfl rfl (fun _ h => .inl h) (fun key stub' h => ?_), trivial⟩
    rcases StubCache.peek?_set h with ⟨rfl, rfl⟩ | h
    · exact .inr ⟨hs, rfl⟩
    · exact .inl h

theorem trace_upkeep (text : String) : Upkeep rules s (trace text) fun _ => True := by
  simp only [trace, upkeep_config]
  split
  · exact ⟨_, _, rfl, ss.kept_engine rfl rfl (fun _ h => .inl h) (fun _ _ h => .inl h), trivial⟩
  · exact upkeep_pure ss trivial

theorem traceMiss_upkeep (key : String) (old : SiteState) :
    Upkeep rules s (traceMiss key old) fun _ => True := by
  simp only [traceMiss, upkeep_current]
  exact trace_upkeep ss _

/-! ### After a miss -/

theorem unfile_upkeep (stub : Stub) (receiver : Value) (name : Name) :
    Upkeep rules s (unfile stub receiver name) fun _ => True := by
  simp only [unfile, upkeep_heap]
  cases s.engine.heap.filingShape? receiver stub.spec.cacheHolder with
  | none => exact upkeep_pure ss trivial
  | some shape =>
    dsimp only
    split
    · have bare := s.engine.heap.bare_modifyShape shape (f := fun u => u.forgetStub name stub.id)
        fun u => by unfold Shape.forgetStub; split <;> rfl
      exact ⟨_, _, rfl, ss.kept_engine bare rfl (fun _ h => .inl h) (fun _ _ h => .inl h), trivial⟩
    · exact upkeep_pure ss trivial

theorem stateOfMiss_upkeep (receiver : Value) (name : Name) :
    Upkeep rules s (stateOfMiss receiver name) fun _ => True := by
  simp only [stateOfMiss, upkeep_current]
  split
  · exact (unfile_upkeep ss _ receiver name).bind fun b t k _ => upkeep_pure k.sound trivial
  · exact upkeep_pure ss trivial

theorem requestInstall_upkeep {spec : StubSpec} (hs : spec.Sound rules s.engine.heap) :
    Upkeep rules s (do install (← request spec)) fun _ => True := by
  refine (request_upkeep ss hs).bind fun stub t k hstub => ?_
  exact install_upkeep k.sound (hstub ▸ hs.mono k.grows)

/-- A miss that moves a site on keeps everything up. -/
theorem advance_upkeep (old : SiteState) (receiver : Value) (name : Name) {stub : Stub}
    (hs : stub.spec.Sound rules s.engine.heap) :
    Upkeep rules s (advance old receiver name stub) fun _ => True := by
  have generic := (StubSpec.compiled_generic s.engine.heap s.site.kind s.site.mode).sound
    ss.engine.heap
  have mega := (StubSpec.compiled_megamorphic s.engine.heap s.site.kind s.site.mode).sound
    ss.engine.heap
  simp only [advance, upkeep_current, upkeep_heap]
  -- Every stub installed or shared is the new one, a settled one or the site's own, and all of
  -- them are sound.
  cases old with
  | uninitialized => exact install_upkeep ss hs
  | premonomorphic => exact install_upkeep ss hs
  | prototypeFailure => exact install_upkeep ss hs
  | monomorphic =>
    dsimp only
    split
    · exact upkeep_pure ss trivial
    · split
      · refine (share_upkeep ss name _ ss.target).bind fun _ t k _ => ?_
        refine (share_upkeep k.sound name _ (hs.mono k.grows)).bind fun _ u k' _ => ?_
        exact requestInstall_upkeep k'.sound (mega.mono (k.trans k').grows)
      · exact requestInstall_upkeep ss mega
  | megamorphic =>
    dsimp only
    split
    · exact share_upkeep ss name _ hs
    · exact upkeep_pure ss trivial
  | polymorphic => exact requestInstall_upkeep ss generic
  | generic => exact upkeep_pure ss trivial
  | debugStub => exact upkeep_pure ss trivial

theorem clear_upkeep : Upkeep rules s clear fun _ => True := by
  have reset : ∀ spec : StubSpec, spec.Compiled s.engine.heap → Upkeep rules s (do
      let stub ← request spec
      modify fun s => { s with site := s.site.patch stub }) fun _ => True := by
    intro spec hc
    have hs := hc.sound ss.engine.heap
    refine (request_upkeep ss hs).bind fun stub t k hstub => ?_
    exact ⟨_, _, rfl, ⟨⟨k.sound.engine, hstub ▸ hs.mono k.grows⟩, rfl, rfl, rfl⟩, trivial⟩
  simp only [clear, upkeep_current]
  split
  · exact upkeep_pure ss trivial
  · split
    · split
      · exact reset _ (StubSpec.Origin.compiled trivial rfl)
      · exact upkeep_pure ss trivial
    · exact upkeep_pure ss trivial
    · exact upkeep_pure ss trivial
    · exact upkeep_pure ss trivial
    · exact upkeep_pure ss trivial
    · exact reset _ (StubSpec.compiled_fresh ..)

/-- What the stub cache has for an access is sound, not generic, and for accesses of that kind. -/
theorem probe_upkeep (stub : Stub) (receiver : Value) (key : Key) :
    Upkeep rules s (probe stub receiver key) fun r => ∀ spec, r = some spec →
      spec.Sound rules s.engine.heap ∧ spec.state = .monomorphic ∧ spec.kind = stub.kind := by
  simp only [probe, upkeep_heap]
  split
  · rename_i name shape _ _
    simp only [upkeep_get]
    have found := StubCache.get_fst (c := s.engine.stubCache) ⟨name, shape, stub.kind⟩
    refine Upkeep.bind (show Upkeep rules s _ fun _ => True from ⟨_, _, rfl,
      ss.kept_engine rfl rfl (fun _ h => .inl h) (fun _ _ h => .inl (StubCache.peek?_get h)), trivial⟩)
      fun _ t k _ => ?_
    cases e : (s.engine.stubCache.get ⟨name, shape, stub.kind⟩).1 with
    | none => exact upkeep_pure k.sound (by simp)
    | some found' =>
      have hs := ss.engine.cached (found.symm.trans e)
      have kind := ss.engine.kinds (found.symm.trans e)
      refine upkeep_pure k.sound fun spec h => ?_
      split at h
      · cases h
        exact ⟨hs, ‹_›, kind⟩
      · cases h
  · exact upkeep_pure ss (by simp)

/-- A plan that is carried out gives the stub that was planned. -/
theorem realize_upkeep (receiver : Value) (name : Name) {plan : StubPlan}
    (hs : plan.spec.Sound rules s.engine.heap) :
    Upkeep rules s (realize receiver name plan) fun r =>
      ∀ stub, r = some stub → stub.spec = plan.spec := by
  cases plan with
  | common spec =>
    refine (request_upkeep ss hs).bind fun stub t k hstub => upkeep_pure k.sound ?_
    rintro stub' ⟨⟩
    exact hstub
  | filed spec => exact requestFiled_upkeep ss receiver name hs

theorem installTraced_upkeep {spec : StubSpec} (hs : spec.Sound rules s.engine.heap)
    (key : String) (old : SiteState) : Upkeep rules s (installTraced spec key old) fun _ => True := by
  unfold installTraced
  refine (request_upkeep ss hs).bind fun stub t k hstub => ?_
  refine (install_upkeep k.sound (hstub ▸ hs.mono k.grows)).bind fun _ u k' _ => ?_
  exact traceMiss_upkeep k'.sound key old

/-- A stub chosen by a plan is installed and the miss traced. -/
theorem realizeAdvance_upkeep (old : SiteState) (receiver : Value) (name : Name) {plan : StubPlan}
    (hs : plan.spec.Sound rules s.engine.heap) :
    Upkeep rules s (do
      match ← realize receiver name plan with
      | none => return
      | some stub =>
        advance old receiver name stub
        traceMiss name.text old) fun _ => True := by
  refine (realize_upkeep ss receiver name hs).bind fun r t k hr => ?_
  cases r with
  | none => exact upkeep_pure k.sound trivial
  | some stub =>
    have hstub : stub.spec.Sound rules t.engine.heap := hr stub rfl ▸ hs.mono k.grows
    refine (advance_upkeep k.sound old receiver name hstub).bind fun _ u k' _ => ?_
    exact traceMiss_upkeep k'.sound name.text old

/-! ### Loads -/

/-- A miss of an intrinsic property gives what the general rules give. -/
theorem resolveIntrinsic_upkeep (old : SiteState) (receiver : Value) (name : Name) :
    Upkeep rules s (resolveIntrinsic old receiver name) fun r =>
      r = s.engine.heap.intrinsicLoad? receiver name := by
  simp only [resolveIntrinsic, upkeep_heap]
  split
  · rename_i handler v hh hv
    have result : s.engine.heap.intrinsicLoad? receiver name = some v := by
      simp [Heap.intrinsicLoad?, hh, hv]
    simp only [upkeep_config]
    split
    · simp only [upkeep_current]
      cases e : s.engine.heap.intrinsicSpec? s.site.kind s.site.mode old receiver name handler with
      | none => exact upkeep_pure ss result.symm
      | some spec =>
        have hs := (Heap.intrinsicHandler?_compiled hh e).sound ss.engine.heap
        refine (request_upkeep ss hs).bind fun stub t k hstub => ?_
        refine (install_upkeep k.sound (hstub ▸ hs.mono k.grows)).bind fun _ u k' _ => ?_
        refine (traceMiss_upkeep k'.sound name.text old).bind fun _ w k'' _ => ?_
        exact upkeep_pure k''.sound result.symm
    · exact upkeep_pure ss result.symm
  · rename_i hn
    refine upkeep_pure ss ?_
    unfold Heap.intrinsicLoad?
    cases hh : s.engine.heap.intrinsicHandler? receiver name with
    | none => rfl
    | some handler =>
      cases hv : s.engine.heap.intrinsic? receiver name with
      | none => rfl
      | some v => exact absurd hv (hn handler v hh)

/-- A miss of a load keeps everything up. -/
theorem updateLoad_upkeep (old : SiteState) (receiver : Value) (name : Name)
    (hn : s.engine.heap.intrinsicLoad? receiver name = none) (hi : name.arrayIndex? = none)
    (hg : s.engine.heap.lookup receiver name = .notFound →
      s.engine.heap.isGlobalObject receiver = false) :
    Upkeep rules s (updateLoad old receiver name (s.engine.heap.lookup receiver name))
      fun _ => True := by
  simp only [updateLoad, upkeep_heap, upkeep_current]
  split
  · rename_i hr
    obtain ⟨id, o, rfl, ho, hp⟩ := Heap.exists_object_of_receiver hr
    have d : s.engine.heap.LookupDecides id o name :=
      ⟨ho, hp, Heap.intrinsicLoad?_eq_none.1 hn, hi, hg⟩
    split
    · exact upkeep_pure ss trivial
    · rename_i plan hplan
      refine realizeAdvance_upkeep ss old _ name (StubSpec.Compiled.sound ?_ ss.engine.heap)
      split at hplan
      · cases hplan
        exact StubSpec.compiled_premonomorphic ..
      · split at hplan
        · exact Heap.keyedLoadPlan?_compiled ss.engine.heap d hplan
        · exact Heap.loadPlan?_compiled ss.engine.heap d hplan
  · exact upkeep_pure ss trivial

/-! ### Stores, elements, calls and operators -/

/-- A miss of a store keeps everything up. -/
theorem updateStore_upkeep (old : SiteState) (name : Name) (found : Lookup) {id : ObjectId}
    {o : JsObject} (ho : s.engine.heap.object? id = some o)
    (hp : ∀ g, o.objectClass ≠ .globalProxy g) (hi : name.arrayIndex? = none)
    (hl : s.site.kind = .store → s.engine.heap.isArray (.object id) → name = .length →
      s.engine.heap.isFast id = false)
    (hc : s.engine.heap.lookupForStore id name = (true, found)) :
    Upkeep rules s (updateStore old (.object id) id name found) fun _ => True := by
  simp only [updateStore, upkeep_heap, upkeep_current]
  split
  · exact upkeep_pure ss trivial
  · rename_i plan hplan
    refine realizeAdvance_upkeep ss old _ name (StubSpec.Compiled.sound ?_ ss.engine.heap)
    split at hplan
    · cases hplan
      exact StubSpec.compiled_premonomorphic ..
    · exact Heap.storePlan?_compiled ss.engine.heap ho hp hi hl hc hplan

theorem settle_upkeep {d : Except GiveUp StubSpec}
    (hd : ∀ spec, d = .ok spec → spec.Sound rules s.engine.heap) :
    Upkeep rules s (settle d) fun stub => stub.spec.Sound rules s.engine.heap := by
  cases d with
  | ok spec =>
    have hs := hd spec rfl
    exact (request_upkeep ss hs).imp fun stub e => e ▸ hs
  | error why =>
    have generic := (StubSpec.compiled_generic s.engine.heap s.site.kind s.site.mode).sound
      ss.engine.heap
    simp only [settle, upkeep_current]
    refine (trace_upkeep ss _).bind fun _ t k _ => ?_
    exact (request_upkeep k.sound (generic.mono k.grows)).imp fun stub e => e ▸ generic

omit ss in
theorem Heap.dictionaryBefore_bare (h : Heap) (receiver : Value) (holder : ObjectId) :
    h.bare.dictionaryBefore receiver holder = h.dictionaryBefore receiver holder := by
  have mode (o : JsObject) : (h.bare.shapeOf o).isDictionary = (h.shapeOf o).isDictionary := by
    rw [Heap.shapeOf_bare]
    rfl
  simp only [Heap.dictionaryBefore, Heap.prototypeOf_bare, Heap.chain_bare, Heap.object?_bare, mode]

/-- A call that is cached meets no dictionary on the way to what it finds. -/
def DirectCall (h : Heap) (receiver : Value) (name : Name) : Prop :=
  ∀ {holder : ObjectId}, (h.lookup receiver name).holder? = some holder →
    receiver = .object holder ∨ h.dictionaryBefore receiver holder = false

omit ss in
/-- Calls that are cached find their property on the receiver or below any dictionary. -/
theorem directCall_of_cacheable {h : Heap} {receiver : Value} {name : Name}
    (cacheable : (match h.lookup receiver name with
      | .property holder _ _ | .interceptor holder =>
        receiver == .object holder || !h.dictionaryBefore receiver holder
      | _ => false) = true) : DirectCall h receiver name := by
  intro holder hh
  cases e : h.lookup receiver name with
  | property | interceptor =>
    rw [e] at cacheable hh
    cases hh
    simpa using cacheable
  | _ =>
    rw [e] at cacheable
    cases cacheable

omit ss in
theorem DirectCall.kept {t : AtSite} {receiver : Value} {name : Name}
    (direct : DirectCall s.engine.heap receiver name) (k : Kept rules s t) :
    DirectCall t.engine.heap receiver name := by
  intro holder hh
  rw [← Heap.lookup_bare, k.heap, Heap.lookup_bare] at hh
  rw [← Heap.dictionaryBefore_bare, k.heap, Heap.dictionaryBefore_bare]
  exact direct hh

/-- A stub for a call is sound. -/
theorem callStub_upkeep (mode : SiteMode) {receiver : Value} {name : Name}
    (direct : DirectCall s.engine.heap receiver name) :
    Upkeep rules s (callStub mode receiver name (s.engine.heap.lookup receiver name)) fun r =>
      ∀ stub, r = some stub → stub.spec.Sound rules s.engine.heap := by
  simp only [callStub, upkeep_heap, upkeep_current]
  cases e : s.engine.heap.callSpec? s.site.kind mode receiver name
    (s.engine.heap.lookup receiver name) with
  | none => exact upkeep_pure ss (by simp)
  | some spec =>
    obtain ⟨-, holder, co⟩ := Heap.callOrigin_of_callSpec? direct e
    have hs := (co.compiled ss.engine.heap).sound ss.engine.heap
    exact (requestFiled_upkeep ss receiver name hs).imp fun r hr stub h => hr stub h ▸ hs

/-- What a call chooses is sound. -/
theorem chooseCall_upkeep (old : SiteState) {receiver : Value} {name : Name} (args : List Value)
    (direct : DirectCall s.engine.heap receiver name) :
    Upkeep rules s (chooseCall old receiver name (s.engine.heap.lookup receiver name) args)
      fun r => ∀ stub, r.2 = some stub → stub.spec.Sound rules s.engine.heap := by
  have made : ∀ (state : SiteState) (mode : SiteMode) {t}, Kept rules s t → Upkeep rules t
      (do return (state, ← callStub mode receiver name (s.engine.heap.lookup receiver name)))
      fun r => ∀ stub, r.2 = some stub → stub.spec.Sound rules s.engine.heap := by
    intro state mode t k
    have same : s.engine.heap.lookup receiver name = t.engine.heap.lookup receiver name := by
      rw [← Heap.lookup_bare, ← k.heap, Heap.lookup_bare]
    rw [same]
    refine (callStub_upkeep k.sound mode (direct.kept k)).bind fun r u k' hr => ?_
    exact upkeep_pure k'.sound fun stub e => (hr stub e).mono (.of_bare k.heap.symm)
  have simple : ∀ (state : SiteState) {spec : StubSpec}, spec.Compiled s.engine.heap →
      ∀ {t}, Kept rules s t → Upkeep rules t (do return (state, some (← request spec))) fun r =>
        ∀ stub, r.2 = some stub → stub.spec.Sound rules s.engine.heap := by
    intro state spec hc t k
    have hs := hc.sound ss.engine.heap
    refine (request_upkeep k.sound (hs.mono k.grows)).bind fun stub u k' e => ?_
    refine upkeep_pure k'.sound ?_
    rintro stub' ⟨⟩
    exact e ▸ hs
  have mega := StubSpec.compiled_megamorphic s.engine.heap s.site.kind s.site.mode
  simp only [chooseCall, upkeep_heap, upkeep_current]
  cases old with
  | uninitialized =>
    exact upkeep_ite (simple _ (StubSpec.compiled_premonomorphic ..) ss.kept) (made _ _ ss.kept)
  | monomorphic =>
    dsimp only
    split
    · exact made _ _ ss.kept
    · refine upkeep_ite ?_ (simple _ mega ss.kept)
      refine (unfile_upkeep ss s.site.target receiver name).bind fun stale t k _ => ?_
      exact upkeep_ite (made _ _ k) (simple _ mega k)
  | _ => exact made _ _ ss.kept

theorem advanceCall_upkeep (old : SiteState) (receiver : Value) (name : Name) {stub : Stub}
    (hs : stub.spec.Sound rules s.engine.heap) :
    Upkeep rules s (advanceCall old receiver name stub) fun _ => True := by
  simp only [advanceCall, upkeep_current, upkeep_heap]
  cases old with
  | uninitialized => exact install_upkeep ss hs
  | premonomorphic => exact install_upkeep ss hs
  | prototypeFailure => exact install_upkeep ss hs
  | monomorphic =>
    dsimp only
    split
    · refine (share_upkeep ss name _ ss.target).bind fun _ t k _ => ?_
      exact install_upkeep k.sound (hs.mono k.grows)
    · exact install_upkeep ss hs
  | megamorphic => exact share_upkeep ss name _ hs
  | _ => exact upkeep_pure ss trivial

/-- A miss of a call keeps everything up. -/
theorem updateCall_upkeep (old : SiteState) (receiver : Value) (name : Name) (args : List Value) :
    Upkeep rules s (updateCall old receiver name (s.engine.heap.lookup receiver name) args)
      fun _ => True := by
  simp only [updateCall, upkeep_heap]
  refine upkeep_if (fun cacheable => ?_) fun _ => upkeep_pure ss trivial
  have direct : DirectCall s.engine.heap receiver name := directCall_of_cacheable cacheable
  refine (chooseCall_upkeep ss old args direct).bind fun r t k hr => ?_
  obtain ⟨state, _ | stub⟩ := r
  · exact upkeep_pure k.sound trivial
  · refine (advanceCall_upkeep k.sound state receiver name
      ((hr stub rfl).mono k.grows)).bind fun _ u k' _ => ?_
    exact traceMiss_upkeep k'.sound name.text state

theorem record_upkeep (text : String) {spec : StubSpec} (hc : spec.Compiled s.engine.heap) :
    Upkeep rules s (record text spec) fun _ => True := by
  have hs := hc.sound ss.engine.heap
  unfold record
  refine (trace_upkeep ss text).bind fun _ t k _ => ?_
  exact requestInstall_upkeep k.sound (hs.mono k.grows)

end Books

end AtSite

end Speculation
