import Speculation.Cache.Access
import Speculation.Cache.Operator
import Speculation.Proofs.Action
import Speculation.Proofs.Cache.Origin

/-!
# What actions at a site install

An action leaves its site as it is or installs one stub. `AtSite.Spares` says that an action does
not touch the site, `AtSite.Installs` that it installs at most one stub, of a certain sort. Nothing
is asked of the heap or of the engine: both may be anything, and only what the site was before
matters.

The state machine of the sites for named properties is `SiteState.Advances`, and `advance_installs`
says that installing a resolver's choice is one of its steps. `SiteKind.Holds` is what all sites of
a kind have in common as long as they are used with their own operation.
-/

namespace Speculation

/-! ### The order of states -/

namespace SiteState

/-- The place of a state on the way of a site for named properties. The states that such sites
never have are not on it. -/
def rung? : SiteState → Option Nat
  | uninitialized => some 0
  | premonomorphic => some 1
  | monomorphic => some 2
  | megamorphic => some 3
  | _ => none

/-- Both states are on the way, and the second one is not before the first. -/
def Climbs (a b : SiteState) : Prop := ∃ m n, a.rung? = some m ∧ b.rung? = some n ∧ m ≤ n

theorem Climbs.refl {a : SiteState} (h : a.rung?.isSome) : a.Climbs a := by
  obtain ⟨n, hn⟩ := Option.isSome_iff_exists.1 h
  exact ⟨n, n, hn, hn, Nat.le_refl n⟩

theorem Climbs.trans {a b c : SiteState} (h : a.Climbs b) (h' : b.Climbs c) : a.Climbs c := by
  obtain ⟨m, n, ha, hb, hmn⟩ := h
  obtain ⟨n', k, hb', hc, hnk⟩ := h'
  obtain rfl := Option.some.inj (hb.symm.trans hb')
  exact ⟨m, k, ha, hc, Nat.le_trans hmn hnk⟩

theorem Climbs.isSome {a b : SiteState} (h : a.Climbs b) : b.rung?.isSome := by
  obtain ⟨m, n, -, hb, -⟩ := h
  simp [hb]

/-- A site on the way has not gone beyond the megamorphic state. -/
theorem climbs_megamorphic {a : SiteState} (h : a.rung?.isSome) : a.Climbs .megamorphic := by
  cases a <;> first | exact ⟨_, _, rfl, rfl, by decide⟩ | cases h

/-- Nothing is above the megamorphic state. -/
theorem Climbs.eq_megamorphic {b : SiteState} (h : megamorphic.Climbs b) : b = .megamorphic := by
  obtain ⟨m, n, hm, hn, hle⟩ := h
  cases b <;> cases hm <;> cases hn <;> first | rfl | omega

/-- The steps of a site for named properties. -/
inductive Advances : SiteState → SiteState → Prop where
  | delay : Advances uninitialized premonomorphic
  | specialize : Advances premonomorphic monomorphic
  /-- After a prototype changed, or for a wider mode. -/
  | respecialize : Advances monomorphic monomorphic
  | spread : Advances monomorphic megamorphic

/-- A miss moves a site up. -/
theorem Advances.climbs {a b : SiteState} (h : Advances a b) : a.Climbs b := by
  cases h <;> exact ⟨_, _, rfl, rfl, by decide⟩

/-- A megamorphic site stays where it is. -/
theorem Advances.ne_megamorphic {a b : SiteState} (h : Advances a b) : a ≠ .megamorphic := by
  cases h <;> decide

/-- The way of a site for loads or stores by key. -/
def keyedWay : List SiteState :=
  [uninitialized, premonomorphic, monomorphic, polymorphic, generic]

/-- The steps of a site for loads or stores by key that meets no further shape. -/
inductive AdvancesByKey : SiteState → SiteState → Prop where
  | delay : AdvancesByKey uninitialized premonomorphic
  | specialize {a : SiteState} (early : a ∈ [uninitialized, premonomorphic, monomorphic]) :
    AdvancesByKey a monomorphic
  | settle (a : SiteState) : AdvancesByKey a generic

/-- A miss of a keyed site leads along its own way. -/
theorem AdvancesByKey.mem_keyedWay {a b : SiteState} (h : AdvancesByKey a b) : b ∈ keyedWay := by
  cases h <;> decide

theorem AdvancesByKey.ne_polymorphic {a b : SiteState} (h : AdvancesByKey a b) :
    b ≠ polymorphic := by
  cases h <;> decide

end SiteState

/-! ### Sorts of stubs -/

/-- A stub for good: it does everything by the general rules. -/
def StubSpec.Settled (spec : StubSpec) : Prop := spec.state = .generic → spec.handler = .generic

/-- A stub that is not generic is settled. -/
theorem StubSpec.settled_of_state {spec : StubSpec} (h : spec.state ≠ .generic) : spec.Settled :=
  fun g => absurd g h

theorem StubSpec.settled_generic (kind : SiteKind) (mode : SiteMode) :
    (StubSpec.generic kind mode).Settled := fun _ => rfl

theorem StubSpec.settled_premonomorphic (kind : SiteKind) (mode : SiteMode) :
    (StubSpec.premonomorphic kind mode).Settled :=
  settled_of_state (by simp [premonomorphic])

theorem StubSpec.settled_megamorphic (kind : SiteKind) (mode : SiteMode) :
    (StubSpec.megamorphic kind mode).Settled := by
  cases kind <;> first | exact settled_generic _ mode | exact settled_of_state nofun

theorem StubSpec.state_megamorphic {kind : SiteKind} (h : kind.usesStubCache) (mode : SiteMode) :
    (StubSpec.megamorphic kind mode).state = .megamorphic := by
  cases kind <;> first | rfl | cases h

theorem StubSpec.state_megamorphic_byKey {kind : SiteKind}
    (h : kind = .keyedLoad ∨ kind = .keyedStore) (mode : SiteMode) :
    (StubSpec.megamorphic kind mode).state = .generic := by
  rcases h with rfl | rfl <;> rfl

@[simp] theorem StubSpec.receiverShapes_megamorphic (kind : SiteKind) (mode : SiteMode) :
    (StubSpec.megamorphic kind mode).receiverShapes = [] := by
  cases kind <;> rfl

/-- Whether a handler is for several shapes at sites of a kind. -/
def SiteKind.servesSeveral : SiteKind → Handler → Bool
  | .keyedLoad, .loadElementPolymorphic _ | .keyedStore, .storeElementPolymorphic _ => true
  | _, _ => false

/-- What sites for loads and stores by key may hold: stubs for several shapes only where their
state says so. -/
structure StubSpec.ByKey (kind : SiteKind) (spec : StubSpec) : Prop where
  way : spec.state ∈ SiteState.keyedWay
  single : spec.state ≠ .polymorphic → spec.receiverShapes.length ≤ 1
  shapes : spec.state = .polymorphic → spec.receiverShapes ≠ []
  several : spec.state = .polymorphic → kind.servesSeveral spec.handler

/-- Whether a handler serves every operation of a kind of sites and never asks for another. -/
def SiteKind.servesAll : SiteKind → Handler → Bool
  | .keyedLoad, .generic | .keyedStore, .generic => true
  | .compare, .compare f => f.state = .generic
  | .unaryOp, .unaryOp f => f.operand = .generic
  | .binaryOp, .binaryOp f => f.overall = .generic
  | _, _ => false

/-- The stubs that a kind of sites may hold: sites that share their stubs keep to the states on
the way, and a generic stub serves every operation. -/
structure SiteKind.Holds (kind : SiteKind) (spec : StubSpec) : Prop where
  rung : kind.usesStubCache → spec.state.rung?.isSome
  generic : spec.state = .generic → kind.servesAll spec.handler
  byKey : kind = .keyedLoad ∨ kind = .keyedStore → spec.ByKey kind

namespace SiteKind

variable {kind : SiteKind} {spec : StubSpec}

theorem not_byKey (u : kind.usesStubCache) : ¬ (kind = .keyedLoad ∨ kind = .keyedStore) := by
  rintro (rfl | rfl) <;> cases u

/-- A site with a stub cache holds stubs on the rungs of its ladder. -/
theorem holds_of_rung (u : kind.usesStubCache) (h : spec.state.rung?.isSome) : kind.Holds spec where
  rung _ := h
  generic g := by simp [g, SiteState.rung?] at h
  byKey k := absurd k (not_byKey u)

theorem holds_fresh (kind : SiteKind) (mode : SiteMode) : kind.Holds (.fresh kind mode) where
  rung _ := rfl
  generic g := by cases g
  byKey _ := ⟨List.mem_cons_self, fun _ => Nat.zero_le _, nofun, nofun⟩

theorem Holds.settled (h : spec.Settled) (hk : kind = .keyedLoad ∨ kind = .keyedStore)
    (byKey : spec.ByKey kind) : kind.Holds spec where
  rung u := absurd hk (not_byKey u)
  generic g := by
    rw [h g]
    rcases hk with rfl | rfl <;> rfl
  byKey _ := byKey

theorem holds_compare (f : CompareFeedback) : SiteKind.compare.Holds f.spec where
  rung u := by cases u
  generic g := by
    have h : f.state.siteState = .generic := g
    cases e : f.state <;> simp [e, CompareType.siteState] at h
    simp [servesAll, CompareFeedback.spec, e]
  byKey k := by rcases k with k | k <;> cases k

theorem holds_unary (f : UnaryFeedback) : SiteKind.unaryOp.Holds f.spec where
  rung u := by cases u
  generic g := by
    have h : f.operand.siteState = .generic := g
    cases e : f.operand <;> simp [e, UnaryType.siteState] at h
    simp [servesAll, UnaryFeedback.spec, e]
  byKey k := by rcases k with k | k <;> cases k

theorem holds_binary (f : BinaryFeedback) : SiteKind.binaryOp.Holds f.spec where
  rung u := by cases u
  generic g := by
    have h : f.overall.siteState = .generic := g
    cases e : f.overall <;> simp [e, BinaryType.siteState] at h
    simp [servesAll, BinaryFeedback.spec, e]
  byKey k := by rcases k with k | k <;> cases k

theorem holds_toBoolean (t : TestedTypes) : SiteKind.toBoolean.Holds t.spec where
  rung u := by cases u
  generic g := by
    -- A truth test is never generic.
    have h : t.siteState = .generic := g
    unfold TestedTypes.siteState at h
    split at h <;> cases h
  byKey k := by rcases k with k | k <;> cases k

end SiteKind

namespace AtSite

variable {s : AtSite} {α β : Type}

/-! ### Actions that leave the site alone -/

/-- The action does not touch the site, and its result, if there is one, has a property. -/
def Spares (s : AtSite) (a : Action α) (post : α → Prop) : Prop :=
  (a s).2.site = s.site ∧ ∀ x, (a s).1 = .ok x → post x

theorem spares_pure {x : α} {post : α → Prop} (hx : post x) : Spares s (pure x) post :=
  ⟨rfl, fun _ e => Except.ok.inj e ▸ hx⟩

theorem spares_throw {e : Fault} {post : α → Prop} : Spares s (throw e : Action α) post :=
  ⟨rfl, nofun⟩

theorem spares_onHeap (a : Heap.Action α) : Spares s (onHeap a) fun _ => True :=
  ⟨rfl, fun _ _ => trivial⟩

/-- The rule for sequences. -/
theorem Spares.bind_eq {a : Action α} {f : α → Action β} {pre : α → Prop} {post : β → Prop}
    (ha : Spares s a pre)
    (next : ∀ x t, a s = (.ok x, t) → t.site = s.site → pre x → Spares t (f x) post) :
    Spares s (a >>= f) post := by
  obtain ⟨site, result⟩ := ha
  rcases e : a s with ⟨_ | x, t⟩
  · rw [e] at site
    rw [Spares, Computation.bind_error e]
    exact ⟨site, nofun⟩
  · rw [e] at site result
    obtain ⟨site', result'⟩ := next x t e site (result x rfl)
    rw [Spares, Computation.bind_ok e]
    exact ⟨site'.trans site, result'⟩

theorem Spares.bind {a : Action α} {f : α → Action β} {pre : α → Prop} {post : β → Prop}
    (ha : Spares s a pre) (next : ∀ x t, t.site = s.site → pre x → Spares t (f x) post) :
    Spares s (a >>= f) post := ha.bind_eq fun x t _ => next x t

theorem Spares.imp {a : Action α} {pre post : α → Prop} (ha : Spares s a pre)
    (hp : ∀ x, pre x → post x) : Spares s a post := ⟨ha.1, fun x h => hp x (ha.2 x h)⟩

theorem spares_if {c : Prop} [Decidable c] {a b : Action α} {post : α → Prop}
    (ha : c → Spares s a post) (hb : ¬ c → Spares s b post) :
    Spares s (if c then a else b) post := by
  split
  · exact ha ‹_›
  · exact hb ‹_›

/-! ### Actions that install a stub -/

/-- The action leaves the site as it is, or installs one stub of a certain sort. -/
def Installs (s : AtSite) (a : Action α) (sort : StubSpec → Prop) : Prop :=
  (a s).2.site = s.site ∨ ∃ stub, sort stub.spec ∧ (a s).2.site = s.site.patch stub

/-- What spares the site installs nothing, of whatever sort. -/
theorem Spares.installs {a : Action α} {post : α → Prop} {sort : StubSpec → Prop}
    (ha : Spares s a post) : Installs s a sort := .inl ha.1

/-- An action that spares the site comes first. -/
theorem Spares.bind_installs {a : Action α} {f : α → Action β} {pre : α → Prop}
    {sort : StubSpec → Prop} (ha : Spares s a pre)
    (next : ∀ x t, t.site = s.site → pre x → Installs t (f x) sort) :
    Installs s (a >>= f) sort := by
  obtain ⟨site, result⟩ := ha
  rcases e : a s with ⟨_ | x, t⟩
  · rw [e] at site
    exact .inl (by rw [Computation.bind_error e, site])
  · rw [e] at site result
    rw [Installs, Computation.bind_ok e, ← site]
    exact next x t site (result x rfl)

/-- The second action may use what the first one left. -/
theorem Installs.bind {a : Action α} {f : α → Action β} {sort : StubSpec → Prop}
    (ha : Installs s a sort) (next : ∀ x t, a s = (.ok x, t) →
      Spares t (f x) (fun _ => True) ∨ t.site = s.site ∧ Installs t (f x) sort) :
    Installs s (a >>= f) sort := by
  rcases e : a s with ⟨_ | x, t⟩
  · rw [Installs, e] at ha
    rwa [Installs, Computation.bind_error e]
  · rw [Installs, e] at ha
    rw [Installs, Computation.bind_ok e]
    rcases next x t e with spares | ⟨site, installs⟩
    · rwa [spares.1]
    · rwa [← site]

/-- An action that spares the site comes last. -/
theorem Installs.bind_spares {a : Action α} {f : α → Action β} {sort : StubSpec → Prop}
    (ha : Installs s a sort) (next : ∀ x t, Spares t (f x) fun _ => True) :
    Installs s (a >>= f) sort := ha.bind fun x t _ => .inl (next x t)

theorem Installs.imp {a : Action α} {sort sort' : StubSpec → Prop} (ha : Installs s a sort)
    (hs : ∀ spec, sort spec → sort' spec) : Installs s a sort' := by
  rcases ha with h | ⟨stub, hsort, h⟩
  · exact .inl h
  · exact .inr ⟨stub, hs _ hsort, h⟩

theorem installs_if {c : Prop} [Decidable c] {a b : Action α} {sort : StubSpec → Prop}
    (ha : c → Installs s a sort) (hb : ¬ c → Installs s b sort) :
    Installs s (if c then a else b) sort := by
  split
  · exact ha ‹_›
  · exact hb ‹_›

/-! ### Reading the state -/

section Reads

variable {post : α → Prop} {sort : StubSpec → Prop}

@[simp] theorem spares_heap {f : Heap → Action α} :
    Spares s (heap >>= f) post ↔ Spares s (f s.engine.heap) post := Iff.rfl

@[simp] theorem spares_current {f : Site → Action α} :
    Spares s (current >>= f) post ↔ Spares s (f s.site) post := Iff.rfl

@[simp] theorem spares_config {f : Config → Action α} :
    Spares s (config >>= f) post ↔ Spares s (f s.engine.config) post := Iff.rfl

@[simp] theorem spares_get {f : AtSite → Action α} :
    Spares s (get >>= f) post ↔ Spares s (f s) post := Iff.rfl

@[simp] theorem installs_heap {f : Heap → Action α} :
    Installs s (heap >>= f) sort ↔ Installs s (f s.engine.heap) sort := Iff.rfl

@[simp] theorem installs_current {f : Site → Action α} :
    Installs s (current >>= f) sort ↔ Installs s (f s.site) sort := Iff.rfl

@[simp] theorem installs_config {f : Config → Action α} :
    Installs s (config >>= f) sort ↔ Installs s (f s.engine.config) sort := Iff.rfl

end Reads

/-! ### Stubs and traces -/

theorem request_spares (spec : StubSpec) : Spares s (request spec) fun stub => stub.spec = spec :=
  ⟨rfl, fun _ e => Except.ok.inj e ▸ StubTable.spec_request _ spec⟩

theorem requestFiled_spares (receiver : Value) (name : Name) (spec : StubSpec) :
    Spares s (requestFiled receiver name spec) fun r => ∀ stub, r = some stub → stub.spec = spec := by
  simp only [requestFiled, spares_heap]
  cases s.engine.heap.filingShape? receiver spec.cacheHolder with
  | none => exact spares_pure (by simp)
  | some shape =>
    dsimp only
    cases e : (s.engine.heap.shape shape).cachedStub? name fun t => t.spec == spec with
    | some stub =>
      have hstub : stub.spec = spec := by simpa using List.find?_some e
      exact spares_pure (by simpa using hstub)
    | none =>
      refine (request_spares spec).bind fun stub t _ hstub => ?_
      exact ⟨rfl, fun _ e => Except.ok.inj e ▸ by simpa using hstub⟩

theorem share_spares (name : Name) (shape : Option ShapeId) (stub : Stub) :
    Spares s (share name shape stub) fun _ => True := by
  cases shape <;> exact ⟨rfl, fun _ _ => trivial⟩

theorem trace_spares (text : String) : Spares s (trace text) fun _ => True := by
  simp only [trace, spares_config]
  split <;> exact ⟨rfl, fun _ _ => trivial⟩

theorem traceMiss_spares (key : String) (old : SiteState) :
    Spares s (traceMiss key old) fun _ => True := by
  simp only [traceMiss, spares_current]
  exact trace_spares _

theorem unfile_spares (stub : Stub) (receiver : Value) (name : Name) :
    Spares s (unfile stub receiver name) fun _ => True := by
  simp only [unfile, spares_heap]
  split
  · exact spares_pure trivial
  · split <;> exact ⟨rfl, fun _ _ => trivial⟩

/-- The state from which a miss is resolved is that of the site, or tells of a changed
prototype. -/
def MissesFrom (site : Site) (old : SiteState) : Prop :=
  old = site.targetState ∨ old = .prototypeFailure ∧ site.targetState = .monomorphic

theorem stateOfMiss_spares (receiver : Value) (name : Name) :
    Spares s (stateOfMiss receiver name) (MissesFrom s.site) := by
  simp only [stateOfMiss, spares_current]
  refine spares_if (fun h => ?_) fun _ => spares_pure (.inl rfl)
  simp only [Bool.and_eq_true, decide_eq_true_eq] at h
  refine (unfile_spares _ receiver name).bind fun stale t _ _ => ?_
  cases stale with
  | true => exact spares_pure (.inr ⟨rfl, h.1.1⟩)
  | false => exact spares_pure (.inl h.1.1.symm)

theorem realize_spares (receiver : Value) (name : Name) (plan : StubPlan) :
    Spares s (realize receiver name plan) fun r => ∀ stub, r = some stub → stub.spec = plan.spec := by
  cases plan with
  | common spec =>
    refine (request_spares spec).bind fun stub t _ hstub => ?_
    exact spares_pure fun _ e => Option.some.inj e ▸ hstub
  | filed spec => exact requestFiled_spares receiver name spec

theorem probe_spares (stub : Stub) (receiver : Value) (key : Key) :
    Spares s (probe stub receiver key) fun _ => True := by
  simp only [probe, spares_heap]
  split
  · simp only [spares_get]
    refine Spares.bind (⟨rfl, fun _ _ => trivial⟩ : Spares _ _ fun _ => True) fun _ t _ _ => ?_
    split <;> exact spares_pure trivial
  · exact spares_pure trivial

/-- Installing is the only step that changes a site. -/
theorem install_installs (stub : Stub) : Installs s (install stub) (· = stub.spec) := by
  simp only [install, installs_config]
  split
  · exact .inr ⟨stub, rfl, rfl⟩
  · exact .inl rfl

theorem requestInstall_installs (spec : StubSpec) :
    Installs s (do install (← request spec)) (· = spec) := by
  refine (request_spares spec).bind_installs fun stub t _ hstub => ?_
  exact hstub ▸ install_installs stub

/-- A traced installation installs the stub that was asked for. -/
theorem installTraced_installs (spec : StubSpec) (key : String) (old : SiteState) :
    Installs s (installTraced spec key old) (· = spec) := by
  refine (request_spares spec).bind_installs fun stub t _ hstub => ?_
  refine Installs.bind_spares ?_ fun _ _ => traceMiss_spares key old
  exact hstub ▸ install_installs stub

/-! ### Steps of a site for named properties -/

/-- A stub that a site may move on to: one step further on the way of its kind; and a generic stub
is for good. -/
structure Moves (site : Site) (spec : StubSpec) : Prop where
  advances : site.kind.usesStubCache → site.targetState.Advances spec.state
  byKey : site.kind = .keyedLoad ∨ site.kind = .keyedStore →
    site.targetState.AdvancesByKey spec.state
  settled : spec.Settled
  single : spec.receiverShapes.length ≤ 1

/-- A step of a site that shares its stubs. -/
theorem Moves.of_advances {site : Site} {spec : StubSpec} (u : site.kind.usesStubCache)
    (advances : site.targetState.Advances spec.state) (settled : spec.Settled)
    (single : spec.receiverShapes.length ≤ 1) : Moves site spec :=
  ⟨fun _ => advances, fun k => absurd k (SiteKind.not_byKey u), settled, single⟩

/-- The site has a stub that its kind may hold. -/
abbrev Proper (site : Site) : Prop := site.kind.Holds site.target.spec

/-- Sites that share their stubs miss from a state on the way, or after a prototype changed. -/
theorem MissesFrom.cases {site : Site} {old : SiteState} (m : MissesFrom site old)
    (proper : Proper site) (u : site.kind.usesStubCache) :
    (old = site.targetState ∧ old ≠ .polymorphic ∧ old ≠ .prototypeFailure ∧ old ≠ .generic ∧
      old ≠ .debugStub) ∨
    (old = .prototypeFailure ∧ site.targetState = .monomorphic) := by
  rcases m with rfl | ⟨rfl, hm⟩
  · have hr : site.targetState.rung?.isSome := proper.rung u
    left
    refine ⟨rfl, ?_, ?_, ?_, ?_⟩ <;>
    · intro e
      rw [e] at hr
      cases hr
  · exact .inr ⟨rfl, hm⟩

/-- Sites for loads and stores by key miss from a state on their way, or after a prototype
changed. -/
theorem MissesFrom.casesByKey {site : Site} {old : SiteState} (m : MissesFrom site old)
    (proper : Proper site) (k : site.kind = .keyedLoad ∨ site.kind = .keyedStore) :
    (old = site.targetState ∧ old ≠ .prototypeFailure) ∨
    (old = .prototypeFailure ∧ site.targetState = .monomorphic) := by
  rcases m with rfl | ⟨rfl, hm⟩
  · refine .inl ⟨rfl, fun e => ?_⟩
    have way : site.targetState ∈ SiteState.keyedWay := (proper.byKey k).way
    rw [e] at way
    revert way
    decide
  · exact .inr ⟨rfl, hm⟩

/-- What a resolver may choose, given the state of the miss. -/
structure Fits (site : Site) (old : SiteState) (spec : StubSpec) : Prop where
  settled : spec.Settled
  first : old = .uninitialized → spec.state = .premonomorphic
  later : site.kind.usesStubCache → old ≠ .uninitialized → spec.state = .monomorphic
  laterByKey : site.kind = .keyedLoad ∨ site.kind = .keyedStore → old ≠ .uninitialized →
    spec.state = .monomorphic ∨ spec.state = .generic
  single : spec.receiverShapes.length ≤ 1

/-- Every kind of site may delay. -/
theorem fits_premonomorphic {site : Site} {old : SiteState} (first : old = .uninitialized)
    (kind : SiteKind) (mode : SiteMode) : Fits site old (.premonomorphic kind mode) where
  settled := StubSpec.settled_premonomorphic _ _
  first _ := rfl
  later _ ne := absurd first ne
  laterByKey _ ne := absurd first ne
  single := Nat.zero_le _

/-- After a miss from the first state of all the site delays. -/
theorem Fits.moves_first {site : Site} {spec : StubSpec} (fits : Fits site .uninitialized spec)
    (m : MissesFrom site .uninitialized) : Moves site spec := by
  have first : site.targetState = .uninitialized := by
    rcases m with e | ⟨e, -⟩
    · exact e.symm
    · cases e
  refine ⟨fun _ => ?_, fun _ => ?_, fits.settled, fits.single⟩
  · rw [first, fits.first rfl]
    exact .delay
  · rw [first, fits.first rfl]
    exact .delay

/-- After a miss from the second state, or after a prototype changed, it specializes. -/
theorem Fits.moves_later {site : Site} {old : SiteState} {spec : StubSpec} (fits : Fits site old spec)
    (proper : Proper site) (m : MissesFrom site old)
    (hold : old = .premonomorphic ∨ old = .prototypeFailure) : Moves site spec := by
  have late : old ≠ .uninitialized := by rcases hold with rfl | rfl <;> decide
  refine ⟨fun u => ?_, fun k => ?_, fits.settled, fits.single⟩
  · rw [fits.later u late]
    obtain ⟨e, -, ne, -⟩ | ⟨-, e⟩ := m.cases proper u
    · rw [← e, hold.resolve_right ne]
      exact .specialize
    · rw [e]
      exact .respecialize
  · have early : site.targetState ∈ [.uninitialized, .premonomorphic, .monomorphic] := by
      obtain ⟨e, ne⟩ | ⟨-, e⟩ := m.casesByKey proper k
      · rw [← e, hold.resolve_right ne]
        decide
      · rw [e]
        decide
    rcases fits.laterByKey k late with e | e
    · rw [e]
      exact .specialize early
    · rw [e]
      exact .settle _

/-- A monomorphic site that meets another kind of receiver. -/
theorem moves_megamorphic {site : Site} (mono : site.kind.usesStubCache → site.targetState = .monomorphic) :
    Moves site (.megamorphic site.kind site.mode) := by
  refine ⟨fun u => ?_, fun k => ?_, StubSpec.settled_megamorphic _ _, by simp⟩
  · rw [mono u, StubSpec.state_megamorphic u]
    exact .spread
  · rw [StubSpec.state_megamorphic_byKey k]
    exact .settle _

/-- Installing a stub from the state of a miss is a step of the site. -/
theorem advance_installs (proper : Proper s.site) {old : SiteState} (m : MissesFrom s.site old)
    (receiver : Value) (name : Name) {stub : Stub} (fits : Fits s.site old stub.spec) :
    Installs s (advance old receiver name stub) (Moves s.site) := by
  simp only [advance, installs_current, installs_heap]
  -- The state that the miss started from decides what the site moves to.
  cases old with
  | uninitialized => exact (install_installs stub).imp fun spec e => e ▸ fits.moves_first m
  | premonomorphic =>
    exact (install_installs stub).imp fun spec e => e ▸ fits.moves_later proper m (.inl rfl)
  | prototypeFailure =>
    exact (install_installs stub).imp fun spec e => e ▸ fits.moves_later proper m (.inr rfl)
  | monomorphic =>
    have spread : ∀ spec, spec = .megamorphic s.site.kind s.site.mode → Moves s.site spec := by
      rintro spec rfl
      refine moves_megamorphic fun u => ?_
      obtain ⟨e, -⟩ | ⟨e, -⟩ := m.cases proper u
      · exact e.symm
      · cases e
    dsimp only
    refine installs_if (fun _ => .inl rfl) fun _ => ?_
    refine installs_if (fun _ => ?_) fun _ => (requestInstall_installs _).imp spread
    refine (share_spares ..).bind_installs fun _ t ht _ => ?_
    refine (share_spares ..).bind_installs fun _ t' ht' _ => ?_
    exact (requestInstall_installs _).imp spread
  | megamorphic =>
    dsimp only
    exact installs_if (fun _ => (share_spares ..).installs) fun _ => .inl rfl
  | polymorphic =>
    refine (requestInstall_installs _).imp ?_
    rintro spec rfl
    refine ⟨fun u => ?_, fun _ => .settle _, StubSpec.settled_generic _ _, Nat.zero_le _⟩
    obtain ⟨-, ne, -⟩ | ⟨e, -⟩ := m.cases proper u
    · exact absurd rfl ne
    · cases e
  | generic => exact .inl rfl
  | debugStub => exact .inl rfl

/-- A miss installs the stub planned for it, or one of the sort that the new state has. -/
theorem realizeAdvance_installs (proper : Proper s.site) {old : SiteState}
    (m : MissesFrom s.site old) (receiver : Value) (name : Name) {plan : StubPlan}
    (fits : Fits s.site old plan.spec) :
    Installs s (do
      match ← realize receiver name plan with
      | none => return
      | some stub =>
        advance old receiver name stub
        traceMiss name.text old) (Moves s.site) := by
  refine (realize_spares receiver name plan).bind_installs fun r t ht hr => ?_
  cases r with
  | none => exact .inl rfl
  | some stub =>
    have hstub : stub.spec = plan.spec := hr stub rfl
    refine Installs.bind_spares ?_ fun _ _ => traceMiss_spares name.text old
    rw [← ht] at proper m fits ⊢
    exact advance_installs proper m receiver name (hstub ▸ fits)

end AtSite

end Speculation
