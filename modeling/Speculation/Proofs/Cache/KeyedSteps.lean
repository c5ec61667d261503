import Speculation.Proofs.Cache.Sharing

/-!
# The steps of sites for loads and stores by key

Sites for loads and stores by key do not go through the stub cache. They take the steps of
`SiteState.AdvancesByKey`, take up further shapes until there are as many as the configuration
allows, and stop once the generic stub is installed (`keyedLoad_installs`, `keyedStore_installs`).

Resolvers look at the receiver before they look at the site. One kind of receivers cuts across the
steps: the arguments object of a non-strict function makes the site monomorphic, wherever it was
(`KeyedMoves.arguments`).
-/

namespace Speculation

namespace Heap

variable {h : Heap} {receiver key : Value} {spec : StubSpec} {site : Site}

/-- Whether an access by a key that is no name meets the arguments object of a non-strict
function. -/
def meetsArguments (h : Heap) (receiver key : Value) : Bool :=
  h.isNonStrictArguments receiver &&
    match Key.simplify h key with
    | .named _ => false
    | .computed _ => true

/-! ### Loads that miss leave the heap alone -/

theorem hitsOrKeeps_hit_value (h : Heap) (a : Action Value) :
    h.HitsOrKeeps (do return .hit (← a)) := by
  intro o t e
  obtain ⟨v, _, -, e⟩ := Computation.bind_eq_ok e
  exact .inl ⟨v, (Computation.pure_eq_ok e).1.symm⟩

theorem loadCharacter_hitsOrKeeps (h : Heap) (receiver : Value) (key : Key) :
    h.HitsOrKeeps (loadCharacter receiver key) := by
  simp only [loadCharacter, hitsOrKeeps_get]
  split
  · split
    · exact h.hitsOrKeeps_hit_value _
    · exact h.hitsOrKeeps_pure _
  · exact h.hitsOrKeeps_pure _

/-- A stub for loads hits or keeps the heap. -/
theorem loadByHandler_hitsOrKeeps (h : Heap) (spec : StubSpec) (receiver : Value) (key : Key) :
    h.HitsOrKeeps (loadByHandler spec receiver key) := by
  simp only [loadByHandler, hitsOrKeeps_get]
  cases spec.handler with
  | loadViaGetter holder getter => exact h.hitsOrKeeps_hit_value _
  | loadInterceptor holder =>
    dsimp only
    split
    · exact h.hitsOrKeeps_pure _
    · split
      · exact h.hitsOrKeeps_pure _
      · exact h.hitsOrKeeps_hit_value _
  | loadStringWrapperLength =>
    dsimp only
    split <;> exact h.hitsOrKeeps_pure _
  | loadElementPolymorphic targets =>
    dsimp only
    split
    · exact h.hitsOrKeeps_pure _
    · exact h.loadCharacter_hitsOrKeeps receiver key
    · exact h.hitsOrKeeps_pure _
  | loadIndexedString => exact h.loadCharacter_hitsOrKeeps receiver key
  | _ => exact h.hitsOrKeeps_pure _

/-- A load stub that misses has not touched the heap. -/
theorem runLoad_hitsOrKeeps (h : Heap) (spec : StubSpec) (receiver : Value) (key : Key) :
    h.HitsOrKeeps (runLoad spec receiver key) := by
  unfold runLoad
  cases spec.handler with
  | fresh | premonomorphic | megamorphic => exact h.hitsOrKeeps_pure _
  | generic => exact h.hitsOrKeeps_hit_value _
  | _ =>
    simp only [hitsOrKeeps_get]
    split
    · exact h.loadByHandler_hitsOrKeeps spec receiver key
    · exact h.hitsOrKeeps_pure _

end Heap

namespace AtSite

variable {s : AtSite}

/-- A load that misses has not touched the heap. -/
theorem dispatchLoad_heap {receiver : Value} {key : Key} {o : Outcome} {t : AtSite}
    (e : dispatchLoad receiver key s = (.ok o, t)) :
    (∃ w, o = .hit w) ∨ t.engine.heap = s.engine.heap :=
  dispatch_heap (fun spec => Heap.runLoad spec receiver key)
    (fun spec h => h.runLoad_hitsOrKeeps spec receiver key) e

/-! ### What a site may take up -/

/-- A stub for several shapes, as many as the configuration allows, among them those that a
polymorphic site has already. -/
structure TakesShapes (c : Config) (site : Site) (spec : StubSpec) : Prop where
  state : spec.state = .polymorphic
  handler : site.kind.servesSeveral spec.handler
  shapes : spec.receiverShapes ≠ []
  known : site.targetState = .polymorphic →
    site.target.spec.receiverShapes <+: spec.receiverShapes
  bounded : spec.receiverShapes.length ≤ c.maxKeyedPolymorphism
  useIc : c.useIc

/-- What a site for loads or stores by key may take up. -/
inductive KeyedMoves (c : Config) (arguments : Prop) (site : Site) (spec : StubSpec) : Prop where
  | step (moves : Moves site spec)
  /-- Whatever the state of the site was. -/
  | arguments (met : arguments) (state : spec.state = .monomorphic)
    (shapes : spec.receiverShapes = [])
  | several (before : site.targetState = .monomorphic ∨ site.targetState = .polymorphic)
    (takes : TakesShapes c site spec)

/-- The site has a stub that its kind may hold, and it is not the generic one. -/
structure Live (site : Site) : Prop where
  proper : Proper site
  byKey : site.kind = .keyedLoad ∨ site.kind = .keyedStore
  ne_generic : site.targetState ≠ .generic

namespace Live

variable {site : Site} {spec : StubSpec} {c : Config} {arguments : Prop}

/-- A stub one step further that serves one shape is a move. -/
theorem moves (live : Live site) (advances : site.targetState.AdvancesByKey spec.state)
    (settled : spec.Settled) (single : spec.receiverShapes.length ≤ 1) :
    KeyedMoves c arguments site spec :=
  .step ⟨fun u => absurd live.byKey (SiteKind.not_byKey u), fun _ => advances, settled, single⟩

/-- Giving up is a move. -/
theorem moves_generic (live : Live site) :
    KeyedMoves c arguments site (.generic site.kind site.mode) :=
  live.moves (.settle _) (StubSpec.settled_generic _ _) (Nat.zero_le 1)

/-- A monomorphic stub for one shape or none. -/
theorem moves_monomorphic (live : Live site)
    (early : site.targetState ∈ [.uninitialized, .premonomorphic, .monomorphic])
    (state : spec.state = .monomorphic) (single : spec.receiverShapes.length ≤ 1) :
    KeyedMoves c arguments site spec :=
  live.moves (state ▸ .specialize early) (StubSpec.settled_of_state (by simp [state])) single

/-- A site is early unless it is polymorphic. -/
theorem early_or_polymorphic (live : Live site) :
    site.targetState ∈ [.uninitialized, .premonomorphic, .monomorphic] ∨
      site.targetState = .polymorphic := by
  have way : site.targetState ∈ SiteState.keyedWay := (live.proper.byKey live.byKey).way
  have ne := live.ne_generic
  revert way ne
  cases site.targetState <;> decide

/-- A site that is past the second state. -/
theorem before_several (live : Live site) (run : site.target.state ≠ .uninitialized)
    (late : site.target.state ≠ .premonomorphic) :
    site.targetState = .monomorphic ∨ site.targetState = .polymorphic := by
  refine live.early_or_polymorphic.imp_left fun early => ?_
  have run : site.targetState ≠ .uninitialized := run
  have late : site.targetState ≠ .premonomorphic := late
  simpa [run, late] using early

/-- A polymorphic site of loads knows the shapes of its stub. -/
theorem loadShapes_eq (live : Live site) (poly : site.targetState = .polymorphic) :
    Heap.loadShapes site.target = site.target.spec.receiverShapes := by
  have several := (live.proper.byKey live.byKey).several poly
  refine if_neg fun e => ?_
  rw [show site.target.spec.handler = .loadIndexedString from e] at several
  revert several
  cases site.kind <;> decide

/-- A move leads to a stub that the kind of the site may hold. -/
theorem holds (live : Live site) (m : KeyedMoves c arguments site spec) : site.kind.Holds spec := by
  cases m with
  | step moves =>
    have advances := moves.byKey live.byKey
    have single := advances.ne_polymorphic
    exact .settled moves.settled live.byKey ⟨advances.mem_keyedWay, fun _ => moves.single,
      fun e => absurd e single, fun e => absurd e single⟩
  | arguments met state shapes =>
    refine .settled (StubSpec.settled_of_state (by simp [state])) live.byKey ⟨?_, ?_, ?_, ?_⟩
    · rw [state]
      decide
    · simp [shapes]
    · simp [state]
    · simp [state]
  | several before takes =>
    refine .settled (StubSpec.settled_of_state (by simp [takes.state])) live.byKey
      ⟨?_, fun ne => absurd takes.state ne, fun _ => takes.shapes, fun _ => takes.handler⟩
    rw [takes.state]
    decide

end Live

end AtSite

namespace Heap

open AtSite

variable {h : Heap} {receiver key : Value} {spec : StubSpec} {site : Site} {c : Config}
  {arguments : Prop}

theorem elementLoadSpec_moves (live : Live site) (hk : site.kind = .keyedLoad) (on : c.useIc)
    {s : ShapeId} (hs : h.elementLoadSpec site c.maxKeyedPolymorphism s = .ok spec) :
    KeyedMoves c arguments site spec := by
  have alone (early : site.targetState ∈ [.uninitialized, .premonomorphic, .monomorphic]) :
      KeyedMoves c arguments site (h.elementLoadOf site.kind site.mode s) :=
    live.moves_monomorphic early rfl (Nat.le_refl 1)
  unfold elementLoadSpec at hs
  dsimp only at hs
  split at hs
  · rename_i e
    cases hs
    exact alone (by simp [Site.targetState, e])
  · rename_i e
    cases hs
    exact alone (by simp [Site.targetState, e])
  · rename_i none _ _
    cases hs
    refine alone (live.early_or_polymorphic.resolve_right fun poly => ?_)
    rw [live.loadShapes_eq poly] at none
    exact (live.proper.byKey live.byKey).shapes poly none
  · rename_i run late
    have before := live.before_several run late
    split at hs
    · rename_i wider
      cases hs
      refine alone ?_
      have mono : site.targetState = .monomorphic := by
        simp only [Bool.and_eq_true, decide_eq_true_eq] at wider
        exact wider.1
      simp [mono]
    · split at hs
      · cases hs
      · split at hs
        · cases hs
        · rename_i bounded
          cases hs
          refine .several before ⟨rfl, by simp [hk, SiteKind.servesSeveral], by simp, fun poly => ?_,
            by simpa using bounded, on⟩
          rw [← live.loadShapes_eq poly]
          exact List.prefix_append ..

theorem keyedLoadSpec_moves (live : Live site) (hk : site.kind = .keyedLoad) (on : c.useIc)
    {force : Bool} (met : h.isNonStrictArguments receiver → arguments)
    (hs : h.keyedLoadSpec site c.maxKeyedPolymorphism receiver key force = .ok spec) :
    KeyedMoves c arguments site spec := by
  unfold keyedLoadSpec at hs
  dsimp only at hs
  split at hs
  · cases hs
  · split at hs
    · cases hs
      split
      · rename_i first
        exact live.moves_monomorphic (by simp [first]) rfl (Nat.zero_le 1)
      · exact live.moves_generic
    · split at hs
      · rename_i nonStrict
        cases hs
        exact .arguments (met nonStrict) rfl rfl
      · split at hs
        · split at hs
          · exact elementLoadSpec_moves live hk on hs
          · cases hs
            exact live.moves_generic
        · cases hs
          exact live.moves_generic

theorem elementStoreSpec_moves (live : Live site) (hk : site.kind = .keyedStore) (on : c.useIc)
    {s moved : ShapeId} {forced grow : Bool}
    (hs : h.elementStoreSpec site c.maxKeyedPolymorphism s moved forced grow = .ok spec) :
    KeyedMoves c arguments site spec := by
  -- A stub for one shape is made in the first three states only.
  have alone (early : site.targetState ∈ [.uninitialized, .premonomorphic, .monomorphic]) :
      KeyedMoves c arguments site (h.elementStoreOf site.kind site.mode moved grow) :=
    live.moves_monomorphic early rfl (Nat.le_refl 1)
  unfold elementStoreSpec at hs
  dsimp only at hs
  split at hs
  · rename_i e
    cases hs
    exact alone (by simp [Site.targetState, e])
  · rename_i e
    cases hs
    exact alone (by simp [Site.targetState, e])
  · rename_i none _ _
    cases hs
    refine alone (live.early_or_polymorphic.resolve_right fun poly => ?_)
    exact (live.proper.byKey live.byKey).shapes poly none
  · rename_i known run late
    have before := live.before_several run late
    split at hs
    · rename_i wider
      cases hs
      refine alone ?_
      -- A forced transition that widens the one shape met replaces the stub for it.
      have mono : site.targetState = .monomorphic := by
        simp only [Bool.and_eq_true, decide_eq_true_eq] at wider
        exact wider.1.1
      simp [mono]
    · split at hs
      · cases hs
      · split at hs
        · cases hs
        · rename_i bounded
          cases hs
          have gained := (prefix_addShapeOnce site.target.spec.receiverShapes s).trans
            (prefix_addShapeOnce _ moved)
          refine .several before ⟨rfl, by simp [hk, SiteKind.servesSeveral], fun none => ?_,
            fun _ => gained, by simpa using bounded, on⟩
          have empty : site.target.spec.receiverShapes = [] := List.prefix_nil.1 (none ▸ gained)
          rw [known] at empty
          cases empty

end Heap

namespace AtSite

variable {s : AtSite} {arguments : Prop}

/-! ### Resolving misses -/

theorem settle_spares {c : Config} (live : Live s.site) {d : Except GiveUp StubSpec}
    (hd : ∀ spec, d = .ok spec → KeyedMoves c arguments s.site spec) :
    Spares s (settle d) fun stub => KeyedMoves c arguments s.site stub.spec := by
  cases d with
  | ok spec => exact (request_spares spec).imp fun stub e => e ▸ hd spec rfl
  | error why =>
    simp only [settle, spares_current]
    refine (trace_spares _).bind fun _ t _ _ => ?_
    exact (request_spares _).imp fun stub e => e ▸ live.moves_generic

/-- A miss of a keyed load makes a move. -/
theorem resolveKeyedLoad_installs (live : Live s.site) (hk : s.site.kind = .keyedLoad)
    (receiver key : Value) (force : Bool) :
    Installs s (resolveKeyedLoad receiver key force)
      (KeyedMoves s.engine.config (s.engine.heap.meetsArguments receiver key) s.site) := by
  simp only [resolveKeyedLoad, installs_heap]
  split
  · exact (resolveLoad_installs live.proper (.inr hk) receiver _).imp fun _ => .step
  · rename_i computed
    simp only [installs_current, installs_config]
    refine installs_if (fun on => ?_) fun _ => (spares_onHeap _).installs
    have met (nonStrict : s.engine.heap.isNonStrictArguments receiver) :
        s.engine.heap.meetsArguments receiver key := by
      simp [Heap.meetsArguments, nonStrict, computed]
    simp only [installs_heap]
    refine (settle_spares live fun spec => Heap.keyedLoadSpec_moves live hk on met).bind_installs
      fun stub t _ hstub => ?_
    refine Installs.bind_spares ?_ fun _ t => ?_
    · exact (install_installs stub).imp fun _ e => e ▸ hstub
    · simp only [spares_heap]
      exact (traceMiss_spares ..).bind fun _ _ _ _ => spares_onHeap _

theorem keyedStoreStub_spares (live : Live s.site) (hk : s.site.kind = .keyedStore)
    (on : s.engine.config.useIc) (receiver key v : Value) (force : Bool)
    (met : s.engine.heap.isNonStrictArguments receiver → arguments) :
    Spares s (keyedStoreStub receiver key v force) fun stub =>
      KeyedMoves s.engine.config arguments s.site stub.spec := by
  have made {spec : StubSpec} (moves : KeyedMoves s.engine.config arguments s.site spec) :
      Spares s (request spec) fun stub => KeyedMoves s.engine.config arguments s.site stub.spec :=
    (request_spares spec).imp fun stub e => e ▸ moves
  have decided {t : AtSite} (site : t.site = s.site) (config : t.engine.config = s.engine.config)
      {old moved : ShapeId} {forced grow : Bool} :
      Spares t (settle (t.engine.heap.elementStoreSpec s.site t.engine.config.maxKeyedPolymorphism
        old moved forced grow)) fun stub =>
          KeyedMoves s.engine.config arguments s.site stub.spec := by
    rw [config, ← site]
    exact settle_spares (site ▸ live) fun spec =>
      Heap.elementStoreSpec_moves (site ▸ live) (site ▸ hk) on
  simp only [keyedStoreStub, spares_heap, spares_current]
  refine spares_if (fun _ => settle_spares live (by simp)) fun _ => ?_
  split
  · exact made live.moves_generic
  · refine spares_if (fun nonStrict => made (.arguments (met nonStrict) rfl rfl)) fun _ => ?_
    refine spares_if (fun _ => ?_) fun _ => made live.moves_generic
    split
    · exact made live.moves_generic
    · split
      · refine (spares_onHeap _).bind_eq fun moved t e site _ => ?_
        simp only [spares_heap, spares_config]
        exact decided site (by cases e; rfl)
      · refine (spares_pure trivial).bind_eq fun moved t e site (_ : True) => ?_
        simp only [spares_heap, spares_config]
        exact decided site (by cases e; rfl)

/-- A move of a named store is one of a keyed site as well. -/
theorem StoreMoves.moves {h : Heap} {receiver : Value} {name : Name} {site : Site}
    {spec : StubSpec} (m : StoreMoves h receiver name site spec) (hk : site.kind = .keyedStore) :
    Moves site spec := by
  cases m with
  | step moves => exact moves
  | length kind => cases hk.symm.trans kind
  | proxy kind => cases hk.symm.trans kind

/-- A miss of a keyed store makes a move. -/
theorem resolveKeyedStore_installs (live : Live s.site) (hk : s.site.kind = .keyedStore)
    (receiver key v : Value) (force : Bool) :
    Installs s (resolveKeyedStore receiver key v force)
      (KeyedMoves s.engine.config (s.engine.heap.meetsArguments receiver key) s.site) := by
  simp only [resolveKeyedStore, installs_heap]
  split
  · exact (resolveStore_installs live.proper (.inr hk) receiver _ v).imp fun _ m => .step (m.moves hk)
  · rename_i computed
    simp only [installs_current, installs_config]
    refine installs_if (fun on => ?_) fun _ => (spares_onHeap _).installs
    have met (nonStrict : s.engine.heap.isNonStrictArguments receiver) :
        s.engine.heap.meetsArguments receiver key := by
      simp [Heap.meetsArguments, nonStrict, computed]
    refine (keyedStoreStub_spares live hk on receiver _ v force met).bind_installs
      fun stub t _ hstub => ?_
    refine Installs.bind_spares ?_ fun _ t => ?_
    · exact (install_installs stub).imp fun _ e => e ▸ hstub
    · simp only [spares_heap]
      exact (traceMiss_spares ..).bind fun _ _ _ _ => spares_onHeap _

/-! ### Accesses by key -/

/-- A site that a miss finds with the stub of a generic site would not have missed. -/
theorem live_of_miss {site : Site} (proper : Proper site)
    (hk : site.kind = .keyedLoad ∨ site.kind = .keyedStore) (missed : site.target.handler ≠ .generic) :
    Live site := by
  refine ⟨proper, hk, fun e => missed ?_⟩
  have all := proper.generic e
  change site.kind.servesAll site.target.handler at all
  revert all
  rcases hk with hk | hk <;> cases site.target.handler <;> simp [hk, SiteKind.servesAll]

/-- What a load or store by key may install at a site that does not have the generic stub. -/
abbrev KeyedInstalls (s : AtSite) (receiver key : Value) (spec : StubSpec) : Prop :=
  Live s.site ∧ KeyedMoves s.engine.config (s.engine.heap.meetsArguments receiver key) s.site spec

/-- After a miss the resolver sees the site, the heap and the configuration as they were. -/
theorem KeyedInstalls.of_miss {t : AtSite} {receiver key : Value} {a : Action Value}
    (site : t.site = s.site) (heap : t.engine.heap = s.engine.heap)
    (config : t.engine.config = s.engine.config) (live : Live s.site)
    (installs : Live t.site → Installs t a
      (KeyedMoves t.engine.config (t.engine.heap.meetsArguments receiver key) t.site)) :
    t.site = s.site ∧ Installs t a (KeyedInstalls s receiver key) := by
  have installs := installs (site ▸ live)
  rw [heap, config, site] at installs
  exact ⟨site, installs.imp fun _ moves => ⟨live, moves⟩⟩

/-- A keyed load makes a move or installs what its own rules say. -/
theorem keyedLoad_installs (proper : Proper s.site) (hk : s.site.kind = .keyedLoad)
    (receiver key : Value) :
    Installs s (keyedLoad receiver key) (KeyedInstalls s receiver key) := by
  have spares := dispatchLoad_spares (s := s) receiver (.computed key)
  refine spares.installs.bind fun o t e => ?_
  have site : t.site = s.site := by
    have := spares.1
    rwa [e] at this
  have config : t.engine.config = s.engine.config := by
    have admits : Admits (fun _ _ => True) s (dispatchLoad receiver (.computed key)) :=
      dispatchLoad_admits ..
    simpa only [e] using admits.config
  have resolve (missed : ∀ v, o ≠ .hit v) (force : Bool) :
      t.site = s.site ∧ Installs t (resolveKeyedLoad receiver key force)
        (KeyedInstalls s receiver key) := by
    have heap := (dispatchLoad_heap e).resolve_left fun ⟨v, hv⟩ => missed v hv
    have live := live_of_miss proper (.inl hk) fun g => by
      obtain ⟨v, hv⟩ := spares.2 o (by rw [e]) g
      exact missed v hv
    exact KeyedInstalls.of_miss site heap config live fun live =>
      resolveKeyedLoad_installs live (site ▸ hk) receiver key force
  cases o with
  | hit v => exact .inl (spares_pure trivial)
  | miss => exact .inr (resolve (by simp) false)
  | missForGood => exact .inr (resolve (by simp) true)

/-- A keyed store makes a move or installs what its own rules say. -/
theorem keyedStore_installs (proper : Proper s.site) (hk : s.site.kind = .keyedStore)
    (receiver key v : Value) :
    Installs s (keyedStore receiver key v) (KeyedInstalls s receiver key) := by
  have spares := dispatchStore_spares (s := s) receiver (.computed key) v
  refine spares.installs.bind fun o t e => ?_
  have site : t.site = s.site := by
    have := spares.1
    rwa [e] at this
  have config : t.engine.config = s.engine.config := by
    have admits : Admits (fun _ _ => True) s (dispatchStore receiver (.computed key) v) :=
      dispatchStore_admits ..
    simpa only [e] using admits.config
  have resolve (missed : ∀ v, o ≠ .hit v) (force : Bool) :
      t.site = s.site ∧ Installs t (resolveKeyedStore receiver key v force)
        (KeyedInstalls s receiver key) := by
    have heap := (dispatchStore_heap e).resolve_left fun ⟨v, hv⟩ => missed v hv
    have live := live_of_miss proper (.inr hk) fun g => by
      obtain ⟨v, hv⟩ := spares.2 o (by rw [e]) g
      exact missed v hv
    exact KeyedInstalls.of_miss site heap config live fun live =>
      resolveKeyedStore_installs live (site ▸ hk) receiver key v force
  cases o with
  | hit v => exact .inl (spares_pure trivial)
  | miss => exact .inr (resolve (by simp) false)
  | missForGood => exact .inr (resolve (by simp) true)

end AtSite

end Speculation
