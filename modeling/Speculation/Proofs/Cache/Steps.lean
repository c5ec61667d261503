import Speculation.Proofs.Cache.Installation
import Speculation.Proofs.Cache.Misses

/-!
# The steps of each kind of site

What the operations install, one kind of site after the other.

* Named loads and calls take the steps of `SiteState.Advances` (`load_installs`, `call_installs`).
  Calls by key may also go megamorphic at once (`keyedCall_installs`).
* Named stores take the same steps, with two exceptions that do not look at the state of the site:
  stores to the length of a fast array and stores to the global proxy (`store_installs`).
* Operators stop once they have recorded the widest type (`compare_installs` and the lemmas after
  it).

Loads and stores by key that are not by a name take steps of their own, which also depend on the
configuration.
-/

namespace Speculation

/-! ### Plans of the resolvers -/

/-- A stub for one name, and for one shape at most. -/
structure StubSpec.SpecializedOn (name : Name) (spec : StubSpec) : Prop where
  state : spec.state = .monomorphic
  name : spec.name = some name
  single : spec.receiverShapes.length ≤ 1

theorem StubSpec.SpecializedOn.settled {name : Name} {spec : StubSpec} (s : spec.SpecializedOn name) :
    spec.Settled := settled_of_state (by simp [s.state])

/-- Specialized stubs fit every miss but the first. -/
theorem StubSpec.SpecializedOn.fits {site : Site} {old : SiteState} {name : Name} {spec : StubSpec}
    (s : spec.SpecializedOn name) (late : old ≠ .uninitialized) : AtSite.Fits site old spec where
  settled := s.settled
  first e := absurd e late
  later _ _ := s.state
  laterByKey _ _ := .inl s.state
  single := s.single

/-- So does the generic stub, where stubs are not shared. -/
theorem fits_generic {site : Site} {old : SiteState} (late : old ≠ .uninitialized)
    (k : ¬ site.kind.usesStubCache) (kind : SiteKind) (mode : SiteMode) :
    AtSite.Fits site old (.generic kind mode) where
  settled := StubSpec.settled_generic _ _
  first e := absurd e late
  later u := absurd u k
  laterByKey _ _ := .inr rfl
  single := Nat.zero_le _

namespace Heap

variable {h : Heap} {kind : SiteKind} {mode : SiteMode} {receiver : Value} {name : Name}
variable {spec : StubSpec} {plan : StubPlan}

/-- A monomorphic stub is specialized on its name. -/
theorem monomorphicSpec?_specialized {handler : Handler} {holder : Option ObjectId}
    (hs : h.monomorphicSpec? kind mode handler receiver holder name = some spec) :
    spec.SpecializedOn name := by
  obtain ⟨s, -, rfl⟩ := Option.map_eq_some_iff.1 hs
  exact ⟨rfl, rfl, Nat.le_refl 1⟩

/-- The plan of a load is specialized on its name. -/
theorem loadPlan?_specialized {found : Lookup}
    (hp : h.loadPlan? mode kind receiver name found = some plan) :
    plan.spec.SpecializedOn name := by
  obtain ⟨_, -, hm⟩ := Option.bind_eq_some_iff.1 hp
  obtain ⟨spec, hs, rfl⟩ := Option.map_eq_some_iff.1 hm
  exact monomorphicSpec?_specialized hs

/-- A load by a name that was computed gives a monomorphic stub or the generic one. -/
theorem keyedLoadPlan?_specialized {found : Lookup}
    (hp : h.keyedLoadPlan? mode kind receiver name found = some plan) :
    plan.spec.SpecializedOn name ∨ plan.spec = .generic kind mode := by
  unfold keyedLoadPlan? at hp
  split at hp
  · cases hp
  · cases hp
  · exact .inl (loadPlan?_specialized hp)
  · exact .inl (loadPlan?_specialized hp)
  · exact .inl (loadPlan?_specialized hp)
  · cases hp
    exact .inr rfl

/-- The plan of a store is specialized on its name, or gives up. -/
theorem storePlan?_specialized {id : ObjectId} {found : Lookup}
    (hp : h.storePlan? mode kind receiver id name found = some plan) :
    plan.spec.SpecializedOn name ∨ kind = .keyedStore ∧ plan.spec = .generic kind mode := by
  have filed : ∀ p : Handler × Option ObjectId,
      (h.monomorphicSpec? kind mode p.1 receiver p.2 name).map StubPlan.filed = some plan →
        plan.spec.SpecializedOn name := by
    intro p hm
    obtain ⟨spec, hs, rfl⟩ := Option.map_eq_some_iff.1 hm
    exact monomorphicSpec?_specialized hs
  unfold storePlan? at hp
  split at hp
  · rename_i hk
    split at hp
    · exact .inl (filed _ hp)
    · cases hp
      exact .inr ⟨hk, rfl⟩
  · obtain ⟨p, -, hm⟩ := Option.bind_eq_some_iff.1 hp
    exact .inl (filed p hm)

/-- A stub for calls is specialized on its name. -/
theorem callSpec?_specialized {found : Lookup}
    (hs : h.callSpec? kind mode receiver name found = some spec) : spec.SpecializedOn name := by
  obtain ⟨_, -, hm⟩ := Option.bind_eq_some_iff.1 hs
  exact monomorphicSpec?_specialized hm

/-- Properties that no shape describes take the same steps as the others. -/
theorem intrinsicSpec?_moves {site : Site} (proper : AtSite.Proper site) {old : SiteState}
    (m : AtSite.MissesFrom site old) {handler : Handler}
    (hs : h.intrinsicSpec? site.kind site.mode old receiver name handler = some spec) :
    AtSite.Moves site spec := by
  have special : StubSpec.SpecializedOn name
      { kind := site.kind, state := .monomorphic, mode := site.mode, handler, name := some name } :=
    ⟨rfl, rfl, Nat.zero_le _⟩
  unfold intrinsicSpec? at hs
  split at hs
  · cases hs
    exact (AtSite.fits_premonomorphic rfl _ _).moves_first m
  · cases hs
    exact (special.fits (by decide)).moves_later proper m (.inl rfl)
  · have mono : site.targetState = .monomorphic := by
      rcases m with e | ⟨e, -⟩
      · exact e.symm
      · cases e
    split at hs
    · cases hs
      refine ⟨fun _ => ?_, fun _ => ?_, special.settled, Nat.zero_le _⟩
      · rw [mono]
        exact .respecialize
      · rw [mono]
        exact .specialize (by decide)
    · cases hs
      exact AtSite.moves_megamorphic fun _ => mono
  · cases hs
  · cases hs
    refine AtSite.moves_megamorphic fun u => ?_
    -- Sites that share their stubs come here only after a prototype changed.
    obtain ⟨e, hp, hf, hg, hd⟩ | ⟨-, e⟩ := m.cases proper u
    · cases old <;> contradiction
    · exact e

end Heap

namespace AtSite

variable {s : AtSite} {α : Type}

/-! ### Loads -/

theorem resolveIntrinsic_installs (proper : Proper s.site) {old : SiteState}
    (m : MissesFrom s.site old) (receiver : Value) (name : Name) :
    Installs s (resolveIntrinsic old receiver name) (Moves s.site) := by
  simp only [resolveIntrinsic, installs_heap]
  split
  · simp only [installs_config]
    refine installs_if (fun _ => ?_) fun _ => .inl rfl
    simp only [installs_current]
    split
    · exact .inl rfl
    · rename_i spec hs
      refine (request_spares spec).bind_installs fun stub t _ hstub => ?_
      refine Installs.bind_spares ?_ fun _ _ =>
        (traceMiss_spares _ old).bind fun _ _ _ _ => spares_pure trivial
      refine (install_installs stub).imp fun spec' e => ?_
      rw [e, hstub]
      exact Heap.intrinsicSpec?_moves proper m hs
  · exact .inl rfl

/-- Where nothing was found, nothing was installed. -/
theorem resolveIntrinsic_none {old : SiteState} {receiver : Value} {name : Name} {t : AtSite}
    (h : resolveIntrinsic old receiver name s = (.ok none, t)) : t.site = s.site := by
  unfold resolveIntrinsic at h
  obtain ⟨g, _, e, h⟩ := Computation.bind_eq_ok h
  cases e
  cases hh : s.engine.heap.intrinsicHandler? receiver name with
  | none =>
    simp only [hh] at h
    rw [(Computation.pure_eq_ok h).2]
  | some handler =>
    cases hv : s.engine.heap.intrinsic? receiver name with
    | none =>
      simp only [hh, hv] at h
      rw [(Computation.pure_eq_ok h).2]
    | some v =>
      -- Every other branch ends with the value.
      simp only [hh, hv] at h
      obtain ⟨_, _, e, h⟩ := Computation.bind_eq_ok h
      split at h
      · obtain ⟨site, _, e, h⟩ := Computation.bind_eq_ok h
        cases hs : s.engine.heap.intrinsicSpec? site.kind site.mode old receiver name handler with
        | none =>
          simp only [hs] at h
          cases (Computation.pure_eq_ok h).1
        | some spec =>
          simp only [hs] at h
          obtain ⟨_, _, -, h⟩ := Computation.bind_eq_ok h
          obtain ⟨_, _, -, h⟩ := Computation.bind_eq_ok h
          obtain ⟨_, _, -, h⟩ := Computation.bind_eq_ok h
          cases (Computation.pure_eq_ok h).1
      · cases (Computation.pure_eq_ok h).1

/-- Both kinds of loads choose a stub that fits the state of the miss. -/
theorem updateLoad_installs (proper : Proper s.site)
    (hk : s.site.kind = .load ∨ s.site.kind = .keyedLoad) {old : SiteState}
    (m : MissesFrom s.site old) (receiver : Value) (name : Name) (found : Lookup) :
    Installs s (updateLoad old receiver name found) (Moves s.site) := by
  have hpre : s.site.kind.usesPremonomorphic := by rcases hk with e | e <;> rw [e] <;> rfl
  simp only [updateLoad, installs_heap, installs_current]
  refine installs_if (fun _ => ?_) fun _ => .inl rfl
  split
  · exact .inl rfl
  · rename_i plan hp
    refine realizeAdvance_installs proper m receiver name ?_
    split at hp
    · rename_i h
      cases hp
      have hu : old = .uninitialized := by
        simp only [Bool.and_eq_true, decide_eq_true_eq] at h
        exact h.1
      exact fits_premonomorphic hu _ _
    · rename_i h
      have hu : old ≠ .uninitialized := by simpa [hpre] using h
      split at hp
      · rename_i hkey
        rcases Heap.keyedLoadPlan?_specialized hp with special | hg
        · exact special.fits hu
        · rw [hg]
          exact fits_generic hu (by rw [hkey]; decide) _ _
      · exact (Heap.loadPlan?_specialized hp).fits hu

theorem resolveLoad_installs (proper : Proper s.site)
    (hk : s.site.kind = .load ∨ s.site.kind = .keyedLoad) (receiver : Value) (name : Name) :
    Installs s (resolveLoad receiver name) (Moves s.site) := by
  simp only [resolveLoad, installs_heap]
  refine installs_if (fun _ => (spares_onHeap _).installs) fun _ => ?_
  refine (stateOfMiss_spares receiver name).bind_installs fun old t ht m => ?_
  rw [← ht] at proper hk m ⊢
  refine (resolveIntrinsic_installs proper m receiver name).bind fun r u e => ?_
  cases r with
  | some v => exact .inl (spares_pure trivial)
  | none =>
    -- The site is the one that missed.
    have hu := resolveIntrinsic_none e
    refine .inr ⟨hu, ?_⟩
    rw [← hu] at proper hk m ⊢
    dsimp only
    split
    · simp only [installs_current, installs_config]
      refine installs_if (fun h => ?_) fun _ => (spares_onHeap _).installs
      refine (request_spares _).bind_installs fun stub t _ hstub => ?_
      refine Installs.bind_spares ?_ fun _ _ =>
        (traceMiss_spares _ old).bind fun _ _ _ _ => spares_onHeap _
      refine (install_installs stub).imp fun spec e => ?_
      rw [e, hstub]
      simp only [Bool.and_eq_true, decide_eq_true_eq] at h
      refine ⟨fun uc => ?_, fun _ => .settle _, StubSpec.settled_generic _ _, Nat.zero_le _⟩
      rw [h.1] at uc
      cases uc
    · simp only [installs_heap]
      refine installs_if (fun _ => (spares_onHeap _).installs) fun _ => ?_
      simp only [installs_config]
      refine installs_if (fun _ => ?_) fun _ => (spares_onHeap _).installs
      exact (updateLoad_installs proper hk m receiver name _).bind_spares fun _ _ =>
        spares_onHeap _

/-! ### Running the installed stub -/

theorem dispatchLoad_spares (receiver : Value) (key : Key) :
    Spares s (dispatchLoad receiver key) fun o =>
      s.site.target.handler = .generic → ∃ v, o = .hit v := by
  simp only [dispatchLoad, spares_current]
  refine spares_if (fun h => ?_) fun h => ⟨rfl, fun o e g => ?_⟩
  · have ne : s.site.target.handler ≠ .generic := by
      rw [h]
      decide
    refine (probe_spares ..).bind fun r t _ _ => ?_
    cases r with
    | some spec => exact (spares_onHeap _).imp fun _ _ g => absurd g ne
    | none => exact spares_pure fun g => absurd g ne
  · -- The generic stub reads by the general rules, which answer or fail.
    obtain ⟨t, e⟩ : ∃ t, Heap.runLoad s.site.target.spec receiver key s.engine.heap = (.ok o, t) :=
      ⟨_, Prod.ext e rfl⟩
    have g' : s.site.target.spec.handler = .generic := g
    simp only [Heap.runLoad, g'] at e
    obtain ⟨v, t', -, e⟩ := Computation.bind_eq_ok e
    exact ⟨v, (Computation.pure_eq_ok e).1.symm⟩

/-- A load makes a move. -/
theorem load_installs (proper : Proper s.site) (hk : s.site.kind = .load) (receiver : Value)
    (name : Name) : Installs s (load receiver name) (Moves s.site) := by
  refine (dispatchLoad_spares receiver (.named name)).bind_installs fun o t ht _ => ?_
  rw [← ht] at proper hk ⊢
  cases o with
  | hit v => exact .inl rfl
  | miss => exact resolveLoad_installs proper (.inl hk) receiver name
  | missForGood => exact resolveLoad_installs proper (.inl hk) receiver name

end AtSite

/-! ### Stores -/

namespace Heap

/-- The action hits, fails or leaves the heap as it is. -/
def HitsOrKeeps (h : Heap) (a : Action Outcome) : Prop :=
  ∀ o t, a h = (.ok o, t) → (∃ v, o = .hit v) ∨ t = h

theorem hitsOrKeeps_pure (h : Heap) (o : Outcome) : h.HitsOrKeeps (pure o) :=
  fun _ _ e => .inr (Computation.pure_eq_ok e).2.symm

theorem hitsOrKeeps_hit {α : Type} (h : Heap) (a : Action α) (v : Value) :
    h.HitsOrKeeps (do let _ ← a; return .hit v) := by
  intro o t e
  obtain ⟨_, _, -, e⟩ := Computation.bind_eq_ok e
  exact .inl ⟨v, (Computation.pure_eq_ok e).1.symm⟩

@[simp] theorem hitsOrKeeps_get {h : Heap} {f : Heap → Action Outcome} :
    h.HitsOrKeeps (get >>= f) ↔ h.HitsOrKeeps (f h) := Iff.rfl

theorem hitsOrKeeps_run {h : Heap} {f : Heap → Outcome × Heap}
    (hf : (∃ v, (f h).1 = .hit v) ∨ (f h).2 = h) : h.HitsOrKeeps (run f) := by
  intro o t e
  have e : ((.ok (f h).1 : Except Fault Outcome), (f h).2) = (.ok o, t) := e
  cases e
  exact hf

theorem storeInDictionary_hitsOrKeeps (h : Heap) (id : ObjectId) (name : Option Name) (v : Value) :
    h.HitsOrKeeps (storeInDictionary id name v) := by
  simp only [storeInDictionary, hitsOrKeeps_get]
  split
  · exact h.hitsOrKeeps_pure _
  · split
    · split
      · exact h.hitsOrKeeps_pure _
      · exact h.hitsOrKeeps_hit _ v
    · exact h.hitsOrKeeps_pure _

theorem storeElementFast_hitsOrKeeps (h : Heap) (id : ObjectId) (key : Key) (v : Value)
    (kind : ElementsKind) (grow : Bool) (target : Option ShapeId) :
    h.HitsOrKeeps (run fun h => h.storeElementFast id key v kind grow target) := by
  obtain ⟨m, -, e⟩ | ⟨i, o, -, -, -, -, e⟩ := h.storeElementFast_cases id key v kind grow target
  · exact hitsOrKeeps_run (.inr (congrArg Prod.snd e))
  · exact hitsOrKeeps_run (.inl ⟨v, congrArg Prod.fst e⟩)

theorem storeArgument_hitsOrKeeps (h : Heap) (id : ObjectId) (key : Key) (v : Value) :
    h.HitsOrKeeps (run fun h => h.storeArgument id key v) := by
  refine hitsOrKeeps_run ?_
  unfold storeArgument
  split
  · split
    · split
      · exact .inl ⟨v, rfl⟩
      · exact .inr rfl
    · exact .inr rfl
  · exact .inr rfl

theorem storeByHandler_hitsOrKeeps (h : Heap) (spec : StubSpec) (receiver : Value) (id : ObjectId)
    (key : Key) (v : Value) : h.HitsOrKeeps (storeByHandler spec receiver id key v) := by
  simp only [storeByHandler, hitsOrKeeps_get]
  cases spec.handler with
  | storeField index transition => cases transition <;> exact h.hitsOrKeeps_hit _ v
  | storeNormal => exact h.storeInDictionary_hitsOrKeeps id _ v
  | storeGlobal global => exact h.storeInDictionary_hitsOrKeeps global _ v
  | storeViaSetter setter => exact h.hitsOrKeeps_hit _ v
  | storeArrayLength =>
    cases v with
    | smi i =>
      dsimp only
      split
      · exact h.hitsOrKeeps_hit _ _
      · exact h.hitsOrKeeps_pure _
    | _ => exact h.hitsOrKeeps_pure _
  | storeGlobalProxy =>
    dsimp only
    split
    · exact h.hitsOrKeeps_pure _
    · exact h.hitsOrKeeps_hit _ v
  | storeElement kind grow => exact h.storeElementFast_hitsOrKeeps id key v kind grow none
  | storeElementPolymorphic targets =>
    dsimp only
    split
    · exact h.storeElementFast_hitsOrKeeps id key v _ _ none
    · exact h.storeElementFast_hitsOrKeeps id key v _ _ (some _)
    · exact h.hitsOrKeeps_pure _
  | storeNonStrictArguments => exact h.storeArgument_hitsOrKeeps id key v
  | _ => exact h.hitsOrKeeps_pure _

/-- A store stub that misses has not touched the heap. -/
theorem runStore_hitsOrKeeps (h : Heap) (spec : StubSpec) (receiver : Value) (key : Key)
    (v : Value) : h.HitsOrKeeps (runStore spec receiver key v) := by
  have guarded : h.HitsOrKeeps (guardedStore spec receiver key v) := by
    simp only [guardedStore, hitsOrKeeps_get]
    split
    · split
      · exact h.storeByHandler_hitsOrKeeps spec receiver _ key v
      · exact h.hitsOrKeeps_pure _
    · exact h.hitsOrKeeps_pure _
  unfold runStore
  cases spec.handler with
  | fresh => exact h.hitsOrKeeps_pure _
  | premonomorphic => exact h.hitsOrKeeps_pure _
  | megamorphic => exact h.hitsOrKeeps_pure _
  | generic => exact h.hitsOrKeeps_hit _ v
  | _ => exact guarded

/-- Whether a store is to the length of an array whose shape says what it has. -/
def storesLength (h : Heap) (receiver : Value) (name : Name) : Bool :=
  name = .length && h.isArray receiver && receiver.objectId?.any h.isFast

end Heap

namespace AtSite

theorem dispatchStore_spares (receiver : Value) (key : Key) (v : Value) :
    Spares s (dispatchStore receiver key v) fun o =>
      s.site.target.handler = .generic → ∃ w, o = .hit w := by
  simp only [dispatchStore, spares_current]
  refine spares_if (fun h => ?_) fun h => ⟨rfl, fun o e g => ?_⟩
  · have ne : s.site.target.handler ≠ .generic := by
      rw [h]
      decide
    refine (probe_spares ..).bind fun r t _ _ => ?_
    cases r with
    | some spec => exact (spares_onHeap _).imp fun _ _ g => absurd g ne
    | none => exact spares_pure fun g => absurd g ne
  · obtain ⟨t, e⟩ : ∃ t, Heap.runStore s.site.target.spec receiver key v s.engine.heap = (.ok o, t) :=
      ⟨_, Prod.ext e rfl⟩
    have g' : s.site.target.spec.handler = .generic := g
    simp only [Heap.runStore, g'] at e
    obtain ⟨_, _, -, e⟩ := Computation.bind_eq_ok e
    exact ⟨v, (Computation.pure_eq_ok e).1.symm⟩

theorem probe_heap (stub : Stub) (receiver : Value) (key : Key) :
    (probe stub receiver key s).2.engine.heap = s.engine.heap := by
  have read {α : Type} (f : Heap → Action α) : (heap >>= f) s = f s.engine.heap s := rfl
  simp only [probe, read]
  cases key.name? s.engine.heap with
  | none => rfl
  | some name =>
    cases s.engine.heap.probeShape? stub.kind receiver with
    | none => rfl
    | some shape =>
      simp only [Computation.get_bind, Computation.modify_bind]
      cases (s.engine.stubCache.get ⟨name, shape, stub.kind⟩).1 <;> rfl

/-- Running the installed stub, or the one that the stub cache has, leaves the heap as it is or hits
if stubs do. -/
theorem dispatch_heap {receiver : Value} {key : Key} (run : StubSpec → Heap.Action Outcome)
    (keeps : ∀ (spec : StubSpec) (h : Heap), h.HitsOrKeeps (run spec)) {o : Outcome} {t : AtSite}
    (e : (do
      let stub := (← current).target
      if stub.handler = .megamorphic then
        match ← probe stub receiver key with
        | some spec => onHeap (run spec)
        | none => return .miss
      else onHeap (run stub.spec) : Action Outcome) s = (.ok o, t)) :
    (∃ w, o = .hit w) ∨ t.engine.heap = s.engine.heap := by
  have ran {spec : StubSpec} {u : AtSite} (hu : u.engine.heap = s.engine.heap)
      (e : onHeap (run spec) u = (.ok o, t)) :
      (∃ w, o = .hit w) ∨ t.engine.heap = s.engine.heap := by
    rcases r : run spec u.engine.heap with ⟨x, h⟩
    simp only [onHeap, r] at e
    cases e
    rw [← hu]
    exact keeps spec u.engine.heap o h r
  obtain ⟨_, _, e', e⟩ := Computation.bind_eq_ok e
  cases e'
  dsimp only at e
  split at e
  · obtain ⟨found, u, e', e⟩ := Computation.bind_eq_ok e
    have hu : u.engine.heap = s.engine.heap := by
      have := probe_heap (s := s) s.site.target receiver key
      rwa [e'] at this
    cases found with
    | none =>
      rw [← (Computation.pure_eq_ok e).2]
      exact .inr hu
    | some spec => exact ran hu e
  · exact ran rfl e

/-- A store that misses has not touched the heap. -/
theorem dispatchStore_heap {receiver : Value} {key : Key} {v : Value} {o : Outcome} {t : AtSite}
    (e : dispatchStore receiver key v s = (.ok o, t)) :
    (∃ w, o = .hit w) ∨ t.engine.heap = s.engine.heap :=
  dispatch_heap (fun spec => Heap.runStore spec receiver key v)
    (fun spec h => h.runStore_hitsOrKeeps spec receiver key v) e

/-- Unless its stub asks the stub cache, a site runs its own stub. -/
theorem dispatchLoad_own (receiver : Value) (key : Key)
    (plain : s.site.target.spec.handler ≠ .megamorphic) :
    dispatchLoad receiver key s = onHeap (Heap.runLoad s.site.target.spec receiver key) s :=
  congrFun (if_neg plain) s

/-- A site that is not megamorphic runs its own stub for a store. -/
theorem dispatchStore_own (receiver : Value) (key : Key) (v : Value)
    (plain : s.site.target.spec.handler ≠ .megamorphic) :
    dispatchStore receiver key v s = onHeap (Heap.runStore s.site.target.spec receiver key v) s :=
  congrFun (if_neg plain) s

/-- A site that is not megamorphic runs its own stub for a call. -/
theorem dispatchCall_own (receiver : Value) (key : Key) (args : List Value)
    (plain : s.site.target.spec.handler ≠ .megamorphic) :
    dispatchCall receiver key args s =
      onHeap (Heap.runCall s.site.target.spec receiver key args) s :=
  congrFun (if_neg plain) s

/-- What a site for named stores may install: a stub that is one step further, and the stubs for
the length of arrays and for the global proxy whatever its state is. -/
inductive StoreMoves (h : Heap) (receiver : Value) (name : Name) (site : Site) (spec : StubSpec) :
    Prop where
  | step (moves : Moves site spec)
  | length (kind : site.kind = .store) (stored : h.storesLength receiver name)
      (state : spec.state = .monomorphic)
  | proxy (kind : site.kind = .store) (receiver : h.isGlobalProxy receiver)
      (state : spec.state = .megamorphic)

theorem updateStore_installs (proper : Proper s.site)
    (hk : s.site.kind = .store ∨ s.site.kind = .keyedStore) {old : SiteState}
    (m : MissesFrom s.site old) (receiver : Value) (id : ObjectId) (name : Name) (found : Lookup) :
    Installs s (updateStore old receiver id name found) (Moves s.site) := by
  have hpre : s.site.kind.usesPremonomorphic := by rcases hk with e | e <;> rw [e] <;> rfl
  simp only [updateStore, installs_heap, installs_current]
  split
  · exact .inl rfl
  · rename_i plan hp
    refine realizeAdvance_installs proper m receiver name ?_
    split at hp
    · rename_i h
      cases hp
      have hu : old = .uninitialized := by
        simp only [Bool.and_eq_true, decide_eq_true_eq] at h
        exact h.1
      exact fits_premonomorphic hu _ _
    · rename_i h
      have hu : old ≠ .uninitialized := by simpa [hpre] using h
      rcases Heap.storePlan?_specialized hp with special | ⟨hkey, hg⟩
      · exact special.fits hu
      · rw [hg]
        exact fits_generic hu (by rw [hkey]; decide) _ _

theorem resolveStore_installs (proper : Proper s.site)
    (hk : s.site.kind = .store ∨ s.site.kind = .keyedStore) (receiver : Value) (name : Name)
    (v : Value) :
    Installs s (resolveStore receiver name v)
      (StoreMoves s.engine.heap receiver name s.site) := by
  simp only [resolveStore, installs_heap, installs_current]
  -- (spares_onHeap _).installs) => The slow paths patch nothing. Of the rest, an array's length
  -- and a proxy have stubs of their own and everything else goes by the state of the site.
  refine installs_if (fun _ => (spares_onHeap _).installs) fun _ => ?_
  refine installs_if (fun _ => (spares_onHeap _).installs) fun _ => ?_
  split
  · exact .inl rfl
  · rename_i id hid
    split
    · exact (spares_onHeap _).installs
    · refine (stateOfMiss_spares receiver name).bind_installs fun old t ht m => ?_
      simp only [installs_config]
      refine installs_if (fun hl => ?_) fun _ => ?_
      · simp only [Bool.and_eq_true, decide_eq_true_eq] at hl
        obtain ⟨⟨⟨⟨-, hkind⟩, harray⟩, hname⟩, hfast⟩ := hl
        refine Installs.bind_spares ?_ fun _ _ => spares_onHeap _
        refine (installTraced_installs _ _ old).imp ?_
        rintro spec rfl
        refine .length hkind ?_ rfl
        have hobject : receiver.objectId? = some id := (Option.filter_eq_some_iff.1 hid).1
        simp [Heap.storesLength, hname, harray, hobject, hfast]
      · refine installs_if (fun hp => ?_) fun _ => ?_
        · refine installs_if (fun h => ?_) fun _ => (spares_onHeap _).installs
          simp only [Bool.and_eq_true, decide_eq_true_eq] at h
          refine Installs.bind_spares ?_ fun _ _ => spares_onHeap _
          refine (installTraced_installs _ _ old).imp ?_
          rintro spec rfl
          exact .proxy h.2 hp rfl
        · refine installs_if (fun _ => ?_) fun _ =>
            installs_if (fun _ => (spares_onHeap _).installs) fun _ => (spares_onHeap _).installs
          refine installs_if (fun _ => ?_) fun _ => (spares_onHeap _).installs
          refine Installs.bind_spares ?_ fun _ _ => spares_onHeap _
          rw [← ht] at proper hk m ⊢
          exact (updateStore_installs proper hk m receiver id name _).imp fun _ => .step

/-- A store makes a move, or installs what only stores install. -/
theorem store_installs (proper : Proper s.site) (hk : s.site.kind = .store) (receiver : Value)
    (name : Name) (v : Value) :
    Installs s (store receiver name v) (StoreMoves s.engine.heap receiver name s.site) := by
  refine (dispatchStore_spares receiver (.named name) v).installs.bind fun o t e => ?_
  have site : t.site = s.site := by
    have := (dispatchStore_spares (s := s) receiver (.named name) v).1
    rwa [e] at this
  -- A miss has not changed the heap, so the resolver sees the heap before the store.
  have resolve (heap : t.engine.heap = s.engine.heap) :
      t.site = s.site ∧
        Installs t (resolveStore receiver name v) (StoreMoves s.engine.heap receiver name s.site) := by
    rw [← site] at proper hk
    rw [← heap, ← site]
    exact ⟨rfl, resolveStore_installs proper (.inl hk) receiver name v⟩
  cases o with
  | hit w => exact .inl (spares_pure trivial)
  | miss => exact .inr (resolve ((dispatchStore_heap e).resolve_left (by simp)))
  | missForGood => exact .inr (resolve ((dispatchStore_heap e).resolve_left (by simp)))

/-! ### Calls -/

theorem callStub_spares (mode : SiteMode) (receiver : Value) (name : Name) (found : Lookup) :
    Spares s (callStub mode receiver name found) fun r =>
      ∀ stub, r = some stub → stub.spec.SpecializedOn name := by
  simp only [callStub, spares_heap, spares_current]
  split
  · exact spares_pure (by simp)
  · rename_i spec hs
    refine (requestFiled_spares receiver name spec).imp fun r hr stub e => ?_
    rw [hr stub e]
    exact Heap.callSpec?_specialized hs

/-- What a call may install from a state: a stub that is one step further. At megamorphic sites the
choice only goes to the stub cache. -/
structure Chooses (site : Site) (state : SiteState) (stub : Stub) : Prop where
  settled : stub.spec.Settled
  single : stub.spec.receiverShapes.length ≤ 1
  advances : state ≠ .megamorphic → site.targetState.Advances stub.spec.state

theorem chooseCall_spares (proper : Proper s.site) (u : s.site.kind.usesStubCache)
    {old : SiteState} (m : MissesFrom s.site old)
    (receiver : Value) (name : Name) (found : Lookup) (args : List Value) :
    Spares s (chooseCall old receiver name found args) fun r =>
      ∀ stub, r.2 = some stub → Chooses s.site r.1 stub := by
  -- A monomorphic stub is a step from everywhere but the first state.
  have specialized {state : SiteState} {stub : Stub} (special : stub.spec.SpecializedOn name)
      (late : old ≠ .uninitialized) (same : old = .megamorphic → state = .megamorphic) :
      Chooses s.site state stub := by
    refine ⟨special.settled, special.single, fun hs => ?_⟩
    rw [special.state]
    obtain ⟨e, hp, hf, hg, hd⟩ | ⟨-, e⟩ := m.cases proper u
    · rw [← e]
      cases old with
      | uninitialized => exact absurd rfl late
      | premonomorphic => exact .specialize
      | monomorphic => exact .respecialize
      | megamorphic => exact absurd (same rfl) hs
      | _ => contradiction
    · rw [e]
      exact .respecialize
  have stub (state : SiteState) (mode : SiteMode) {t : AtSite} (late : old ≠ .uninitialized)
      (same : old = .megamorphic → state = .megamorphic) :
      Spares t (do return (state, ← callStub mode receiver name found)) fun r =>
        ∀ stub, r.2 = some stub → Chooses s.site r.1 stub := by
    refine (callStub_spares mode receiver name found).bind fun r t _ hr => ?_
    exact spares_pure fun stub e => specialized (hr stub e) late same
  simp only [chooseCall, spares_heap, spares_current]
  split
  · refine spares_if (fun _ => ?_) fun hpre => ?_
    · refine (request_spares _).bind fun stub t _ hstub => spares_pure ?_
      rintro _ ⟨⟩
      refine ⟨hstub ▸ StubSpec.settled_premonomorphic _ _, hstub ▸ Nat.zero_le _, fun _ => ?_⟩
      rw [hstub]
      obtain ⟨e, -⟩ | ⟨e, -⟩ := m.cases proper u
      · rw [← e]
        exact .delay
      · cases e
    · -- All sites that share their stubs delay.
      refine absurd ?_ hpre
      revert u
      cases s.site.kind <;> decide
  · split
    · exact stub _ _ (by decide) (by simp)
    · have next (stale : Bool) {t : AtSite} : Spares t (do
          if stale then return (.prototypeFailure, ← callStub s.site.mode receiver name found)
          else return (.monomorphic, some (← request (.megamorphic s.site.kind s.site.mode))))
          fun r => ∀ stub, r.2 = some stub → Chooses s.site r.1 stub := by
        refine spares_if (fun _ => stub _ _ (by decide) (by simp)) fun _ => ?_
        refine (request_spares _).bind fun stub t _ hstub => spares_pure ?_
        rintro _ ⟨⟩
        refine ⟨hstub ▸ StubSpec.settled_megamorphic _ _, by simp [hstub], fun _ => ?_⟩
        rw [hstub, StubSpec.state_megamorphic u]
        obtain ⟨e, -⟩ | ⟨e, -⟩ := m.cases proper u
        · rw [← e]
          exact .spread
        · cases e
      refine spares_if (fun _ => ?_) fun _ => ?_
      · exact (unfile_spares ..).bind fun stale t _ _ => next stale
      · exact (spares_pure trivial).bind fun stale t _ (_ : True) => next stale
  · rename_i hu hm
    exact stub _ _ hu fun e => e

theorem advanceCall_installs (state : SiteState) (receiver : Value) (name : Name) (stub : Stub) :
    Installs s (advanceCall state receiver name stub) fun spec =>
      spec = stub.spec ∧ state ≠ .megamorphic := by
  simp only [advanceCall, installs_heap, installs_current]
  cases state with
  | uninitialized => exact (install_installs stub).imp fun _ e => ⟨e, by decide⟩
  | premonomorphic => exact (install_installs stub).imp fun _ e => ⟨e, by decide⟩
  | prototypeFailure => exact (install_installs stub).imp fun _ e => ⟨e, by decide⟩
  | monomorphic =>
    refine installs_if (fun _ => ?_) fun _ =>
      (install_installs stub).imp fun _ e => ⟨e, by decide⟩
    refine (share_spares ..).bind_installs fun _ t _ _ => ?_
    exact (install_installs stub).imp fun _ e => ⟨e, by decide⟩
  | megamorphic => exact (share_spares ..).installs
  | _ => exact .inl rfl

theorem updateCall_installs (proper : Proper s.site) (u : s.site.kind.usesStubCache)
    {old : SiteState} (m : MissesFrom s.site old) (receiver : Value) (name : Name) (found : Lookup)
    (args : List Value) :
    Installs s (updateCall old receiver name found args) (Moves s.site) := by
  simp only [updateCall, installs_heap]
  refine installs_if (fun _ => ?_) fun _ => .inl rfl
  refine (chooseCall_spares proper u m receiver name found args).bind_installs fun r t ht hr => ?_
  obtain ⟨state, _ | stub⟩ := r
  · exact .inl rfl
  · obtain ⟨settled, single, advances⟩ := hr stub rfl
    refine Installs.bind_spares ?_ fun _ _ => traceMiss_spares _ state
    refine (advanceCall_installs state receiver name stub).imp ?_
    rintro spec ⟨rfl, hs⟩
    exact .of_advances u (advances hs) settled single

theorem elementOrMethod_installs (proper : Proper s.site) (u : s.site.kind.usesStubCache)
    {old : SiteState} (m : MissesFrom s.site old) (receiver : Value) (name : Name) (args : List Value)
    (element : Option Value) :
    Installs s (elementOrMethod old receiver name args element) (Moves s.site) := by
  simp only [elementOrMethod, installs_heap]
  split
  · exact .inl rfl
  · refine installs_if (fun _ => (spares_onHeap _).installs) fun _ => ?_
    simp only [installs_config]
    refine installs_if (fun _ => ?_) fun _ => (spares_onHeap _).installs
    exact (updateCall_installs proper u m receiver name _ args).bind_spares fun _ _ =>
      spares_onHeap _

theorem resolveCall_installs (proper : Proper s.site) (u : s.site.kind.usesStubCache)
    (receiver : Value) (name : Name) (args : List Value) :
    Installs s (resolveCall receiver name args) (Moves s.site) := by
  rw [resolveCall_eq, installs_heap]
  refine installs_if (fun _ => (spares_onHeap _).installs) fun _ => ?_
  refine (stateOfMiss_spares receiver name).bind_installs fun old t ht m => ?_
  rw [← ht] at proper u m ⊢
  refine (spares_onHeap _).bind_installs fun element w hw _ => ?_
  rw [← hw] at proper u m ⊢
  exact elementOrMethod_installs proper u m receiver name args element

theorem dispatchCall_spares (receiver : Value) (key : Key) (args : List Value) :
    Spares s (dispatchCall receiver key args) fun _ => True := by
  simp only [dispatchCall, spares_current]
  refine spares_if (fun _ => ?_) fun _ => spares_onHeap _
  have general {t : AtSite} : Spares t (if s.site.target.kind = .call then pure .miss
      else onHeap (Heap.calleeByKey receiver key)) fun _ => True :=
    spares_if (fun _ => spares_pure trivial) fun _ => spares_onHeap _
  refine (probe_spares ..).bind fun r t _ _ => ?_
  cases r with
  | some spec =>
    refine (spares_onHeap _).bind fun found u _ _ => ?_
    cases found with
    | hit f => exact spares_pure trivial
    | miss | missForGood => exact general
  | none =>
    refine (spares_pure rfl).bind fun found u _ (e : .miss = found) => ?_
    rw [← e]
    exact general

/-- A call makes a move. -/
theorem call_installs (proper : Proper s.site) (u : s.site.kind.usesStubCache) (receiver : Value)
    (name : Name) (args : List Value) :
    Installs s (call receiver name args) (Moves s.site) := by
  refine (dispatchCall_spares receiver (.named name) args).bind_installs fun o t ht _ => ?_
  rw [← ht] at proper u ⊢
  cases o with
  | hit f => exact (spares_onHeap (Heap.call f receiver args)).installs
  | miss =>
    exact (resolveCall_installs proper u receiver name args).bind_spares fun _ _ => spares_onHeap _
  | missForGood =>
    exact (resolveCall_installs proper u receiver name args).bind_spares fun _ _ => spares_onHeap _

/-- Calls by keys that are no names make the site megamorphic at once. -/
inductive CallMoves (site : Site) (spec : StubSpec) : Prop where
  | step (moves : Moves site spec)
  | spread (before : site.targetState ≠ .megamorphic) (after : spec.state = .megamorphic)

theorem resolveKeyedCall_installs (proper : Proper s.site) (hk : s.site.kind = .keyedCall)
    (receiver key : Value) (args : List Value) :
    Installs s (resolveKeyedCall receiver key args) (CallMoves s.site) := by
  simp only [resolveKeyedCall, onHeap_keyedMethod, installs_heap]
  split
  · exact (resolveCall_installs proper (by rw [hk]; rfl) receiver _ args).imp fun _ => .step
  · refine installs_if (fun _ => (spares_onHeap _).installs) fun _ => ?_
    simp only [installs_current, installs_config]
    refine installs_if (fun hm => ?_) fun _ => (spares_onHeap _).installs
    simp only [Bool.and_eq_true, decide_eq_true_eq] at hm
    refine Installs.bind_spares ?_ fun _ _ => spares_onHeap _
    refine (installTraced_installs ..).imp ?_
    rintro spec rfl
    refine .spread hm.2 ?_
    split
    · rfl
    · exact StubSpec.state_megamorphic (by rw [hk]; rfl) _

/-- A keyed call makes a move, or gives up. -/
theorem keyedCall_installs (proper : Proper s.site) (hk : s.site.kind = .keyedCall)
    (receiver key : Value) (args : List Value) :
    Installs s (keyedCall receiver key args) (CallMoves s.site) := by
  refine (dispatchCall_spares receiver (.computed key) args).bind_installs fun o t ht _ => ?_
  rw [← ht] at proper hk ⊢
  cases o with
  | hit f => exact (spares_onHeap (Heap.call f receiver args)).installs
  | miss =>
    exact (resolveKeyedCall_installs proper hk receiver key args).bind_spares fun _ _ =>
      spares_onHeap _
  | missForGood =>
    exact (resolveKeyedCall_installs proper hk receiver key args).bind_spares fun _ _ =>
      spares_onHeap _

/-! ### Operators -/

theorem foreign_spares (text : String) : Spares s (foreign text : Action α) fun _ => True := by
  simp only [foreign, spares_current]
  exact spares_throw

theorem record_installs (text : String) (spec : StubSpec) :
    Installs s (record text spec) (· = spec) := by
  refine (trace_spares text).bind_installs fun _ t _ _ => ?_
  exact requestInstall_installs spec

/-- What an operator may record: a stub that its kind may hold, unless it has recorded the widest
type. -/
def Records (site : Site) (spec : StubSpec) : Prop :=
  ¬ site.kind.servesAll site.target.handler ∧ site.kind.Holds spec

theorem compare_installs (hk : s.site.kind = .compare) (x y : Value) :
    Installs s (compare x y) (Records s.site) := by
  simp only [compare, installs_current]
  split
  · rename_i f hf
    simp only [installs_heap]
    refine installs_if (fun h => ?_) fun _ => .inl rfl
    refine Installs.bind_spares ?_ fun _ _ => spares_pure trivial
    refine (record_installs _ _).imp ?_
    rintro spec rfl
    refine ⟨fun all => ?_, hk ▸ SiteKind.holds_compare _⟩
    have hg : f.state = .generic := by simpa [hk, hf, SiteKind.servesAll] using all
    simp [CompareFeedback.handles, hg] at h
  · exact (foreign_spares _).installs

theorem unary_installs (hk : s.site.kind = .unaryOp) (x : Value) :
    Installs s (unary x) (Records s.site) := by
  simp only [unary, installs_current]
  split
  · rename_i f hf
    refine (spares_onHeap _).bind_installs fun result t ht _ => ?_
    simp only [installs_heap]
    refine installs_if (fun h => ?_) fun _ => .inl rfl
    refine Installs.bind_spares ?_ fun _ _ => spares_pure trivial
    refine (record_installs _ _).imp ?_
    rintro spec rfl
    refine ⟨fun all => ?_, hk ▸ SiteKind.holds_unary _⟩
    have hg : f.operand = .generic := by simpa [hk, hf, SiteKind.servesAll] using all
    simp [UnaryFeedback.handles, hg] at h
  · exact (foreign_spares _).installs

theorem binary_installs (hk : s.site.kind = .binaryOp) (x y : Value) :
    Installs s (binary x y) (Records s.site) := by
  simp only [binary, installs_current]
  split
  · rename_i f hf
    refine (spares_onHeap _).bind_installs fun result t ht _ => ?_
    simp only [installs_heap]
    refine installs_if (fun h => ?_) fun _ => .inl rfl
    refine Installs.bind_spares ?_ fun _ _ => spares_pure trivial
    refine (record_installs _ _).imp ?_
    rintro spec rfl
    refine ⟨fun all => ?_, hk ▸ SiteKind.holds_binary _⟩
    have hg : f.overall = .generic := by simpa [hk, hf, SiteKind.servesAll] using all
    simp [BinaryFeedback.handles, hg] at h
  · exact (foreign_spares _).installs

theorem toBoolean_installs (hk : s.site.kind = .toBoolean) (x : Value) :
    Installs s (toBoolean x) (Records s.site) := by
  simp only [toBoolean, installs_current]
  split
  · simp only [installs_heap]
    refine installs_if (fun h => ?_) fun _ => .inl rfl
    refine Installs.bind_spares ?_ fun _ _ => spares_pure trivial
    refine (record_installs _ _).imp ?_
    rintro spec rfl
    exact ⟨by simp [hk, SiteKind.servesAll], hk ▸ SiteKind.holds_toBoolean _⟩
  · exact (foreign_spares _).installs

/-! ### Clearing -/

/-- A site that is cleared has a stub that its kind may hold, for no shape. -/
theorem clear_installs (s : AtSite) :
    Installs s clear fun spec => s.site.kind.Holds spec ∧ spec.receiverShapes = [] := by
  have reset (spec : StubSpec) (hs : s.site.kind.Holds spec ∧ spec.receiverShapes = []) :
      Installs s (do
        let stub ← request spec
        modify fun s => { s with site := s.site.patch stub })
        fun spec => s.site.kind.Holds spec ∧ spec.receiverShapes = [] :=
    (request_spares spec).bind_installs fun stub t _ hstub => .inr ⟨stub, hstub ▸ hs, rfl⟩
  simp only [clear, installs_current]
  refine installs_if (fun _ => .inl rfl) fun _ => ?_
  split
  · rename_i hkind _
    refine installs_if (fun _ => reset _ ⟨?_, rfl⟩) fun _ => .inl rfl
    exact hkind ▸ SiteKind.holds_compare _
  · exact .inl rfl
  · exact .inl rfl
  · exact .inl rfl
  · exact .inl rfl
  · exact reset _ ⟨SiteKind.holds_fresh _ _, rfl⟩

end AtSite

end Speculation
