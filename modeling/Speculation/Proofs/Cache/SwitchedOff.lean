import Speculation.Proofs.Cache.Session
import Speculation.Proofs.Cache.Steps
import Speculation.Proofs.Code.Bookkeeping

/-!
# Inline caching switched off

While inline caching is switched off, nothing is ever cached: a site keeps the stub that it was made
with, no stub enters the stub cache and no shape keeps one, whatever a program does and whether it
succeeds or fails (`switched_off_freezes`). The functions of the host get the memory with its shapes, and
must not put stubs there themselves.

Two things come together. The stubs that sites begin with always miss (`StubSpec.Initial`), so that a
site never runs anything but a resolver; and a resolver that may not cache only performs operations
of the heap, which make no stubs since they do not look at them (`Heap.Blind.bare`). `Idles site a`
says of an action that it is of this sort; `Idles.bind` is the rule for sequences, and each resolver
has one lemma.
-/

namespace Speculation

/-! ### The stubs that sites begin with -/

/-- A stub of a site that has not taken up anything. -/
inductive StubSpec.Initial : StubSpec → Prop where
  | fresh (kind : SiteKind) (mode : SiteMode) : Initial (.fresh kind mode)
  | compare (op : CompareOperator) : Initial (CompareFeedback.fresh op).spec
  | unary (op : UnaryOperator) : Initial (UnaryFeedback.fresh op).spec
  | binary (op : BinaryOperator) : Initial (BinaryFeedback.fresh op).spec
  | toBoolean : Initial (TestedTypes.spec {})

namespace StubSpec.Initial

variable {spec : StubSpec} (i : spec.Initial)

include i

theorem state : spec.state = .uninitialized := by cases i <;> rfl

theorem receiverShapes : spec.receiverShapes = [] := by cases i <;> rfl

theorem not_megamorphic : spec.handler ≠ .megamorphic := by
  intro h
  cases i <;> cases h

/-! Whatever its guards say, such a stub misses. -/

open Heap

/-- A first stub misses every load. -/
theorem runLoad_misses (receiver : Value) (key : Key) : runLoad spec receiver key = pure .miss := by
  funext h
  have guarded : (do
      if (← get).guardsHold spec receiver (key.name? (← get)) then loadByHandler spec receiver key
      else return .miss : Action Outcome) h = (.ok .miss, h) := by
    simp only [Computation.get_bind]
    split
    · cases i <;> rfl
    · rfl
  cases i with
  | fresh => rfl
  | _ => exact guarded

/-- A first stub misses every store. -/
theorem runStore_misses (receiver : Value) (key : Key) (v : Value) :
    runStore spec receiver key v = pure .miss := by
  funext h
  have guarded : guardedStore spec receiver key v h = (.ok .miss, h) := by
    simp only [guardedStore, Computation.get_bind]
    split
    · cases h.holderId? receiver .receiver with
      | none => rfl
      | some id => cases i <;> rfl
    · rfl
  cases i with
  | fresh => rfl
  | _ => exact guarded

/-- A first stub misses every call. -/
theorem runCall_misses (receiver : Value) (key : Key) (args : List Value) :
    runCall spec receiver key args = pure .miss := by
  funext h
  have guarded : (do
      let h ← get
      if h.guardsHold spec receiver (key.name? h) then calleeByHandler spec receiver key args
      else return .miss : Action Outcome) h = (.ok .miss, h) := by
    simp only [Computation.get_bind]
    split
    · cases i <;> rfl
    · rfl
  cases i with
  | fresh => rfl
  | _ => exact guarded

end StubSpec.Initial

/-! ### Operators -/

theorem UnaryOperator.blind_evaluate {w : Setting} (op : UnaryOperator) (x : Value) :
    Heap.Blind w (op.evaluate x) := Heap.blind_get (fun _ => rfl) fun _ => Heap.blind_newNumber _

theorem BinaryOperator.blind_evaluate {w : Setting} (op : BinaryOperator) (x y : Value) :
    Heap.Blind w (op.evaluate x y) := by
  refine Heap.blind_get (fun _ => rfl) fun h => ?_
  split
  · exact Heap.blind_newString _
  · exact Heap.blind_newNumber _

/-! ### Actions that cache nothing -/

/-- Inline caching is switched off, and nothing is cached. -/
structure Engine.Uncached (e : Engine) : Prop where
  off : e.config.useIc = false
  stubCache : e.stubCache.entries = {}
  heap : e.heap.bare = e.heap
  host : e.heap.host.AddsNoStubs

/-- What keeps to bare heaps keeps an engine like that. -/
theorem Engine.Uncached.onHeap {α : Type} {e : Engine} (u : e.Uncached) {a : Heap.Action α}
    (b : ∀ {w : Setting}, w.Blind → Heap.Blind w a) :
    Uncached { e with heap := (a e.heap).2 } := by
  have blind : Heap.Blind { host := e.heap.host, bare := true } a := b u.host.setting
  have same := (blind e.heap ⟨rfl, fun _ => u.heap⟩).2
  exact ⟨u.off, u.stubCache, same.bare rfl, by rw [same.host]; exact u.host⟩

namespace AtSite

variable {α β : Type} {site : Site}

/-- An action that leaves the site as it is, in an engine in which nothing is cached. -/
def Idles (site : Site) (a : Action α) : Prop :=
  ∀ e : Engine, e.Uncached → (a ⟨site, e⟩).2.site = site ∧ (a ⟨site, e⟩).2.engine.Uncached

theorem idles_pure (x : α) : Idles site (pure x) := fun _ u => ⟨rfl, u⟩

theorem idles_throw (e : Fault) : Idles site (throw e : Action α) := fun _ u => ⟨rfl, u⟩

/-- The rule for sequences. -/
theorem Idles.bind {a : Action α} {f : α → Action β} (ha : Idles site a)
    (hf : ∀ x, Idles site (f x)) : Idles site (a >>= f) := by
  intro e u
  obtain ⟨same, u'⟩ := ha e u
  rcases ht : a ⟨site, e⟩ with ⟨r, t⟩
  rw [ht] at same u'
  cases r with
  | error x => exact Computation.bind_error ht ▸ ⟨same, u'⟩
  | ok x =>
    obtain ⟨_, e'⟩ := t
    subst same
    exact Computation.bind_ok ht ▸ hf x e' u'

theorem idles_ite {c : Prop} [Decidable c] {a b : Action α} (ha : Idles site a)
    (hb : Idles site b) : Idles site (if c then a else b) := by
  split
  · exact ha
  · exact hb

/-! What an action reads: any heap, the site, and that nothing may be cached. -/

theorem idles_heap {f : Heap → Action α} (hf : ∀ h, Idles site (f h)) :
    Idles site (heap >>= f) := fun e u => hf e.heap e u

theorem idles_current {f : Site → Action α} (hf : Idles site (f site)) :
    Idles site (current >>= f) := fun e u => hf e u

theorem idles_config {f : Config → Action α} (hf : ∀ c, c.useIc = false → Idles site (f c)) :
    Idles site (config >>= f) := fun e u => hf e.config u.off e u

/-- What does not look at the stubs of shapes makes none. -/
theorem idles_onHeap {a : Heap.Action α} (b : ∀ {w : Setting}, w.Blind → Heap.Blind w a) :
    Idles site (onHeap a) := fun _ u => ⟨rfl, u.onHeap b⟩

theorem idles_raise (x : Exception) : Idles site (onHeap (Heap.raise x) : Action α) :=
  idles_onHeap fun _ => Heap.blind_throw _

theorem idles_request (spec : StubSpec) : Idles site (request spec) :=
  fun _ u => ⟨rfl, u.off, u.stubCache, u.heap, u.host⟩

theorem idles_trace (text : String) : Idles site (trace text) :=
  idles_config fun _ _ => idles_ite (fun _ u => ⟨rfl, u.off, u.stubCache, u.heap, u.host⟩) (idles_pure _)

/-- Installing is where the switch is looked at. -/
theorem idles_install (stub : Stub) : Idles site (install stub) :=
  idles_config fun c off => by
    rw [if_neg (by simp [off])]
    exact idles_pure _

theorem idles_foreign (text : String) : Idles site (foreign text : Action α) :=
  idles_current (idles_throw _)

/-- What an operator records is not installed. -/
theorem idles_recordIf (c : Prop) [Decidable c] (text : String) (spec : StubSpec) (x : α) :
    Idles site (do
      if c then record text spec
      return x) := by
  have record : Idles site (record text spec) :=
    (idles_trace text).bind fun _ => (idles_request spec).bind idles_install
  exact idles_ite (record.bind fun _ => idles_pure x) (idles_pure x)

/-! ### Running the stub of a site, and resolving its misses -/

section Initial

variable (i : site.target.spec.Initial) (receiver : Value) (name : Name)

include i

theorem idles_dispatchLoad (key : Key) : Idles site (dispatchLoad receiver key) := fun e u => by
  rw [dispatchLoad_own receiver key i.not_megamorphic, i.runLoad_misses]
  exact ⟨rfl, u⟩

theorem idles_dispatchStore (key : Key) (v : Value) :
    Idles site (dispatchStore receiver key v) := fun e u => by
  rw [dispatchStore_own receiver key v i.not_megamorphic, i.runStore_misses]
  exact ⟨rfl, u⟩

theorem idles_dispatchCall (key : Key) (args : List Value) :
    Idles site (dispatchCall receiver key args) := fun e u => by
  rw [dispatchCall_own receiver key args i.not_megamorphic, i.runCall_misses]
  exact ⟨rfl, u⟩

/-- Only monomorphic sites take stubs back from the shapes that keep them. -/
theorem idles_stateOfMiss : Idles site (stateOfMiss receiver name) := by
  refine idles_current ?_
  rw [if_neg (by simp [Site.targetState, Stub.state, i.state])]
  exact idles_pure _

omit i in
theorem idles_resolveIntrinsic (old : SiteState) :
    Idles site (resolveIntrinsic old receiver name) := by
  refine idles_heap fun h => ?_
  split
  · refine idles_config fun c off => ?_
    rw [if_neg (by simp [off])]
    exact idles_pure _
  · exact idles_pure _

theorem idles_resolveLoad : Idles site (resolveLoad receiver name) := by
  refine idles_heap fun h => idles_ite (idles_raise _) ?_
  refine (idles_stateOfMiss i receiver name).bind fun old => ?_
  refine (idles_resolveIntrinsic receiver name old).bind fun r => ?_
  cases r with
  | some v => exact idles_pure v
  | none =>
    cases name.arrayIndex? with
    | some index =>
      refine idles_current (idles_config fun c off => ?_)
      rw [if_neg (by simp [off])]
      exact idles_onHeap fun _ => Heap.blind_getElement receiver index
    | none =>
      refine idles_heap fun h' => idles_ite (idles_raise _) (idles_config fun c off => ?_)
      rw [if_neg (by simp [off])]
      exact idles_onHeap fun sees => Heap.blind_readLookup sees receiver _ name

theorem idles_resolveStore (v : Value) : Idles site (resolveStore receiver name v) := by
  refine idles_heap fun h => idles_current ?_
  refine idles_ite (idles_raise _) (idles_ite (idles_raise _) ?_)
  have store : Idles site (onHeap (Heap.setProperty receiver name v site.mode.strict)) :=
    idles_onHeap fun sees => Heap.blind_setProperty sees receiver name v _
  cases h.holderId? receiver .receiver with
  | none => exact idles_pure v
  | some id =>
    cases name.arrayIndex? with
    | some index => exact idles_onHeap fun _ => Heap.blind_setElement receiver index v
    | none =>
      refine (idles_stateOfMiss i receiver name).bind fun old => idles_config fun c off => ?_
      simp only [off, Bool.false_and, Bool.false_eq_true, if_false]
      exact idles_ite store (idles_ite store (idles_ite (idles_raise _) store))

theorem idles_resolveKeyedLoad (key : Value) (force : Bool) :
    Idles site (resolveKeyedLoad receiver key force) := by
  refine idles_heap fun h => ?_
  cases Key.simplify h key with
  | named name => exact idles_resolveLoad i receiver name
  | computed key =>
    refine idles_current (idles_config fun c off => ?_)
    rw [if_neg (by simp [off])]
    exact idles_onHeap fun sees => Heap.blind_getKeyed sees receiver key

theorem idles_resolveKeyedStore (key v : Value) (force : Bool) :
    Idles site (resolveKeyedStore receiver key v force) := by
  refine idles_heap fun h => ?_
  cases Key.simplify h key with
  | named name => exact idles_resolveStore i receiver name v
  | computed key =>
    refine idles_current (idles_config fun c off => ?_)
    rw [if_neg (by simp [off])]
    exact idles_onHeap fun sees => Heap.blind_setKeyed sees receiver key v _

omit i in
theorem idles_elementOrMethod (old : SiteState) (args : List Value) (element : Option Value) :
    Idles site (elementOrMethod old receiver name args element) := by
  refine idles_heap fun h => ?_
  cases element.filter h.isCallable with
  | some f => exact idles_pure f
  | none =>
    refine idles_heap fun h => idles_ite (idles_raise _) (idles_config fun c off => ?_)
    rw [if_neg (by simp [off])]
    exact idles_onHeap fun sees => Heap.blind_readMethod sees h receiver _ name

theorem idles_resolveCall (args : List Value) : Idles site (resolveCall receiver name args) := by
  rw [resolveCall_eq]
  refine idles_heap fun h => idles_ite (idles_raise _) ?_
  refine (idles_stateOfMiss i receiver name).bind fun old => ?_
  exact (idles_onHeap fun _ => Heap.blind_elementNamed receiver name).bind
    (idles_elementOrMethod receiver name old args)

theorem idles_resolveKeyedCall (key : Value) (args : List Value) :
    Idles site (resolveKeyedCall receiver key args) := by
  simp only [resolveKeyedCall, onHeap_keyedMethod]
  refine idles_heap fun h => ?_
  cases (Key.computed key).name? h with
  | some name => exact idles_resolveCall i receiver name args
  | none =>
    refine idles_ite (idles_raise _) (idles_current (idles_config fun c off => ?_))
    simp only [off, Bool.false_and, Bool.false_eq_true, if_false]
    exact idles_onHeap fun sees => Heap.blind_keyedMethod sees receiver key

/-! ### Operations at a site -/

theorem idles_load : Idles site (load receiver name) := by
  refine (idles_dispatchLoad i receiver (.named name)).bind fun outcome => ?_
  cases outcome with
  | hit v => exact idles_pure v
  | miss | missForGood => exact idles_resolveLoad i receiver name

theorem idles_store (v : Value) : Idles site (store receiver name v) := by
  refine (idles_dispatchStore i receiver (.named name) v).bind fun outcome => ?_
  cases outcome with
  | hit v => exact idles_pure v
  | miss | missForGood => exact idles_resolveStore i receiver name v

theorem idles_keyedLoad (key : Value) : Idles site (keyedLoad receiver key) := by
  refine (idles_dispatchLoad i receiver (.computed key)).bind fun outcome => ?_
  cases outcome with
  | hit v => exact idles_pure v
  | miss | missForGood => exact idles_resolveKeyedLoad i receiver key _

theorem idles_keyedStore (key v : Value) : Idles site (keyedStore receiver key v) := by
  refine (idles_dispatchStore i receiver (.computed key) v).bind fun outcome => ?_
  cases outcome with
  | hit v => exact idles_pure v
  | miss | missForGood => exact idles_resolveKeyedStore i receiver key v _

theorem idles_call (args : List Value) : Idles site (call receiver name args) := by
  have invoke (f : Value) : Idles site (onHeap (Heap.call f receiver args)) :=
    idles_onHeap fun sees => Heap.blind_call sees f receiver args
  refine (idles_dispatchCall i receiver (.named name) args).bind fun outcome => ?_
  cases outcome with
  | hit f => exact (idles_pure f).bind invoke
  | miss | missForGood => exact (idles_resolveCall i receiver name args).bind invoke

theorem idles_keyedCall (key : Value) (args : List Value) :
    Idles site (keyedCall receiver key args) := by
  have invoke (f : Value) : Idles site (onHeap (Heap.call f receiver args)) :=
    idles_onHeap fun sees => Heap.blind_call sees f receiver args
  refine (idles_dispatchCall i receiver (.computed key) args).bind fun outcome => ?_
  cases outcome with
  | hit f => exact (idles_pure f).bind invoke
  | miss | missForGood => exact (idles_resolveKeyedCall i receiver key args).bind invoke

/-- A site with its first stub has nothing to clear. -/
theorem idles_clear : Idles site clear := by
  refine idles_current ?_
  have first : site.targetState = .uninitialized := i.state
  simp only [first, if_true]
  exact idles_pure _

end Initial

theorem idles_compare (x y : Value) : Idles site (compare x y) := by
  refine idles_current ?_
  split
  · refine idles_heap fun h => ?_
    exact idles_recordIf _ _ _ _
  · exact idles_foreign _

theorem idles_unary (x : Value) : Idles site (unary x) := by
  refine idles_current ?_
  split
  · rename_i f _
    refine (idles_onHeap fun _ => f.op.blind_evaluate x).bind fun result => idles_heap fun h => ?_
    exact idles_recordIf _ _ _ _
  · exact idles_foreign _

theorem idles_binary (x y : Value) : Idles site (binary x y) := by
  refine idles_current ?_
  split
  · rename_i f _
    refine (idles_onHeap fun _ => f.op.blind_evaluate x y).bind fun result => idles_heap fun h => ?_
    exact idles_recordIf _ _ _ _
  · exact idles_foreign _

theorem idles_toBoolean (x : Value) : Idles site (toBoolean x) := by
  refine idles_current ?_
  split
  · refine idles_heap fun h => ?_
    exact idles_recordIf _ _ _ _
  · exact idles_foreign _

end AtSite

/-- Whatever is done at a site with its first stub, only a break of the debugger shows. -/
theorem SiteOperation.idles {site : Site} (i : site.target.spec.Initial) {e : Engine}
    (u : e.Uncached) (op : SiteOperation) :
    (∃ on, (op.perform ⟨site, e⟩).site = { site with debugBreak := on }) ∧
      (op.perform ⟨site, e⟩).engine.Uncached := by
  have unchanged {α : Type} {a : AtSite.Action α} (idles : AtSite.Idles site a) :
      (∃ on, (a ⟨site, e⟩).2.site = { site with debugBreak := on }) ∧
        (a ⟨site, e⟩).2.engine.Uncached :=
    ⟨⟨site.debugBreak, (idles e u).1⟩, (idles e u).2⟩
  cases op with
  | load r n => exact unchanged (AtSite.idles_load i r n)
  | store r n v => exact unchanged (AtSite.idles_store i r n v)
  | keyedLoad r k => exact unchanged (AtSite.idles_keyedLoad i r k)
  | keyedStore r k v => exact unchanged (AtSite.idles_keyedStore i r k v)
  | call r n args => exact unchanged (AtSite.idles_call i r n args)
  | keyedCall r k args => exact unchanged (AtSite.idles_keyedCall i r k args)
  | compare x y => exact unchanged (AtSite.idles_compare x y)
  | unary x => exact unchanged (AtSite.idles_unary x)
  | binary x y => exact unchanged (AtSite.idles_binary x y)
  | toBoolean x => exact unchanged (AtSite.idles_toBoolean x)
  | clear => exact unchanged (AtSite.idles_clear i)
  | debugBreak on => exact ⟨⟨on, rfl⟩, u⟩

/-! ### Operations of the heap and of the engine -/

/-- No operation of the heap looks at the stubs of shapes, nor changes the host. -/
theorem HeapOperation.perform_bare (h : Heap) (op : HeapOperation) :
    op.perform h.bare = (op.perform h).bare ∧ (op.perform h).host = h.host := by
  have blind {α : Type} {a : Heap.Action α} (b : Heap.Blind h.host a) :
      (a h.bare).2 = (a h).2.bare ∧ (a h).2.host = h.host :=
    have both := b h ⟨rfl, nofun⟩
    ⟨congrArg Prod.snd both.1, both.2.host⟩
  cases op with
  | intern n => exact ⟨h.intern_bare n, Heap.host_of_outside (h.outside_intern n)⟩
  | number d => exact blind (Heap.blind_newNumber d)
  | boxedNumber d => exact blind (Heap.blind_boxNumber d)
  | string s => exact blind (Heap.blind_newString s)
  | internalize s => exact blind (Heap.blind_internalize s)
  | object => exact blind (Heap.blind_allocateObject _ _ _)
  | objectWithPrototype p => exact blind (Heap.blind_newObjectWithPrototype p)
  | array vs => exact blind (Heap.blind_newArray vs)
  | arguments f vs strict => exact blind (Heap.blind_newArguments f vs strict)
  | stringWrapper v => exact blind (Heap.blind_allocateObject _ _ _)
  | shared n k c => exact blind (Heap.blind_newShared n k c)
  | closure s => exact blind (Heap.blind_newFunction s)
  | hostFunction n k f => exact blind (Heap.blind_newHostFunction n k f)
  | addProperty id n v a =>
    exact ⟨h.addProperty_bare id n v a, Heap.host_of_outside (h.outside_addProperty id n v a)⟩
  | addConstant id n v a =>
    exact ⟨h.addConstant_bare id n v a, Heap.host_of_outside (h.outside_addConstant id n v a)⟩
  | addAccessor id n g s =>
    exact ⟨h.addAccessor_bare id n g s, Heap.host_of_outside (h.outside_addAccessor id n g s)⟩
  | normalize id => exact ⟨h.normalize_bare id, Heap.host_of_outside (h.outside_normalize id)⟩
  | delete id n =>
    exact ⟨congrArg Prod.snd (h.delete_bare id n), Heap.host_of_outside (h.outside_delete id n)⟩
  | setInterceptor id vs =>
    exact ⟨h.setInterceptor_bare id vs, Heap.host_of_outside (h.outside_setInterceptor id vs)⟩
  | elementsShape s k =>
    exact ⟨congrArg Prod.snd (h.elementsTransition_bare s k),
      Heap.host_of_outside (h.outside_elementsTransition s k)⟩
  | generalizeElements id k =>
    exact ⟨h.generalizeElements_bare id k, Heap.host_of_outside (h.outside_generalizeElements id k)⟩
  | setArrayLength id v =>
    exact blind (Heap.blind_runExcept (fun h => h.storeArrayLength_bare id v)
      fun _ _ e => Heap.host_of_outside (Heap.outside_storeArrayLength e))
  | setElement r i v => exact blind (Heap.blind_setElement r i v)
  | store r n v strict =>
    exact blind (Heap.blind_setPropertyWith (fun _ _ _ => Heap.blind_pure _) r n v strict)
  -- The rest leaves all shapes alone.
  | setField | setDictionaryValue | setCallHandler | setGlobal | setContext | setCode | modifyShared
  | scopes => exact ⟨rfl, rfl⟩

/-- Accesses do not look at the stubs of shapes either. -/
theorem Engine.Uncached.access {e : Engine} (u : e.Uncached) (op : Access) :
    Uncached { e with heap := op.perform e.heap } := by
  cases op with
  | getProperty r n => exact u.onHeap fun sees => Heap.blind_getProperty sees r n
  | setProperty r n v strict => exact u.onHeap fun sees => Heap.blind_setProperty sees r n v strict
  | getElement r i => exact u.onHeap fun _ => Heap.blind_getElement r i
  | getNamed r n => exact u.onHeap fun sees => Heap.blind_getNamed sees r n
  | setNamed r n v strict => exact u.onHeap fun sees => Heap.blind_setNamed sees r n v strict
  | getKeyed r k => exact u.onHeap fun sees => Heap.blind_getKeyed sees r k
  | setKeyed r k v strict => exact u.onHeap fun sees => Heap.blind_setKeyed sees r k v strict
  | call f r args => exact u.onHeap fun sees => Heap.blind_call sees f r args

namespace Engine

variable {e : Engine}

/-- A new engine with the caches switched off has none. -/
theorem uncached_ofConfig {config : Config} {around : Surroundings} (off : config.useIc = false)
    (host : around.host.AddsNoStubs) : (ofConfig config around).Uncached := by
  refine ⟨off, rfl, ?_, host⟩
  exact congrArg (fun h : Heap => { h with host := around.host }) Heap.bare_initial

/-- An operation of the heap adds no stubs. -/
theorem Uncached.perform (u : e.Uncached) (op : HeapOperation) :
    Uncached { e with heap := op.perform e.heap } := by
  obtain ⟨bare, host⟩ := op.perform_bare e.heap
  refine ⟨u.off, u.stubCache, ?_, by rw [host]; exact u.host⟩
  rw [← bare, u.heap]

theorem Uncached.deoptimizeFunction (u : e.Uncached) (f : Value) :
    (e.deoptimizeFunction f).2.Uncached := by
  obtain ⟨cache, config⟩ := e.deoptimizeFunction_kept f
  suffices same : (e.deoptimizeFunction f).2.heap.bare = (e.deoptimizeFunction f).2.heap ∧
      (e.deoptimizeFunction f).2.heap.host = e.heap.host from
    ⟨by rw [config, u.off], by rw [cache, u.stubCache], same.1, by rw [same.2]; exact u.host⟩
  unfold Engine.deoptimizeFunction
  split
  · rename_i id d _ _
    split
    · exact ⟨u.heap, rfl⟩
    · split
      · have code := congrArg (fun h => h.setFunctionCode id (e.heap.sharedInfo d.shared).code) u.heap
        dsimp only
        split <;> exact ⟨code, rfl⟩
      · exact ⟨u.heap, rfl⟩
  · exact ⟨u.heap, rfl⟩

theorem Uncached.deoptimizeEach (u : e.Uncached) (fs : List ObjectId) :
    (e.deoptimizeEach fs).2.Uncached := by
  induction fs generalizing e with
  | nil => exact u
  | cons f fs ih => exact ih (u.deoptimizeFunction (.object f))

theorem Uncached.invalidateShape (u : e.Uncached) (shape : ShapeId) :
    (e.invalidateShape shape).2.Uncached := by
  obtain ⟨trace, same⟩ := e.invalidateShape_eq shape
  have evicted : Uncached { e with stubCache := (e.stubCache.evictShape shape).2, trace } := by
    refine ⟨u.off, ?_, u.heap, u.host⟩
    rw [StubCache.evictShape, u.stubCache]
    rfl
  rw [same]
  exact evicted.deoptimizeEach _

end Engine

/-! ### Sessions -/

namespace Session

/-- Nothing is cached, and no site has taken up anything. -/
structure Frozen (s : Session) : Prop where
  engine : s.engine.Uncached
  sites : ∀ site ∈ s.sites, site.target.spec.Initial ∧ site.cachedShape = none ∧ site.patches = 0

/-- Every site is as it was, apart from a break of the debugger. -/
def Keeps (s t : Session) : Prop :=
  ∀ (i : Nat) (site : Site), s.sites[i]? = some site →
    ∃ on, t.sites[i]? = some { site with debugBreak := on }

variable {s t u : Session}

theorem Keeps.refl (s : Session) : s.Keeps s := fun _ site h => ⟨site.debugBreak, h⟩

theorem Keeps.trans (a : s.Keeps t) (b : t.Keeps u) : s.Keeps u := by
  intro i site h
  obtain ⟨on, ht⟩ := a i site h
  exact b i { site with debugBreak := on } ht

/-- A new session with the caches switched off is frozen. -/
theorem frozen_ofConfig {config : Config} {around : Surroundings} (off : config.useIc = false)
    (host : around.host.AddsNoStubs) : (ofConfig config around).Frozen :=
  ⟨Engine.uncached_ofConfig off host, by simp [ofConfig]⟩

/-- A new site keeps a session frozen. -/
theorem Frozen.addSite (f : s.Frozen) {spec : StubSpec} (i : spec.Initial) :
    let t := s.addSite (.ofStub (s.engine.requestStub spec).1, (s.engine.requestStub spec).2)
    t.Frozen ∧ s.Keeps t := by
  have made : (s.engine.requestStub spec).1.spec = spec := StubTable.spec_request _ spec
  refine ⟨⟨⟨f.engine.off, f.engine.stubCache, f.engine.heap, f.engine.host⟩, fun site hs => ?_⟩,
    fun n site hs => ?_⟩
  · rcases List.mem_append.1 hs with hs | hs
    · exact f.sites site hs
    · obtain rfl := List.mem_singleton.1 hs
      refine ⟨by rwa [← made] at i, ?_, rfl⟩
      simp [Site.ofStub, Stub.firstShape?, made, i.receiverShapes]
  · exact ⟨site.debugBreak, List.getElem?_append_left (List.getElem?_eq_some_iff.1 hs).1 ▸ hs⟩

/-- One operation, whatever it is, keeps a session frozen. -/
theorem Frozen.perform (f : s.Frozen) (op : Operation) :
    (s.perform op).Frozen ∧ s.Keeps (s.perform op) := by
  cases op with
  | onHeap op => exact ⟨⟨f.engine.perform op, f.sites⟩, .refl s⟩
  | access op => exact ⟨⟨f.engine.access op, f.sites⟩, .refl s⟩
  | newSite kind mode => exact f.addSite (.fresh kind mode)
  | newCompareSite op => exact f.addSite (.compare op)
  | newUnarySite op => exact f.addSite (.unary op)
  | newBinarySite op => exact f.addSite (.binary op)
  | newToBooleanSite => exact f.addSite .toBoolean
  -- With the caches off a site only sets its break flag.
  | atSite i op =>
    simp only [Session.perform]
    cases hs : s.sites[i]? with
    | none => exact ⟨f, .refl s⟩
    | some site =>
      obtain ⟨initial, shape, patches⟩ := f.sites site (List.mem_of_getElem? hs)
      obtain ⟨⟨on, same⟩, engine⟩ := op.idles initial f.engine
      dsimp only
      rw [same]
      refine ⟨⟨engine, fun site' hs' => ?_⟩, fun n site' hs' => ?_⟩
      · rcases List.mem_or_eq_of_mem_set hs' with hs' | rfl
        · exact f.sites site' hs'
        · exact ⟨initial, shape, patches⟩
      · by_cases e : i = n
        · subst e
          obtain rfl := Option.some.inj (hs.symm.trans hs')
          exact ⟨on, List.getElem?_set_self (List.getElem?_eq_some_iff.1 hs).1⟩
        · exact ⟨site'.debugBreak, (List.getElem?_set_ne e).trans hs'⟩
  | invalidateShape shape => exact ⟨⟨f.engine.invalidateShape shape, f.sites⟩, .refl s⟩

/-- A run keeps a session frozen, and all its sites as they were. -/
theorem Frozen.run (f : s.Frozen) (ops : List Operation) :
    (s.run ops).Frozen ∧ s.Keeps (s.run ops) := by
  induction ops generalizing s with
  | nil => exact ⟨f, .refl s⟩
  | cons op ops ih =>
    obtain ⟨f', keeps⟩ := f.perform op
    obtain ⟨f'', keeps'⟩ := ih f'
    exact ⟨f'', keeps.trans keeps'⟩

end Session

/-- **Switched off, nothing is cached.** Let inline caching be switched off, and let no function of the
host put stubs into shapes itself. Whatever a program does, every site still has the stub that it was
made with, no cached shape, and was never patched; the stub cache is empty, and no shape keeps a stub.
From any point of a run to any later one, a site changes in nothing but whether the debugger breaks at
it. -/
theorem switched_off_freezes {config : Config} (off : config.useIc = false) {around : Surroundings}
    (host : around.host.AddsNoStubs) (ops more : List Operation) :
    let s := (Session.ofConfig config around).run ops
    let t := s.run more
    (∀ (i : Nat) (site : Site), s.sites[i]? = some site →
        ∃ on, t.sites[i]? = some { site with debugBreak := on }) ∧
      (∀ site ∈ t.sites,
        site.target.spec.Initial ∧ site.cachedShape = none ∧ site.patches = 0) ∧
      t.engine.stubCache.entries = {} ∧ ∀ shape, (t.engine.heap.shape shape).codeCache = {} := by
  intro s t
  obtain ⟨frozen, -⟩ := (Session.frozen_ofConfig off host).run ops
  obtain ⟨frozen', keeps⟩ := frozen.run more
  exact ⟨keeps, frozen'.sites, frozen'.engine.stubCache, Heap.codeCache_of_bare frozen'.engine.heap⟩

/-- A load, a store that adds a property, and a comparison, each done twice. The sites would be patched
if inline caching were on. -/
theorem switched_off_freezes_twice :
    let once : List Operation := [
      .atSite 0 (.load (.object ⟨10⟩) ⟨"x"⟩), .atSite 1 (.store (.object ⟨10⟩) ⟨"y"⟩ (.smi 2)),
      .atSite 2 (.compare (.smi 1) (.object ⟨10⟩))]
    let made : List Operation := [
      .onHeap .object, .access (.setProperty (.object ⟨10⟩) ⟨"x"⟩ (.smi 1) false),
      .newSite .load {}, .newSite .store {}, .newCompareSite .lt]
    let after (useIc : Bool) : Session :=
      ((Session.ofConfig { useIc }).run made).run (once ++ once)
    (after true).sites.map (·.patches) = [2, 1, 1] ∧
      (∀ site ∈ (after false).sites, site.target.spec.Initial ∧ site.patches = 0) ∧
      ∀ shape, ((after false).engine.heap.shape shape).codeCache = {} := by
  intro once made after
  obtain ⟨-, sites, -, shapes⟩ :=
    switched_off_freezes (show Config.useIc { useIc := false } = false from rfl)
      (show Host.AddsNoStubs (Surroundings.host {}) from fun _ _ _ _ same => same) made (once ++ once)
  exact ⟨by decide +kernel, fun site hs => ⟨(sites site hs).1, (sites site hs).2.2⟩, shapes⟩

end Speculation
