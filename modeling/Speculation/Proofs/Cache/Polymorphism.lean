import Mathlib.Data.List.Forall2
import Speculation.Proofs.Cache.Runs

/-!
# Polymorphic sites

A polymorphic site for loads or stores by key has a target for each of the shapes that it knows, in
the same order (`StubSpec.ServesSeveral`). Which target belongs to which shape is fixed when the stub
is made, and so is what the target relies on, since the elements kinds of shapes and the transitions
between them only grow (`StubSpec.Sound.servesSeveral`). How many shapes there may be is up to the
configuration, and therefore an invariant of the site (`Site.WithinLimits`).

A site that is full gives up when it meets one more shape (`keyedLoad_full`, `keyedStore_full`).
-/

namespace Speculation

variable {rules : Rules}

/-! ### Targets of polymorphic stubs -/

namespace Heap

/-- What a polymorphic load does for a shape: it loads a character of a primitive string, or an element
of the kind of the shape. -/
structure LoadsFor (h : Heap) (s : ShapeId) (target : ElementLoad) : Prop where
  string : target = .string ↔ s = stringShape
  elements : s ≠ stringShape → target = .elements (h.kindOfShape s)

/-- What a polymorphic store does for one of its shapes: it stores an element of the kind of the shape,
or first moves the receiver to another one of the shapes, by an elements transition to a strictly more
general kind. -/
def StoresFor (h : Heap) (shapes : List ShapeId) (s : ShapeId) (target : ElementStore) : Prop :=
  target = .keep (h.kindOfShape s) ∨ ∃ t ∈ shapes, t ≠ s ∧ target = .transition t (h.kindOfShape t) ∧
    (h.shape s).elementsTransitions.get? (h.kindOfShape t) = some t ∧
    (h.kindOfShape s).generalizesTo (h.kindOfShape t)

variable {h h' : Heap}

theorem loadsFor_elementLoadFor (g : h.Grows h') {s : ShapeId} (hs : s.index < h.shapes.size) :
    h'.LoadsFor s (h.elementLoadFor s) := by
  unfold elementLoadFor
  split
  · rename_i e
    exact ⟨by simp [e], fun ne => absurd e ne⟩
  · rename_i ne
    exact ⟨by simp [ne], fun _ => by rw [g.kindOfShape hs]⟩

/-- Transitions between shapes that objects may have lead to more general kinds. -/
theorem Obeys.storesFor (ob : h.Obeys rules) {shapes : List ShapeId} (usable : ∀ t ∈ shapes, h.Usable t)
    {s : ShapeId} (hs : s ∈ shapes) {target : ElementStore} (e : h.StoresElements shapes s target) :
    h.StoresFor shapes s target := by
  cases e with
  | keep => exact .inl rfl
  | @transition t listed other known =>
    -- Objects have the shape `t`, so no transition narrows to it; and a transition changes the kind.
    have le := (usable t listed).widened s _ known
    have ne := ((ob.shape (usable s hs).index_lt).elementsTransitions known).2.2
    exact .inr ⟨t, listed, other, rfl, known, ElementsKind.generalizesTo_of_le le ne⟩

end Heap

/-- The specification has a target for each of its shapes, and there are two of them at least and as
many as there may be at most. -/
structure StubSpec.ServesSeveral (h : Heap) (limit : Nat) (kind : SiteKind) (spec : StubSpec) :
    Prop where
  distinct : spec.receiverShapes.Nodup
  two_le : 2 ≤ spec.receiverShapes.length
  bounded : spec.receiverShapes.length ≤ limit
  loads : kind = .keyedLoad → ∃ targets, spec.handler = .loadElementPolymorphic targets ∧
    List.Forall₂ h.LoadsFor spec.receiverShapes targets
  stores : kind = .keyedStore → ∃ targets, spec.handler = .storeElementPolymorphic targets ∧
    List.Forall₂ (h.StoresFor spec.receiverShapes) spec.receiverShapes targets

/-- Only stubs for elements serve several shapes. -/
theorem SiteKind.servesSeveral_iff {kind : SiteKind} {handler : Handler} :
    kind.servesSeveral handler ↔
      (kind = .keyedLoad ∧ ∃ targets, handler = .loadElementPolymorphic targets) ∨
        kind = .keyedStore ∧ ∃ targets, handler = .storeElementPolymorphic targets := by
  cases kind <;> cases handler <;> simp [servesSeveral]

/-- A sound stub serves the shapes that it is for, whatever has happened since it was made. -/
theorem StubSpec.Sound.servesSeveral {h : Heap} (ob : h.Obeys rules) {kind : SiteKind} {spec : StubSpec}
    (sound : spec.Sound rules h) (several : kind.servesSeveral spec.handler) {limit : Nat}
    (bounded : spec.receiverShapes.length ≤ limit) : spec.ServesSeveral h limit kind := by
  have usable := sound.usable
  obtain ⟨h₀, -, g, c⟩ := sound
  have origin := c.origin
  rcases SiteKind.servesSeveral_iff.1 several with ⟨rfl, targets, e⟩ | ⟨rfl, targets, e⟩
  · simp only [StubSpec.Origin, e] at origin
    obtain ⟨two_le, rfl⟩ := origin
    refine ⟨c.distinct, two_le, bounded, fun _ => ⟨_, e, ?_⟩, by simp⟩
    rw [List.forall₂_map_right_iff, List.forall₂_same]
    exact fun s hs => Heap.loadsFor_elementLoadFor g (c.shapes s hs).index_lt
  · simp only [StubSpec.Origin, e] at origin
    obtain ⟨two_le, length, each⟩ := origin
    refine ⟨c.distinct, two_le, bounded, by simp, fun _ => ⟨_, e, ?_⟩⟩
    refine List.forall₂_iff_get.2 ⟨length.symm, fun i hi hi' => ?_⟩
    have hs : spec.receiverShapes.get ⟨i, hi⟩ ∈ spec.receiverShapes := List.get_mem ..
    have made := each i _ _ (List.getElem?_eq_getElem hi) (List.getElem?_eq_getElem hi')
    exact ob.storesFor usable hs
      (made.mono g (c.shapes _ hs).index_lt fun t ht => (c.shapes t ht).index_lt)

/-! ### How many shapes there may be -/

/-- A site has a stub that its kind may hold, and, if it is polymorphic, one that the configuration
allows. -/
structure Site.WithinLimits (c : Config) (site : Site) : Prop where
  proper : AtSite.Proper site
  allowed : site.kind = .keyedLoad ∨ site.kind = .keyedStore → site.targetState = .polymorphic →
    site.target.spec.receiverShapes.length ≤ c.maxKeyedPolymorphism ∧ c.useIc

namespace Site

open AtSite

variable {c : Config} {site : Site}

/-- A stub for no shape is not polymorphic. -/
theorem WithinLimits.of_nil (proper : Proper site) (none : site.target.spec.receiverShapes = []) :
    site.WithinLimits c := ⟨proper, fun hk poly => absurd none ((proper.byKey hk).shapes poly)⟩

/-- Only a stub for several shapes makes a site polymorphic. -/
theorem allowed_of_keyedMoves {arguments : Prop} {spec : StubSpec} (live : Live site)
    (m : KeyedMoves c arguments site spec) (poly : spec.state = .polymorphic) :
    spec.receiverShapes.length ≤ c.maxKeyedPolymorphism ∧ c.useIc := by
  cases m with
  | step moves => exact absurd poly (moves.byKey live.byKey).ne_polymorphic
  | arguments _ state => cases state.symm.trans poly
  | several _ takes => exact ⟨takes.bounded, takes.useIc⟩

/-- A step keeps a site within the limits if its sort of stubs is. -/
theorem WithinLimits.goes {site' : Site} {sort : StubSpec → Prop} (w : site.WithinLimits c)
    (proper : Proper site') (goes : Goes sort site site')
    (allowed : ∀ spec, sort spec → site.kind = .keyedLoad ∨ site.kind = .keyedStore →
      spec.state = .polymorphic →
        spec.receiverShapes.length ≤ c.maxKeyedPolymorphism ∧ c.useIc) :
    site'.WithinLimits c := by
  refine ⟨proper, fun hk poly => ?_⟩
  -- The site is of the kind that it was; what matters is whether it has kept its stub.
  rw [goes.kind] at hk
  cases goes with
  | stays _ target _ =>
    rw [targetState, target] at poly
    rw [target]
    exact w.allowed hk poly
  | takes _ target _ => exact allowed _ target hk poly

/-- Operations of its own kind keep a site within the limits. -/
theorem WithinLimits.perform {s : AtSite} (w : s.site.WithinLimits s.engine.config)
    {op : SiteOperation} (suits : op.suits s.site.kind) :
    (op.perform s).site.WithinLimits s.engine.config := by
  have proper := SiteOperation.proper w.proper suits
  cases op with
  | keyedLoad receiver key =>
    exact w.goes proper (keyedLoad_installs w.proper (of_decide_eq_true suits) receiver key).goes
      fun _ m _ => allowed_of_keyedMoves m.1 m.2
  | keyedStore receiver key v =>
    exact w.goes proper (keyedStore_installs w.proper (of_decide_eq_true suits) receiver key v).goes
      fun _ m _ => allowed_of_keyedMoves m.1 m.2
  | clear =>
    exact w.goes proper (clear_installs s).goes
      fun _ reset hk poly => absurd reset.2 ((reset.1.byKey hk).shapes poly)
  | debugBreak on => exact ⟨w.proper, w.allowed⟩
  | _ =>
    refine w.goes proper (SiteOperation.goes w.proper suits Bool.false_ne_true) fun _ m hk => ?_
    rcases hk with hk | hk <;> simp [SiteOperation.suits, hk] at suits

end Site

namespace Session

variable {s : Session} {c : Config}

/-- The session is sound and all its sites are within the limits of the configuration. -/
structure WithinLimits (rules : Rules) (c : Config) (s : Session) : Prop where
  sound : s.Sound rules
  config : s.engine.config = c
  sites : ∀ {i : Nat} {site : Site}, s.sites[i]? = some site → site.WithinLimits c

theorem withinLimits_ofConfig {around : Surroundings} (lawful : around.host.Lawful rules) (c : Config) :
    (ofConfig c around).WithinLimits rules c :=
  ⟨sound_ofConfig lawful c, rfl, fun h => by simp [ofConfig] at h⟩

theorem WithinLimits.perform (w : s.WithinLimits rules c) {op : Operation}
    (allowed : s.Allowed rules op) (suits : s.meets own op) :
    (s.perform op).WithinLimits rules c := by
  refine ⟨w.sound.perform op allowed, (perform_config w.sound suits).trans w.config,
    fun {i site'} hs' => ?_⟩
  -- The site is new, or it was there and at most one operation at it has been performed.
  cases hs : s.sites[i]? with
  | none =>
    obtain ⟨proper, none⟩ := happen_new hs (e := .operation op) hs'
    exact .of_nil proper none
  | some site =>
    rcases happen_site hs (.operation op) with h | ⟨o, e, h⟩
    · obtain rfl := Option.some.inj (h.symm.trans hs')
      exact w.sites hs
    · obtain rfl := Option.some.inj (h.symm.trans hs')
      cases e
      have within := w.sites hs
      rw [← w.config] at within ⊢
      exact within.perform (s := ⟨site, s.engine⟩) (meets_atSite suits hs)

/-- After every run in which sites keep to their kind, the sites are within the limits. -/
theorem withinLimits_run {around : Surroundings} (lawful : around.host.Lawful rules)
    {ops : List Operation} (allowed : (ofConfig c around).AllowedRun rules ops)
    (suits : (ofConfig c around).keepsTo own ops) :
    ((ofConfig c around).run ops).WithinLimits rules c :=
  run_invariant (withinLimits_ofConfig lawful c) allowed suits fun w allowed suits =>
    w.perform allowed suits

end Session

/-! ### Full sites -/

/-- An access by a small integer to an object with properties, of a shape that the site does not know;
the object is not the arguments object of a non-strict function. -/
structure Site.MeetsNew (h : Heap) (site : Site) (receiver : Value) (shape : ShapeId) : Prop where
  object : h.isJsObject receiver
  map : h.mapOf? receiver = some shape
  new : shape ∉ site.target.spec.receiverShapes
  strict : ¬ h.isNonStrictArguments receiver

/-- A polymorphic site for loads or stores by key that knows as many shapes as the configuration
allows. -/
structure Site.Full (c : Config) (site : Site) : Prop where
  live : AtSite.Live site
  poly : site.targetState = .polymorphic
  length : site.target.spec.receiverShapes.length = c.maxKeyedPolymorphism
  useIc : c.useIc

namespace Site

variable {h : Heap} {c : Config} {site : Site} {receiver : Value} {shape : ShapeId}

theorem Full.shapes (full : site.Full c) : site.target.spec.receiverShapes ≠ [] :=
  (full.live.proper.byKey full.live.byKey).shapes full.poly

theorem Full.handler (full : site.Full c) : site.kind.servesSeveral site.target.spec.handler :=
  (full.live.proper.byKey full.live.byKey).several full.poly

/-- The stub of a full site misses. -/
theorem MeetsNew.guards (m : site.MeetsNew h receiver shape) (full : site.Full c)
    (name : Option Name) : h.guardsHold site.target.spec receiver name = false := by
  obtain ⟨o, ho⟩ := Option.isSome_iff_exists.1 m.object
  obtain ⟨id, rfl, ho⟩ := Heap.object_of_asObject? ho
  -- An object is no small integer, so that its map is its shape for guards.
  have map : h.receiverShape? (.object id) = some shape := m.map
  simp [Heap.guardsHold, map, full.shapes, m.new]

/-- A full site gives up loading when it meets a new shape. -/
theorem MeetsNew.elementLoadSpec (m : site.MeetsNew h receiver shape) (full : site.Full c) :
    h.elementLoadSpec site c.maxKeyedPolymorphism shape = .error .tooManyShapes := by
  have state : site.target.state = .polymorphic := full.poly
  have known := full.live.loadShapes_eq full.poly
  have length := full.length
  have new := m.new
  cases e : site.target.spec.receiverShapes with
  | nil => exact absurd e full.shapes
  | cons first rest =>
    rw [e] at known length new
    simp only [Heap.elementLoadSpec, state, known]
    simp [new, length]

/-- A full site gives up storing when it meets a new shape. -/
theorem MeetsNew.elementStoreSpec (m : site.MeetsNew h receiver shape) (full : site.Full c)
    (h' : Heap) (moved : ShapeId) (forced grow : Bool) :
    h'.elementStoreSpec site c.maxKeyedPolymorphism shape moved forced grow =
      .error .tooManyShapes := by
  have state : site.target.state = .polymorphic := full.poly
  have length := full.length
  have new := m.new
  -- The new shape alone makes the list too long; the shape that the store leads to may add another.
  have added := (Heap.prefix_addShapeOnce (Heap.addShapeOnce site.target.spec.receiverShapes shape)
    moved).length_le
  have more : c.maxKeyedPolymorphism < (Heap.addShapeOnce
      (Heap.addShapeOnce site.target.spec.receiverShapes shape) moved).length := by
    refine Nat.lt_of_lt_of_le ?_ added
    simp [Heap.addShapeOnce, new, length]
  have longer : Heap.addShapeOnce (Heap.addShapeOnce site.target.spec.receiverShapes shape) moved ≠
      site.target.spec.receiverShapes := fun e => by
    rw [e, length] at more
    exact Nat.lt_irrefl _ more
  cases e : site.target.spec.receiverShapes with
  | nil => exact absurd e full.shapes
  | cons first rest =>
    rw [e] at more longer
    simp only [Heap.elementStoreSpec, state, e]
    simp [more, longer]

end Site

namespace AtSite

variable {s : AtSite} {receiver : Value} {shape : ShapeId}

/-- The action succeeds with a stub for good, and leaves the site and the configuration alone. -/
def GivesUp (s : AtSite) (a : Action Stub) : Prop :=
  ∃ stub t, a s = (.ok stub, t) ∧ stub.state = .generic ∧ t.site = s.site ∧
    t.engine.config = s.engine.config

@[simp] theorem givesUp_heap {f : Heap → Action Stub} :
    GivesUp s (heap >>= f) ↔ GivesUp s (f s.engine.heap) := Iff.rfl

@[simp] theorem givesUp_current {f : Site → Action Stub} :
    GivesUp s (current >>= f) ↔ GivesUp s (f s.site) := Iff.rfl

/-- What is given up is left to the general rules. -/
theorem settle_givesUp (why : GiveUp) : GivesUp s (settle (.error why)) := by
  have traced (text : String) : ∃ t, trace text s = (.ok (), t) ∧ t.site = s.site ∧
      t.engine.config = s.engine.config := by
    have read : trace text s = (if s.engine.config.traceIc then
        (modify fun s => { s with engine := s.engine.log .cache text } : Action Unit) else pure ()) s :=
      rfl
    rw [read]
    split <;> exact ⟨_, rfl, rfl, rfl⟩
  obtain ⟨t, e, site, config⟩ :=
    traced s!"[{s.site.kind.name}: going generic ({why.reason})]"
  have read : settle (.error why) s = (do
      trace s!"[{s.site.kind.name}: going generic ({why.reason})]"
      request (.generic s.site.kind s.site.mode)) s := rfl
  refine ⟨_, _, read.trans (Computation.bind_ok e), ?_, site, config⟩
  exact congrArg StubSpec.state (StubTable.spec_request ..)

/-- A site that is given a stub for good is generic, whatever comes afterwards. -/
theorem GivesUp.settles {a : Action Stub} (g : GivesUp s a) (on : s.engine.config.useIc)
    {rest : Action Value} (spares : ∀ t, Spares t rest fun _ => True) :
    ((do
      install (← a)
      rest : Action Value) s).2.site.targetState = .generic := by
  obtain ⟨stub, t, e, state, site, config⟩ := g
  have installed : install stub t = (.ok (), { t with site := t.site.patch stub }) := by
    have read : install stub t = (if t.engine.config.useIc then
        (modify fun s => { s with site := s.site.patch stub } : Action Unit) else pure ()) t := rfl
    rw [read, config, if_pos on]
    rfl
  rw [Computation.bind_ok e, Computation.bind_ok installed, (spares _).1]
  exact state

/-- A load by a small integer that meets one more shape makes a full site generic. -/
theorem keyedLoad_full (hk : s.site.kind = .keyedLoad) (full : s.site.Full s.engine.config)
    (m : s.site.MeetsNew s.engine.heap receiver shape) (k : Int) :
    (keyedLoad receiver (.smi k) s).2.site.targetState = .generic := by
  have guards := m.guards full ((Key.computed (.smi k)).name? s.engine.heap)
  obtain ⟨targets, handler⟩ : ∃ targets,
      s.site.target.spec.handler = .loadElementPolymorphic targets := by
    rcases SiteKind.servesSeveral_iff.1 full.handler with ⟨-, e⟩ | ⟨e, -⟩
    · exact e
    · cases hk.symm.trans e
  -- The shape is none of those the stub knows, so it misses; there is no room for one more, so
  -- the site gives up.
  have missed : dispatchLoad receiver (.computed (.smi k)) s = (.ok .miss, s) := by
    rw [dispatchLoad_own _ _ (by simp [handler])]
    simp [onHeap, Heap.runLoad, handler, guards]
  have resolves : keyedLoad receiver (.smi k) s = resolveKeyedLoad receiver (.smi k) false s :=
    Computation.bind_ok missed
  have spec : s.engine.heap.keyedLoadSpec s.site s.engine.config.maxKeyedPolymorphism receiver
      (.smi k) false = .error .tooManyShapes := by
    obtain ⟨o, ho⟩ := Option.isSome_iff_exists.1 m.object
    obtain ⟨id, rfl, ho⟩ := Heap.object_of_asObject? ho
    have special : s.site.target.handler ≠ .loadNonStrictArguments := by
      simp [show s.site.target.handler = .loadElementPolymorphic targets from handler]
    simp [Heap.keyedLoadSpec, Heap.isString_object ho, m.strict, m.object, m.map, special,
      Value.isSmi, m.elementLoadSpec full]
  have unfolded : resolveKeyedLoad receiver (.smi k) false s = (do
      install (← settle (s.engine.heap.keyedLoadSpec s.site s.engine.config.maxKeyedPolymorphism
        receiver (.smi k) false))
      traceMiss ((← heap).toText (.smi k)) s.site.targetState
      onHeap (Heap.getKeyed receiver (.smi k))) s := congrFun (if_pos full.useIc) s
  rw [resolves, unfolded, spec]
  refine (settle_givesUp _).settles full.useIc fun t => ?_
  simp only [spares_heap]
  exact (traceMiss_spares ..).bind fun _ _ _ _ => spares_onHeap _

/-- Whatever shape the store leads to, it would be one too many. -/
theorem keyedStoreStub_givesUp (full : s.site.Full s.engine.config)
    (m : s.site.MeetsNew s.engine.heap receiver shape)
    (special : s.site.target.handler ≠ .storeNonStrictArguments) (k : Int) (v : Value) :
    GivesUp s (keyedStoreStub receiver (.smi k) v false) := by
  obtain ⟨o, object⟩ := Option.isSome_iff_exists.1 m.object
  obtain ⟨id, rfl, ho⟩ := Heap.object_of_asObject? object
  have decided (t : AtSite) (moved : ShapeId) (forced grow : Bool) (site : t.site = s.site)
      (config : t.engine.config = s.engine.config) : GivesUp t (settle
        (t.engine.heap.elementStoreSpec s.site t.engine.config.maxKeyedPolymorphism shape moved
          forced grow)) := by
    rw [config, m.elementStoreSpec full]
    exact settle_givesUp _
  simp only [keyedStoreStub, givesUp_heap, givesUp_current, Heap.holderId?_receiver ho, m.map]
  rw [if_neg Bool.false_ne_true, if_neg m.strict, if_pos (by simp [special, Value.isSmi])]
  -- The store may have to make the shape that it leads to, and this always succeeds.
  cases s.engine.heap.forcedKind? id v with
  | none => exact decided s shape false _ rfl rfl
  | some kind =>
    let moving : Action ShapeId := onHeap (Heap.run fun h => h.elementsTransition shape kind)
    obtain ⟨stub, t, e, state, site, config⟩ := decided (moving s).2
      (s.engine.heap.elementsTransition shape kind).1 true (s.engine.heap.growsArray id (.smi k)) rfl rfl
    exact ⟨stub, t, e, state, site, config⟩

/-- A store by a small integer that meets one more shape makes a full site generic. -/
theorem keyedStore_full (hk : s.site.kind = .keyedStore) (full : s.site.Full s.engine.config)
    (m : s.site.MeetsNew s.engine.heap receiver shape) (k : Int) (v : Value) :
    (keyedStore receiver (.smi k) v s).2.site.targetState = .generic := by
  have guards := m.guards full ((Key.computed (.smi k)).name? s.engine.heap)
  obtain ⟨targets, handler⟩ : ∃ targets,
      s.site.target.spec.handler = .storeElementPolymorphic targets := by
    rcases SiteKind.servesSeveral_iff.1 full.handler with ⟨e, -⟩ | ⟨-, e⟩
    · cases hk.symm.trans e
    · exact e
  have missed : dispatchStore receiver (.computed (.smi k)) v s = (.ok .miss, s) := by
    rw [dispatchStore_own _ _ _ (by simp [handler])]
    simp [onHeap, Heap.runStore, handler, guards]
  have resolves : keyedStore receiver (.smi k) v s = resolveKeyedStore receiver (.smi k) v false s :=
    Computation.bind_ok missed
  have unfolded : resolveKeyedStore receiver (.smi k) v false s = (do
      install (← keyedStoreStub receiver (.smi k) v false)
      traceMiss ((← heap).toText (.smi k)) s.site.targetState
      onHeap (Heap.setKeyed receiver (.smi k) v s.site.mode.strict)) s :=
    congrFun (if_pos full.useIc) s
  have special : s.site.target.handler ≠ .storeNonStrictArguments := by
    simp [show s.site.target.handler = .storeElementPolymorphic targets from handler]
  rw [resolves, unfolded]
  refine (keyedStoreStub_givesUp full m special k v).settles full.useIc fun t => ?_
  simp only [spares_heap]
  exact (traceMiss_spares ..).bind fun _ _ _ _ => spares_onHeap _

end AtSite

namespace Session

variable {s : Session} {c : Config} {i : Nat} {site : Site}

/-- A polymorphic site serves the shapes that it knows. -/
theorem WithinLimits.servesSeveral (w : s.WithinLimits rules c) (hs : s.sites[i]? = some site)
    (hk : site.kind = .keyedLoad ∨ site.kind = .keyedStore) (poly : site.targetState = .polymorphic) :
    site.target.spec.ServesSeveral s.engine.heap c.maxKeyedPolymorphism site.kind := by
  have within := w.sites hs
  exact (w.sound.sites site (List.mem_of_getElem? hs)).servesSeveral w.sound.engine.heap
    ((within.proper.byKey hk).several poly) (within.allowed hk poly).1

/-- A polymorphic site that knows as many shapes as there may be. -/
theorem WithinLimits.full (w : s.WithinLimits rules c) (hs : s.sites[i]? = some site)
    (hk : site.kind = .keyedLoad ∨ site.kind = .keyedStore) (poly : site.targetState = .polymorphic)
    (length : site.target.spec.receiverShapes.length = c.maxKeyedPolymorphism) :
    site.Full s.engine.config := by
  have within := w.sites hs
  have useIc := (within.allowed hk poly).2
  rw [← w.config] at length useIc
  exact ⟨⟨within.proper, hk, by simp [poly]⟩, poly, length, useIc⟩

end Session

/-- A load or store by a small integer. -/
inductive SiteOperation.BySmi (receiver : Value) : SiteOperation → Prop
  | load (k : Int) : BySmi receiver (.keyedLoad receiver (.smi k))
  | store (k : Int) (v : Value) : BySmi receiver (.keyedStore receiver (.smi k) v)

open Session in
/-- **Polymorphic sites serve each of their shapes, and there are not too many.** Let every site be used
with operations of its own kind. Then a polymorphic site for loads or stores by key has a target for
each of the shapes that it knows, which are distinct, at least two and at most as many as the
configuration allows. If there are as many as that, then the next load or store by a small integer that
meets an object of one more shape makes the site generic, unless the object is the arguments object of a
non-strict function. -/
theorem polymorphic_sites {config : Config} {around : Surroundings} (lawful : around.host.Lawful rules)
    {ops : List Operation} (allowed : (ofConfig config around).AllowedRun rules ops)
    (suits : (ofConfig config around).keepsTo own ops)
    {i : Nat} {site : Site} (hs : ((ofConfig config around).run ops).sites[i]? = some site)
    (hk : site.kind = .keyedLoad ∨ site.kind = .keyedStore) (poly : site.targetState = .polymorphic) :
    let session := (ofConfig config around).run ops
    site.target.spec.ServesSeveral session.engine.heap config.maxKeyedPolymorphism site.kind ∧
    (site.target.spec.receiverShapes.length = config.maxKeyedPolymorphism →
      ∀ {receiver : Value} {shape : ShapeId} {op : SiteOperation}, op.BySmi receiver →
        op.suits site.kind → site.MeetsNew session.engine.heap receiver shape →
        ∃ site', (session.perform (.atSite i op)).sites[i]? = some site' ∧
          site'.targetState = .generic) := by
  intro session
  have w := withinLimits_run (c := config) lawful allowed suits
  refine ⟨w.servesSeveral hs hk poly, fun length receiver shape op bySmi own new => ?_⟩
  -- A site with as many shapes as allowed has no room for the next one.
  have full := w.full hs hk poly length
  have performed : (session.perform (.atSite i op)).sites[i]? =
      some (op.perform ⟨site, session.engine⟩).site := by
    have hi : i < session.sites.length := (List.getElem?_eq_some_iff.1 hs).1
    simp only [perform, show session.sites[i]? = some site from hs]
    exact List.getElem?_set_self hi
  refine ⟨_, performed, ?_⟩
  cases bySmi with
  | load k =>
    exact AtSite.keyedLoad_full (s := ⟨site, session.engine⟩) (of_decide_eq_true own) full new k
  | store k v =>
    exact AtSite.keyedStore_full (s := ⟨site, session.engine⟩) (of_decide_eq_true own) full new k v

/-- Two sites that know three shapes, one of them an elements transition of another, and then meet an
object of a fourth one. -/
theorem polymorphic_sites_three :
    let config : Config := { maxKeyedPolymorphism := 3 }
    let ops : List Operation := [
      .onHeap (.array [.smi 1, .smi 2]), .onHeap .object,
      .onHeap (.setElement (.object ⟨11⟩) 0 (.smi 7)), .onHeap .object,
      .access (.setProperty (.object ⟨12⟩) ⟨"x"⟩ (.smi 1) false),
      .newSite .keyedLoad {}, .newSite .keyedStore {},
      .atSite 0 (.keyedLoad (.object ⟨11⟩) (.smi 0)), .atSite 0 (.keyedLoad (.object ⟨10⟩) (.smi 0)),
      .atSite 1 (.keyedStore (.object ⟨11⟩) (.smi 0) (.smi 1)),
      .atSite 1 (.keyedStore (.object ⟨10⟩) (.smi 0) .null),
      .atSite 0 (.keyedLoad (.object ⟨10⟩) (.smi 0))]
    let session := (Session.ofConfig config).run ops
    ∃ load store, session.sites[0]? = some load ∧ session.sites[1]? = some store ∧
      load.target.spec.ServesSeveral session.engine.heap config.maxKeyedPolymorphism .keyedLoad ∧
      store.target.spec.ServesSeveral session.engine.heap config.maxKeyedPolymorphism .keyedStore ∧
      (∃ site, (session.perform (.atSite 0 (.keyedLoad (.object ⟨12⟩) (.smi 0)))).sites[0]? =
        some site ∧ site.targetState = .generic) ∧
      ∃ site, (session.perform (.atSite 1 (.keyedStore (.object ⟨12⟩) (.smi 0) .null))).sites[1]? =
        some site ∧ site.targetState = .generic := by
  intro config ops session
  have allowed : (Session.ofConfig config).AllowedRun {} ops :=
    ⟨trivial, trivial, trivial, trivial, trivial, trivial, trivial, trivial, trivial, trivial, trivial,
      trivial, trivial⟩
  have suits : (Session.ofConfig config).keepsTo Session.own ops := by decide +kernel
  have loads : ∃ site, session.sites[0]? = some site ∧ site.kind = .keyedLoad ∧
      site.targetState = .polymorphic ∧ site.target.spec.receiverShapes = [⟨1⟩, ⟨3⟩, ⟨14⟩] := by
    decide +kernel
  have stores : ∃ site, session.sites[1]? = some site ∧ site.kind = .keyedStore ∧
      site.targetState = .polymorphic ∧ site.target.spec.receiverShapes = [⟨1⟩, ⟨3⟩, ⟨14⟩] := by
    decide +kernel
  obtain ⟨load, hl, kind, poly, shapes⟩ := loads
  obtain ⟨store, hst, kind', poly', shapes'⟩ := stores
  have object : session.engine.heap.isJsObject (.object ⟨12⟩) ∧
      session.engine.heap.mapOf? (.object ⟨12⟩) = some ⟨13⟩ ∧
      ¬ session.engine.heap.isNonStrictArguments (.object ⟨12⟩) := by decide +kernel
  have three : config.maxKeyedPolymorphism = 3 := rfl
  have run : session = (Session.ofConfig config).run ops := rfl
  -- From here on nothing is to be evaluated any more.
  clear_value session ops config
  subst run
  have new {site : Site} (shapes : site.target.spec.receiverShapes = [⟨1⟩, ⟨3⟩, ⟨14⟩]) :
      site.MeetsNew ((Session.ofConfig config).run ops).engine.heap (.object ⟨12⟩) ⟨13⟩ :=
    ⟨object.1, object.2.1, by simp [shapes], object.2.2⟩
  have lawful : (Surroundings.host {}).Lawful {} := Host.idle_does _ _
  obtain ⟨serves, full⟩ := polymorphic_sites lawful allowed suits hl (.inl kind) poly
  obtain ⟨serves', full'⟩ := polymorphic_sites lawful allowed suits hst (.inr kind') poly'
  rw [kind] at serves
  rw [kind'] at serves'
  refine ⟨load, store, hl, hst, serves, serves', ?_, ?_⟩
  · exact full (by simp [shapes, three]) (.load 0) (by rw [kind]; rfl) (new shapes)
  · exact full' (by simp [shapes', three]) (.store 0 .null) (by rw [kind']; rfl) (new shapes')

end Speculation
