import Speculation.Engine.Execution
import Speculation.Proofs.Cache.Misses

/-!
# Sessions

A session is an engine with the sites that a program has made so far. `Session.Reachable rules` are
the sessions that a program which keeps to some rules can bring about, from an engine before
anything has run: by operations of the heap, by operations at any of the sites, with any operands
and in any order, whether they succeed or fail. What calls do besides is up to the host, which has to
keep to the same rules.

In every such session the heap is well formed and every stub, whether installed at a site, in the
stub cache or merely made, is sound (`Reachable.sound`).
-/

namespace Speculation

/-! ### Operations at a site -/

/-- What a program does at a site. -/
inductive SiteOperation where
  | load (receiver : Value) (name : Name)
  | store (receiver : Value) (name : Name) (v : Value)
  | keyedLoad (receiver key : Value)
  | keyedStore (receiver key v : Value)
  | call (receiver : Value) (name : Name) (args : List Value)
  | keyedCall (receiver key : Value) (args : List Value)
  | compare (x y : Value)
  | unary (x : Value)
  | binary (x y : Value)
  | toBoolean (x : Value)
  | clear
  | debugBreak (on : Bool)

namespace SiteOperation

/-- The site and the engine after an operation, also if it failed. -/
def perform (s : AtSite) : SiteOperation → AtSite
  | load r n => (AtSite.load r n s).2
  | store r n v => (AtSite.store r n v s).2
  | keyedLoad r k => (AtSite.keyedLoad r k s).2
  | keyedStore r k v => (AtSite.keyedStore r k v s).2
  | call r n args => (AtSite.call r n args s).2
  | keyedCall r k args => (AtSite.keyedCall r k args s).2
  | compare x y => (AtSite.compare x y s).2
  | unary x => (AtSite.unary x s).2
  | binary x y => (AtSite.binary x y s).2
  | toBoolean x => (AtSite.toBoolean x s).2
  | clear => (AtSite.clear s).2
  | debugBreak on => { s with site := { s.site with debugBreak := on } }

/-- The values that an operation stores are acceptable. -/
def Stores (ok : Value → Prop) : SiteOperation → Prop
  | store _ _ v | keyedStore _ _ v => ok v
  | _ => True

/-- A relation that holds across accesses holds across every operation at a site. -/
theorem across {rules : Rules} {R : Heap → Heap → Prop} {ok : Value → Prop} {s : AtSite}
    (c : Heap.AccessClosed rules R ok) (ss : s.Sound rules) (op : SiteOperation)
    (stores : op.Stores ok) :
    (op.perform s).Sound rules ∧ R s.engine.heap (op.perform s).engine.heap := by
  have result {α : Type} {a : AtSite.Action α} (x : AtSite.Across rules R s a) :
      (a s).2.Sound rules ∧ R s.engine.heap (a s).2.engine.heap := ⟨x.sound, x.heap⟩
  cases op with
  | load r n => exact result (AtSite.load_across c ss r n)
  | store r n v => exact result (AtSite.store_across c ss r n stores)
  | keyedLoad r k => exact result (AtSite.keyedLoad_across c ss r k)
  | keyedStore r k v => exact result (AtSite.keyedStore_across c ss r k stores)
  | call r n args => exact result (AtSite.call_across c ss r n args)
  | keyedCall r k args => exact result (AtSite.keyedCall_across c ss r k args)
  | compare x y => exact result (AtSite.compare_across c ss x y)
  | unary x => exact result (AtSite.unary_across c ss x)
  | binary x y => exact result (AtSite.binary_across c ss x y)
  | toBoolean x => exact result (AtSite.toBoolean_across c ss x)
  | clear => exact result ((AtSite.clear_upkeep ss).across c ss)
  | debugBreak on => exact ⟨⟨ss.engine, ss.target⟩, c.refl ss.engine.heap⟩

theorem stores_anything (op : SiteOperation) : op.Stores fun _ => True := by
  cases op <;> trivial

theorem reaches {rules : Rules} {s : AtSite} (ss : s.Sound rules) (op : SiteOperation) :
    AtSite.Reaches rules s (op.perform s) := by
  obtain ⟨sound, leads⟩ := op.across (Heap.accessClosed_leads rules) ss op.stores_anything
  exact ⟨sound, leads.grows⟩

end SiteOperation

/-! ### Operations of the engine -/

namespace Engine

variable {rules : Rules} {e : Engine}

/-- Requesting a compiled stub keeps an engine sound. -/
theorem Sound.requestStub (es : e.Sound rules) {spec : StubSpec} (hs : spec.Sound rules e.heap) :
    (e.requestStub spec).2.Sound rules := by
  refine es.step es.heap.leads (fun spec' h => ?_) (fun _ _ h => .inl h)
  rcases StubTable.mem_request h with h | rfl
  · exact .inl h
  · exact .inr hs

section Deoptimize

variable {R : Heap → Heap → Prop} {ok : Value → Prop} (c : Heap.AccessClosed rules R ok)

include c

/-- Giving up the code of a function keeps an engine sound. -/
theorem Sound.deoptimizeFunction (es : e.Sound rules) (f : Value) :
    (e.deoptimizeFunction f).2.Sound rules ∧ R e.heap (e.deoptimizeFunction f).2.heap := by
  have same : e.Sound rules ∧ R e.heap e.heap := ⟨es, c.refl es.heap⟩
  unfold Engine.deoptimizeFunction
  split
  · rename_i id d _ _
    split
    · exact same
    · split
      · have reset : R e.heap (e.heap.setFunctionCode id (e.heap.sharedInfo d.shared).code) :=
          c.data (Heap.modifyFunction_leads es.heap fun _ => rfl) fun o => by
            split <;> exact ⟨rfl, rfl, rfl, rfl⟩
        dsimp only
        split
        · exact ⟨es.step (c.leads reset) (fun _ h => .inl h) (fun _ _ h => .inl h), reset⟩
        · exact ⟨es.step (c.leads reset) (fun _ h => .inl h) (fun _ _ h => .inl h), reset⟩
      · exact same
  · exact same

/-- So does giving up the code of several. -/
theorem Sound.deoptimizeEach (es : e.Sound rules) (fs : List ObjectId) :
    (e.deoptimizeEach fs).2.Sound rules ∧ R e.heap (e.deoptimizeEach fs).2.heap := by
  induction fs generalizing e with
  | nil => exact ⟨es, c.refl es.heap⟩
  | cons f fs ih =>
    obtain ⟨es', r⟩ := es.deoptimizeFunction c (.object f)
    obtain ⟨es'', r'⟩ := ih es'
    exact ⟨es'', c.trans r r'⟩

/-- So does invalidating a shape. -/
theorem Sound.invalidateShape (es : e.Sound rules) (s : ShapeId) :
    (e.invalidateShape s).2.Sound rules ∧ R e.heap (e.invalidateShape s).2.heap := by
  have evicted : Engine.Sound rules { e with stubCache := (e.stubCache.evictShape s).2 } :=
    es.step es.heap.leads (fun _ h => .inl h) (fun _ _ h => .inl (StubCache.peek?_evictShape h))
  unfold Engine.invalidateShape
  dsimp only
  split
  · refine Sound.deoptimizeEach c ?_ _
    exact evicted.step evicted.heap.leads (fun _ h => .inl h) (fun _ _ h => .inl h)
  · exact evicted.deoptimizeEach c _

end Deoptimize

end Engine

/-! ### Sessions -/

/-- An engine and the sites that were made in it. -/
structure Session where
  engine : Engine
  sites : List Site

/-- What a program does in a session. -/
inductive Operation where
  | onHeap (op : HeapOperation)
  /-- An access by the general rules. -/
  | access (op : Access)
  | newSite (kind : SiteKind) (mode : SiteMode)
  | newCompareSite (op : CompareOperator)
  | newUnarySite (op : UnaryOperator)
  | newBinarySite (op : BinaryOperator)
  | newToBooleanSite
  /-- An operation at the `i`th site. -/
  | atSite (i : Nat) (op : SiteOperation)
  | invalidateShape (s : ShapeId)

namespace Session

/-- A session with one more site. -/
def addSite (s : Session) (r : Site × Engine) : Session :=
  { engine := r.2, sites := s.sites ++ [r.1] }

/-- The session after an operation, also if it failed. -/
def perform (s : Session) : Operation → Session
  | .onHeap op => { s with engine := { s.engine with heap := op.perform s.engine.heap } }
  | .access op => { s with engine := { s.engine with heap := op.perform s.engine.heap } }
  | .newSite kind mode => s.addSite (s.engine.newSite kind mode)
  | .newCompareSite op => s.addSite (s.engine.newCompareSite op)
  | .newUnarySite op => s.addSite (s.engine.newUnarySite op)
  | .newBinarySite op => s.addSite (s.engine.newBinarySite op)
  | .newToBooleanSite => s.addSite s.engine.newToBooleanSite
  | .atSite i op =>
    match s.sites[i]? with
    | none => s
    | some site =>
      let t := op.perform ⟨site, s.engine⟩
      { engine := t.engine, sites := s.sites.set i t.site }
  | .invalidateShape shape => { s with engine := (s.engine.invalidateShape shape).2 }

/-- What the rules ask of an operation. -/
def Allowed (rules : Rules) (s : Session) : Operation → Prop
  | .onHeap op => op.Allowed rules s.engine.heap
  | _ => True

/-- The session after some operations, one after the other. -/
def run (s : Session) : List Operation → Session
  | [] => s
  | op :: ops => (s.perform op).run ops

/-- What the rules ask of some operations, one after the other. -/
def AllowedRun (rules : Rules) (s : Session) : List Operation → Prop
  | [] => True
  | op :: ops => s.Allowed rules op ∧ (s.perform op).AllowedRun rules ops

/-- A session before anything has run. -/
def ofConfig (config : Config) (around : Surroundings := {}) : Session :=
  { engine := .ofConfig config around, sites := [] }

/-- The sessions that a program which keeps to the rules can bring about. -/
inductive Reachable (rules : Rules) : Session → Prop where
  | start (config : Config) (around : Surroundings) (lawful : around.host.Lawful rules) :
      Reachable rules (ofConfig config around)
  | step {s : Session} (r : Reachable rules s) (op : Operation) (allowed : s.Allowed rules op) :
      Reachable rules (s.perform op)

/-- A session whose host does nothing. -/
theorem Reachable.initial {rules : Rules} (config : Config) : Reachable rules (ofConfig config) :=
  .start config {} (Host.idle_does rules _)

/-- Sessions that are reached from reachable ones are reachable. -/
theorem Reachable.run {rules : Rules} {s : Session} (r : Reachable rules s) {ops : List Operation}
    (allowed : s.AllowedRun rules ops) : Reachable rules (s.run ops) := by
  induction ops generalizing s with
  | nil => exact r
  | cons op ops ih => exact ih (r.step op allowed.1) allowed.2

/-- The engine and all sites are sound. -/
structure Sound (rules : Rules) (s : Session) : Prop where
  engine : s.engine.Sound rules
  sites : ∀ site ∈ s.sites, site.target.spec.Sound rules s.engine.heap

/-- The stubs of a session: in its table, at its sites and in its stub cache. -/
inductive HasStub (s : Session) : StubSpec → Prop where
  | made {spec : StubSpec} (h : spec ∈ s.engine.stubs.specs) : HasStub s spec
  | installed {site : Site} (h : site ∈ s.sites) : HasStub s site.target.spec
  | cached {key : StubKey} {stub : Stub} (h : s.engine.stubCache.peek? key = some stub) :
      HasStub s stub.spec

variable {rules : Rules} {s : Session}

/-- Every stub of a sound session is sound. -/
theorem Sound.stub (ss : s.Sound rules) {spec : StubSpec} (has : s.HasStub spec) :
    spec.Sound rules s.engine.heap := by
  cases has with
  | made h => exact ss.engine.made spec h
  | installed h => exact ss.sites _ h
  | cached h => exact ss.engine.cached h

theorem Sound.atSite (ss : s.Sound rules) {site : Site} (hs : site ∈ s.sites) :
    AtSite.Sound rules ⟨site, s.engine⟩ := ⟨ss.engine, ss.sites site hs⟩

/-- A new session is sound. -/
theorem sound_ofConfig {rules : Rules} {around : Surroundings} (lawful : around.host.Lawful rules)
    (config : Config) : (ofConfig config around).Sound rules where
  engine := {
    heap := Heap.obeys_initial lawful
    made := by simp [ofConfig, Engine.ofConfig]
    cached := fun h => by cases h
    kinds := fun h => by cases h }
  sites := by simp [ofConfig]

/-- A new site with a compiled stub keeps a session sound. -/
theorem Sound.addSite (ss : s.Sound rules) {spec : StubSpec}
    (hc : spec.Compiled s.engine.heap) :
    (s.addSite (.ofStub (s.engine.requestStub spec).1, (s.engine.requestStub spec).2)).Sound
      rules where
  engine := ss.engine.requestStub (hc.sound ss.engine.heap)
  sites := by
    intro site hs
    rcases List.mem_append.1 hs with hs | hs
    · exact ss.sites site hs
    · obtain rfl := List.mem_singleton.1 hs
      have hs : (s.engine.requestStub spec).1.spec.Sound rules s.engine.heap := by
        rw [show (s.engine.requestStub spec).1.spec = spec from StubTable.spec_request _ spec]
        exact hc.sound ss.engine.heap
      exact hs

/-- A session stays sound where its heap leads to another one. -/
theorem Sound.leads (ss : s.Sound rules) {h : Heap} (l : Heap.Leads rules s.engine.heap h) :
    Sound rules { s with engine := { s.engine with heap := h } } :=
  ⟨ss.engine.step l (fun _ h => .inl h) (fun _ _ h => .inl h),
    fun site hs => (ss.sites site hs).mono l.grows⟩

/-- Every operation that the rules allow keeps a session sound. -/
theorem Sound.perform (ss : s.Sound rules) (op : Operation) (allowed : s.Allowed rules op) :
    (s.perform op).Sound rules := by
  cases op with
  | onHeap op =>
    exact ss.leads (Heap.operation_leads ss.engine.heap op allowed)
  | access op => exact ss.leads ((Heap.elementClosed_leads rules).access ss.engine.heap op)
  | newSite kind mode => exact ss.addSite (StubSpec.compiled_fresh ..)
  | newCompareSite op => exact ss.addSite (StubSpec.Origin.compiled trivial rfl)
  | newUnarySite op => exact ss.addSite (StubSpec.Origin.compiled trivial rfl)
  | newBinarySite op => exact ss.addSite (StubSpec.Origin.compiled trivial rfl)
  | newToBooleanSite => exact ss.addSite (StubSpec.Origin.compiled trivial rfl)
  -- The other sites see a grown heap, and the site that runs has the stub it installed.
  | atSite i op =>
    simp only [Session.perform]
    cases e : s.sites[i]? with
    | none => exact ss
    | some site =>
      have r := op.reaches (ss.atSite (List.mem_of_getElem? e))
      refine ⟨r.sound.engine, fun site' hs => ?_⟩
      rcases List.mem_or_eq_of_mem_set hs with hs | rfl
      · exact (ss.sites site' hs).mono r.grows
      · exact r.sound.target
  | invalidateShape shape =>
    obtain ⟨es, l⟩ := ss.engine.invalidateShape (Heap.accessClosed_leads rules) shape
    exact ⟨es, fun site hs => (ss.sites site hs).mono l.grows⟩

/-- A relation that holds across accesses holds across every operation if it holds across those of
the heap. -/
theorem Sound.perform_rel {R : Heap → Heap → Prop} {ok : Value → Prop}
    (c : Heap.AccessClosed rules R ok) (ss : s.Sound rules) (op : Operation)
    (onHeap : ∀ o, op = .onHeap o → R s.engine.heap (o.perform s.engine.heap))
    (atSite : ∀ i o, op = .atSite i o → o.Stores ok) :
    R s.engine.heap (s.perform op).engine.heap := by
  cases op with
  | onHeap op => exact onHeap op rfl
  | access op => exact c.access ss.engine.heap op
  | newSite | newCompareSite | newUnarySite | newBinarySite | newToBooleanSite =>
    exact c.refl ss.engine.heap
  | atSite i op =>
    simp only [Session.perform]
    cases e : s.sites[i]? with
    | none => exact c.refl ss.engine.heap
    | some site => exact (op.across c (ss.atSite (List.mem_of_getElem? e)) (atSite i op rfl)).2
  | invalidateShape shape => exact (ss.engine.invalidateShape c shape).2

theorem Sound.perform_leads (ss : s.Sound rules) (op : Operation) (allowed : s.Allowed rules op) :
    Heap.Leads rules s.engine.heap (s.perform op).engine.heap := by
  refine ss.perform_rel (Heap.accessClosed_leads rules) op (fun o e => ?_)
    fun _ o _ => o.stores_anything
  subst e
  exact Heap.operation_leads ss.engine.heap o allowed

theorem Sound.run_leads (ss : s.Sound rules) {ops : List Operation} (allowed : s.AllowedRun rules ops) :
    Heap.Leads rules s.engine.heap (s.run ops).engine.heap := by
  induction ops generalizing s with
  | nil => exact ss.engine.heap.leads
  | cons op ops ih =>
    exact (ss.perform_leads op allowed.1).trans (ih (ss.perform op allowed.1) allowed.2)

/-- The host stays the one that the session was started with. -/
theorem host_run {config : Config} {around : Surroundings} {ops : List Operation}
    (e : s = (ofConfig config around).run ops) (lawful : around.host.Lawful rules)
    (allowed : (ofConfig config around).AllowedRun rules ops) : s.engine.heap.host = around.host := by
  rw [e]
  exact ((sound_ofConfig lawful config).run_leads allowed).host

theorem blind_idle_run {config : Config} {ops : List Operation} (e : s = (ofConfig config).run ops)
    (allowed : (ofConfig config).AllowedRun rules ops) : s.engine.heap.host.Blind := by
  rw [host_run e (show Host.Lawful (Surroundings.host {}) rules from Host.idle_does rules _) allowed]
  exact Host.blind_idle

/-- **Every reachable session is sound.** -/
theorem Reachable.sound (r : Reachable rules s) : s.Sound rules := by
  induction r with
  | start config around lawful => exact sound_ofConfig lawful config
  | step _ op allowed ih => exact ih.perform op allowed

end Session

end Speculation
