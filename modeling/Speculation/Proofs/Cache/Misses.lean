import Speculation.Proofs.Cache.General

/-!
# Resolving misses

A miss is resolved by upkeep around an access by the general rules: `Performs s a b` says that the
action `a` at the site `s` has the result of the action `b` of the heap and leaves the same objects
and shapes.

Upkeep changes the stubs of shapes, and a function of the host that the access calls finds them
changed. So the access is performed on a heap that may differ in its stubs from that of the site, and
only if the host is blind this makes no difference (`Performs.result`).

Every operation at a site, run and resolved, ends in a sound site, and a relation that holds across
accesses (`AccessClosed`) holds across it.
-/

namespace Speculation

variable {rules : Rules} {s t u : AtSite} {α β : Type}

namespace Heap

variable {h : Heap}

/-! ### Stubs in place of actions -/

/-- What a stub may do in place of an action: miss without a trace, or perform it. -/
def Stands (h : Heap) (a : Action Outcome) (b : Action Value) : Prop :=
  a h = (.ok .miss, h) ∨ a h = (.ok .missForGood, h) ∨ a h = (do return Outcome.hit (← b)) h

/-- A stub that misses without a trace. -/
def Misses (h : Heap) (a : Action Outcome) : Prop :=
  a h = (.ok .miss, h) ∨ a h = (.ok .missForGood, h)

/-- A stub that misses stands for anything. -/
theorem Misses.stands {a : Action Outcome} (m : h.Misses a) (b : Action Value) : h.Stands a b :=
  m.imp_right .inl

/-- A stub that hits stands for what gives the same value and heap. -/
theorem stands_hit {g : Heap} {a : Action Outcome} {b : Action Value} {v : Value}
    (ha : a h = (.ok (.hit v), g)) (hb : b h = (.ok v, g)) : Stands h a b := by
  refine .inr (.inr ?_)
  rw [ha, Computation.bind_ok hb]
  rfl

/-- A stub that runs an action stands for it. -/
theorem stands_perform {a : Action Outcome} {b c : Action Value}
    (ha : a h = (do return Outcome.hit (← c)) h) (hc : c h = b h) : Stands h a b := by
  refine .inr (.inr ?_)
  rw [ha, Computation.bind_apply, Computation.bind_apply, hc]

/-! ### Accesses around which there is upkeep -/

/-- The same heap, but for the stubs of its shapes. -/
structure Restubs (h h' : Heap) : Prop where
  bare : h'.bare = h.bare
  log : h'.invocations = h.invocations

namespace Restubs

variable {h h' h'' : Heap}

theorem refl (h : Heap) : h.Restubs h := ⟨rfl, rfl⟩

theorem trans (a : h.Restubs h') (b : h'.Restubs h'') : h.Restubs h'' :=
  ⟨b.bare.trans a.bare, b.log.trans a.log⟩

/-- Heaps that differ in their stubs have all but the shapes in common. -/
theorem eq_withShapes (a : h.Restubs h') : h' = { h with shapes := h'.shapes } := by
  obtain ⟨bare, log⟩ := a
  obtain ⟨⟨cells, shapes, shared, names, internalized, initialShapes, noAllocation⟩, host, calls⟩ := h
  obtain ⟨⟨cells', shapes', shared', names', internalized', initialShapes', noAllocation'⟩, host', calls'⟩ := h'
  simp only [Heap.bare, Memory.bare, Heap.mk.injEq, Memory.mk.injEq] at bare
  obtain ⟨⟨rfl, -, rfl, rfl, rfl, rfl, rfl⟩, rfl, -⟩ := bare
  obtain rfl : calls' = calls := log
  rfl

end Restubs

/-- The action leaves shapes alone, and does not look at their stubs. -/
def SparesShapes {α : Type} (b : Action α) : Prop :=
  ∀ (h : Heap) (shapes : Array Shape), h.Restubs { h with shapes } →
    b { h with shapes } = ((b h).1, { (b h).2 with shapes })

/-- An action that spares shapes leaves them all. -/
theorem SparesShapes.shapes_eq {α : Type} {b : Action α} (spares : SparesShapes b) (h : Heap) :
    (b h).2.shapes = h.shapes := by
  have same := spares h h.shapes (.refl h)
  exact congrArg (·.2.shapes) same

theorem sparesShapes_getElement (receiver : Value) (index : Nat) :
    SparesShapes (getElement receiver index) := by
  intro h shapes same
  have chain : Heap.chainElement { h with shapes } receiver index = h.chainElement receiver index := by
    rw [← chainElement_bare, same.bare, chainElement_bare]
  have string : Heap.indexedString? { h with shapes } receiver = h.indexedString? receiver := rfl
  simp only [getElement, Computation.get_bind, string, chain]
  cases (h.indexedString? receiver).bind fun s => (Text.units s)[index]? with
  | none => rfl
  | some u =>
    have allowed : Heap.allocationAllowed { h with shapes } = h.allocationAllowed := rfl
    simp only [newString, Computation.bind_apply, allocate, Computation.get_apply, allowed]
    cases h.allocationAllowed <;> rfl

theorem sparesShapes_elementNamed (receiver : Value) (name : Name) :
    SparesShapes (elementNamed receiver name) := by
  intro h shapes same
  unfold elementNamed
  cases name.arrayIndex? with
  | none => rfl
  | some i =>
    have element := sparesShapes_getElement receiver i h shapes same
    dsimp only
    rw [map_eq_pure_bind]
    rcases e : getElement receiver i h with ⟨r, h'⟩
    rw [e] at element
    cases r with
    | error x => rw [Computation.bind_error element, Computation.bind_error e]
    | ok v =>
      rw [Computation.bind_ok element, Computation.bind_ok e]
      rfl

end Heap

namespace AtSite

/-- What keeps the heap up changes nothing of it but stubs. -/
theorem Kept.restubs (k : Kept rules s t) : s.engine.heap.Restubs t.engine.heap := ⟨k.heap, k.log⟩

/-- An action at a site that does what an action of the heap does, apart from upkeep: the heap on which
this action is performed may have other stubs. -/
structure Performs (rules : Rules) (s : AtSite) (a : Action α) (b : Heap.Action α) : Prop where
  run : ∃ g, s.engine.heap.Restubs g ∧ (a s).1 = (b g).1 ∧ (b g).2.Restubs (a s).2.engine.heap
  safe : Safe rules s a

theorem onHeap_performs (ss : s.Sound rules) {b : Heap.Action α}
    (l : Heap.Leads rules s.engine.heap (b s.engine.heap).2) : Performs rules s (onHeap b) b :=
  ⟨⟨_, .refl _, rfl, .refl _⟩, onHeap_safe ss l⟩

theorem pure_performs (ss : s.Sound rules) (x : α) : Performs rules s (pure x) (pure x) :=
  ⟨⟨_, .refl _, rfl, .refl _⟩, safe_pure ss⟩

section Blind

variable {a : Action α} {b : Heap.Action α} (p : Performs rules s a b)
  (blind : Heap.Blind s.engine.heap.host b)

include p blind

/-- Where the action is blind, the upkeep does not show in its result, -/
theorem Performs.result : (a s).1 = (b s.engine.heap).1 := by
  obtain ⟨g, same, result, -⟩ := p.run
  exact result.trans (blind.congr same.bare.symm).1.symm

/-- nor in the heap. -/
theorem Performs.heap : (a s).2.engine.heap.bare = (b s.engine.heap).2.bare := by
  obtain ⟨g, same, -, restubs⟩ := p.run
  exact restubs.bare.trans (blind.congr same.bare.symm).2.symm

end Blind

/-- Upkeep before an action. -/
theorem Kept.bind_performs {a : Action α} {f : α → Action β} {b : Heap.Action β} {x : α}
    (e : a s = (.ok x, t)) (k : Kept rules s t) (next : Performs rules t (f x) b) :
    Performs rules s (a >>= f) b := by
  obtain ⟨⟨g, same, result, heap⟩, safe⟩ := next
  refine ⟨⟨g, k.restubs.trans same, ?_⟩, ?_⟩
  · rw [Computation.bind_ok e]
    exact ⟨result, heap⟩
  · unfold Safe
    rw [Computation.bind_ok e]
    exact k.reaches.trans safe

theorem Upkeep.bind_performs {a : Action α} {f : α → Action β} {b : Heap.Action β} {post : α → Prop}
    (up : Upkeep rules s a post)
    (next : ∀ x t, Kept rules s t → post x → Performs rules t (f x) b) :
    Performs rules s (a >>= f) b := by
  obtain ⟨x, t, e, k, hx⟩ := up
  exact k.bind_performs e (next x t k hx)

/-- One action after the other, with upkeep in between. The first one could as well have been performed
after that, since it spares shapes. -/
theorem Performs.bind {a : Action α} {f : α → Action β} {b : Heap.Action α}
    {c : α → Heap.Action β} (p : Performs rules s a b) (spares : Heap.SparesShapes b)
    (next : ∀ x t, Reaches rules s t → Performs rules t (f x) (c x)) :
    Performs rules s (a >>= f) (b >>= c) := by
  obtain ⟨⟨g, same, result, heap⟩, safe⟩ := p
  rcases e : a s with ⟨r, t⟩
  rcases e' : b g with ⟨r', h'⟩
  rw [e, e'] at result heap
  simp only at result heap
  subst result
  have reach : Reaches rules s t := by rwa [Safe, e] at safe
  cases r with
  | error x =>
    refine ⟨⟨g, same, ?_⟩, ?_⟩
    · rw [Computation.bind_error e, Computation.bind_error e']
      exact ⟨rfl, heap⟩
    · rwa [Safe, Computation.bind_error e]
  | ok x =>
    obtain ⟨⟨g', same', result', heap'⟩, safe'⟩ := next x t reach
    have later := heap.trans same'
    have shapes : h'.shapes = g.shapes := by simpa only [e'] using spares.shapes_eq g
    -- The two runs may differ in the stubs kept with the shapes. The first part does not look at
    -- shapes, so it can be rerun on the heap whose stubs the second part starts from.
    have first : g.Restubs { g with shapes := g'.shapes } := by
      refine ⟨?_, rfl⟩
      have stubs : g'.shapes.map Shape.bare = g.shapes.map Shape.bare := by
        have := congrArg (·.shapes) later.bare
        rwa [← shapes]
      simp only [Heap.bare, Memory.bare, stubs]
    have performed : b { g with shapes := g'.shapes } = (.ok x, g') := by
      rw [spares g _ first, e', later.eq_withShapes]
    refine ⟨⟨_, same.trans first, ?_⟩, ?_⟩
    · rw [Computation.bind_ok e, Computation.bind_ok performed]
      exact ⟨result', heap'⟩
    · rw [Safe, Computation.bind_ok e]
      exact reach.trans safe'

theorem performs_ite {c : Prop} [Decidable c] {a a' : Action α} {b : Heap.Action α}
    (h : Performs rules s a b) (h' : Performs rules s a' b) :
    Performs rules s (if c then a else a') b := by
  split
  · exact h
  · exact h'

theorem performs_congr {a a' : Action α} {b : Heap.Action α} (e : a s = a' s) :
    Performs rules s a b ↔ Performs rules s a' b := by
  constructor
  · rintro ⟨run, safe⟩
    exact ⟨e ▸ run, by rwa [Safe, ← e]⟩
  · rintro ⟨run, safe⟩
    exact ⟨e ▸ run, by rwa [Safe, e]⟩

@[simp] theorem performs_heap {f : Heap → Action α} {b : Heap.Action α} :
    Performs rules s (heap >>= f) b ↔ Performs rules s (f s.engine.heap) b := performs_congr rfl

@[simp] theorem performs_current {f : Site → Action α} {b : Heap.Action α} :
    Performs rules s (current >>= f) b ↔ Performs rules s (f s.site) b := performs_congr rfl

@[simp] theorem performs_config {f : Config → Action α} {b : Heap.Action α} :
    Performs rules s (config >>= f) b ↔ Performs rules s (f s.engine.config) b :=
  performs_congr rfl

/-- An action of the heap that reads it first, but not the stubs of its shapes. -/
theorem performs_get {a : Action α} {f : Heap → Heap.Action α} (hf : ∀ h : Heap, f h.bare = f h) :
    Performs rules s a (get >>= f) ↔ Performs rules s a (f s.engine.heap) := by
  have same {g : Heap} (r : s.engine.heap.Restubs g) : (get >>= f) g = f s.engine.heap g := by
    rw [Computation.get_bind, ← hf g, r.bare, hf]
  constructor
  · rintro ⟨⟨g, r, result, heap⟩, safe⟩
    rw [same r] at result heap
    exact ⟨⟨g, r, result, heap⟩, safe⟩
  · rintro ⟨⟨g, r, result, heap⟩, safe⟩
    rw [← same r] at result heap
    exact ⟨⟨g, r, result, heap⟩, safe⟩

/-- A stub that stands for an action, followed by one that performs it after a miss. -/
theorem stands_bind_performs (ss : s.Sound rules) {a : Heap.Action Outcome} {b : Heap.Action Value}
    {next : Outcome → Action Value} (leads : Heap.Leads rules s.engine.heap (a s.engine.heap).2)
    (stands : s.engine.heap.Stands a b) (hit : ∀ v, next (.hit v) = pure v)
    (miss : Performs rules s (next .miss) b)
    (missForGood : Performs rules s (next .missForGood) b) :
    Performs rules s (onHeap a >>= next) b := by
  have missed {m : Outcome} (e : a s.engine.heap = (.ok m, s.engine.heap)) :
      onHeap a s = (.ok m, s) := by simp only [onHeap, e]
  -- The stub misses, in one way or the other, and the rest of the operation is taken; or it hits
  -- with the value of `b`.
  rcases stands with e | e | e
  · rwa [performs_congr (Computation.bind_ok (missed e))]
  · rwa [performs_congr (Computation.bind_ok (missed e))]
  · have safe := onHeap_safe ss leads
    rcases hb : b s.engine.heap with ⟨f | v, h⟩
    · rw [Computation.bind_error hb] at e
      have failed : onHeap a s = (.error f, { s with engine := { s.engine with heap := h } }) := by
        simp only [onHeap, e]
      unfold Safe at safe
      rw [failed] at safe
      refine ⟨⟨_, .refl _, ?_⟩, ?_⟩
      · rw [Computation.bind_error failed, hb]
        exact ⟨rfl, .refl h⟩
      · unfold Safe
        rwa [Computation.bind_error failed]
    · rw [Computation.bind_ok hb, Computation.pure_apply] at e
      have found : onHeap a s = (.ok (.hit v), { s with engine := { s.engine with heap := h } }) := by
        simp only [onHeap, e]
      unfold Safe at safe
      rw [found] at safe
      refine ⟨⟨_, .refl _, ?_⟩, ?_⟩
      · rw [Computation.bind_ok found, hit, hb]
        exact ⟨rfl, .refl h⟩
      · unfold Safe
        rwa [Computation.bind_ok found, hit]

/-- A stub that stands for an action, with a resolver that performs it. -/
theorem stands_performs (ss : s.Sound rules) {a : Heap.Action Outcome} {b : Heap.Action Value}
    {resolve : Action Value} (leads : Heap.Leads rules s.engine.heap (a s.engine.heap).2)
    (stands : s.engine.heap.Stands a b) (resolved : Performs rules s resolve b) :
    Performs rules s (do
      match ← onHeap a with
      | .hit v => return v
      | .miss | .missForGood => resolve) b :=
  stands_bind_performs ss leads stands (fun _ => rfl) resolved resolved

/-! ### The stub that a site runs -/

/-- The stub that a site runs for an access: its own one, or, if it is megamorphic, what the stub cache
has. -/
def consult (receiver : Value) (key : Key) : Action (Option StubSpec) := do
  let stub := (← current).target
  if stub.handler = .megamorphic then probe stub receiver key else return some stub.spec

def Consults (s : AtSite) (receiver : Value) (key : Key) (spec : StubSpec) : Prop :=
  (consult receiver key s).1 = .ok (some spec)

/-- A site that is not megamorphic runs its own stub. -/
theorem consults_own {receiver : Value} {key : Key} {spec : StubSpec}
    (plain : s.site.target.handler ≠ .megamorphic) :
    s.Consults receiver key spec ↔ spec = s.site.target.spec := by
  have e : consult receiver key s = (.ok (some s.site.target.spec), s) := by
    change (if s.site.target.handler = .megamorphic then probe s.site.target receiver key
      else pure (some s.site.target.spec) : Action _) s = _
    rw [if_neg plain]
    rfl
  simp [Consults, e, eq_comm]

/-- A site for loads runs the stub that it consults. -/
theorem dispatchLoad_eq (receiver : Value) (key : Key) : dispatchLoad receiver key = (do
    match ← consult receiver key with
    | some spec => onHeap (Heap.runLoad spec receiver key)
    | none => return .miss) := by
  funext s
  change (if s.site.target.handler = .megamorphic then _ else _ : Action Outcome) s =
    ((if s.site.target.handler = .megamorphic then _ else _ : Action _) >>= _ : Action Outcome) s
  split <;> rfl

/-- A site for stores runs the stub that it consults. -/
theorem dispatchStore_eq (receiver : Value) (key : Key) (v : Value) :
    dispatchStore receiver key v = (do
      match ← consult receiver key with
      | some spec => onHeap (Heap.runStore spec receiver key v)
      | none => return .miss) := by
  funext s
  change (if s.site.target.handler = .megamorphic then _ else _ : Action Outcome) s =
    ((if s.site.target.handler = .megamorphic then _ else _ : Action _) >>= _ : Action Outcome) s
  split <;> rfl

/-- To look in the stub cache only counts there. -/
theorem probe_same {stub : Stub} {receiver : Value} {key : Key} {r : Option StubSpec}
    (e : probe stub receiver key s = (.ok r, t)) :
    t.site = s.site ∧ t.engine.heap = s.engine.heap := by
  have read {α : Type} (f : Heap → Action α) : (heap >>= f) s = f s.engine.heap s := rfl
  simp only [probe, read] at e
  -- A probe changes the counters of the archive at most.
  cases hn : key.name? s.engine.heap with
  | none =>
    simp only [hn] at e
    cases e
    exact ⟨rfl, rfl⟩
  | some name =>
    cases hp : s.engine.heap.probeShape? stub.kind receiver with
    | none =>
      simp only [hn, hp] at e
      cases e
      exact ⟨rfl, rfl⟩
    | some shape =>
      simp only [hn, hp, Computation.get_bind, Computation.modify_bind] at e
      cases hc : (s.engine.stubCache.get ⟨name, shape, stub.kind⟩).1 with
      | none =>
        simp only [hc] at e
        cases e
        exact ⟨rfl, rfl⟩
      | some found =>
        simp only [hc] at e
        cases e
        exact ⟨rfl, rfl⟩

/-- The stub that a site runs was made for accesses of its kind. If it is not its own one, then it is
specialized. -/
theorem consult_kept (ss : s.Sound rules) (receiver : Value) (key : Key) : ∃ found t,
    consult receiver key s = (.ok found, t) ∧ Kept rules s t ∧ t.site = s.site ∧
      t.engine.heap = s.engine.heap ∧
      ∀ spec, found = some spec → s.Consults receiver key spec ∧ spec.Sound rules s.engine.heap ∧
        spec.kind = s.site.target.kind ∧
        (spec = s.site.target.spec ∨ spec.state = .monomorphic) := by
  have e : consult receiver key s = (if s.site.target.handler = .megamorphic then
      probe s.site.target receiver key else pure (some s.site.target.spec) : Action _) s := rfl
  by_cases mega : s.site.target.handler = .megamorphic
  · rw [if_pos mega] at e
    obtain ⟨found, t, probed, kept, sound⟩ := probe_upkeep ss s.site.target receiver key
    obtain ⟨site, heap⟩ := probe_same probed
    refine ⟨found, t, e.trans probed, kept, site, heap, ?_⟩
    rintro spec rfl
    obtain ⟨made, state, kind⟩ := sound spec rfl
    exact ⟨congrArg Prod.fst (e.trans probed), made, kind, .inr state⟩
  · rw [if_neg mega] at e
    refine ⟨_, s, e, ss.kept, rfl, rfl, ?_⟩
    rintro spec ⟨⟩
    exact ⟨congrArg Prod.fst e, ss.target, rfl, .inl rfl⟩

/-- A miss of a named load loads by the general rules. -/
theorem resolveLoad_performs (ss : s.Sound rules) (receiver : Value) (name : Name) :
    Performs rules s (resolveLoad receiver name) (s.engine.heap.namedLoad receiver name) := by
  have ob := ss.engine.heap
  simp only [resolveLoad, performs_heap]
  by_cases hnull : receiver.isNullish
  · have e : s.engine.heap.namedLoad receiver name =
        Heap.raise (.nonObjectLoad name.text (s.engine.heap.describe receiver)) := by
      simp [Heap.namedLoad, hnull]
    rw [if_pos hnull, e]
    exact onHeap_performs ss ob.leads
  rw [if_neg hnull]
  -- The two steps before the lookup keep the books only, so the value is still that of the heap
  -- at `s`.
  refine (stateOfMiss_upkeep ss receiver name).bind_performs fun old t k _ => ?_
  refine (resolveIntrinsic_upkeep k.sound old receiver name).bind_performs fun r u k' hr => ?_
  rw [← Heap.intrinsicLoad?_bare, k.heap, Heap.intrinsicLoad?_bare] at hr
  have bare := (k.trans k').heap
  have ob' := k'.sound.engine.heap
  cases r with
  | some v =>
    have e : s.engine.heap.namedLoad receiver name = pure v := by
      simp [Heap.namedLoad, hnull, ← hr]
    rw [e]
    exact pure_performs k'.sound v
  | none =>
    -- An index key falls to the element read, with or without a stub for it.
    cases hi : name.arrayIndex? with
    | some i =>
      have e : s.engine.heap.namedLoad receiver name = Heap.getElement receiver i := by
        simp [Heap.namedLoad, hnull, ← hr, hi]
      have element : ∀ {w : AtSite}, w.Sound rules →
          Performs rules w (onHeap (Heap.getElement receiver i)) (Heap.getElement receiver i) :=
        fun ws => onHeap_performs ws (Heap.getElement_leads ws.engine.heap receiver i)
      have generic := (StubSpec.compiled_generic u.engine.heap u.site.kind u.site.mode).sound ob'
      rw [e]
      simp only [performs_current, performs_config]
      refine performs_ite ?_ (element k'.sound)
      refine (request_upkeep k'.sound generic).bind_performs fun stub w k'' hs => ?_
      refine (install_upkeep k''.sound (hs ▸ generic.mono k''.grows)).bind_performs fun _ x kx _ => ?_
      exact (traceMiss_upkeep kx.sound name.text old).bind_performs fun _ y ky _ =>
        element ky.sound
    | none =>
      have found : u.engine.heap.lookup receiver name = s.engine.heap.lookup receiver name := by
        rw [← Heap.lookup_bare, bare, Heap.lookup_bare]
      simp only [performs_heap, found]
      -- A named key raises an error if it is an undeclared global, and reads what the lookup
      -- found otherwise.
      by_cases hg : (!(s.engine.heap.lookup receiver name).isFound &&
          s.engine.heap.isGlobalObject receiver) = true
      · have e : s.engine.heap.namedLoad receiver name = Heap.raise (.notDefined name.text) := by
          simp [Heap.namedLoad, hnull, ← hr, hi, hg]
        rw [if_pos hg, e]
        exact onHeap_performs k'.sound ob'.leads
      · have e : s.engine.heap.namedLoad receiver name =
            Heap.readLookup receiver (s.engine.heap.lookup receiver name) name := by
          simp [Heap.namedLoad, hnull, ← hr, hi, hg]
        have read : ∀ {w : AtSite}, w.Sound rules → Performs rules w
            (onHeap (Heap.readLookup receiver (s.engine.heap.lookup receiver name) name))
            (Heap.readLookup receiver (s.engine.heap.lookup receiver name) name) :=
          fun ws => onHeap_performs ws (Heap.readLookup_leads ws.engine.heap receiver _ name)
        rw [if_neg hg]
        rw [e]
        simp only [performs_config]
        refine performs_ite ?_ (read k'.sound)
        have up := updateLoad_upkeep k'.sound old receiver name
          (by rw [← Heap.intrinsicLoad?_bare, bare, Heap.intrinsicLoad?_bare, ← hr]) hi (by
            rw [found, ← Heap.isGlobalObject_bare, bare, Heap.isGlobalObject_bare]
            intro e
            simpa [e, Lookup.isFound] using hg)
        rw [found] at up
        exact up.bind_performs fun _ w kw _ => read kw.sound

/-! ### Misses of named stores -/

section Stores

variable {receiver v : Value} {name : Name} {strict : Bool}

theorem setProperty_performs (ss : s.Sound rules) : Performs rules s
    (onHeap (Heap.setProperty receiver name v strict)) (Heap.setProperty receiver name v strict) :=
  onHeap_performs ss (Heap.setProperty_leads ss.engine.heap receiver name v strict)

/-- A store by the general rules after some upkeep. -/
theorem Upkeep.setProperty {a : Action Unit} {post : Unit → Prop} (up : Upkeep rules s a post) :
    Performs rules s (a >>= fun _ => onHeap (Heap.setProperty receiver name v strict))
      (Heap.setProperty receiver name v strict) :=
  up.bind_performs fun _ _ k _ => setProperty_performs k.sound

theorem storeArrayLength_sound {h : Heap} (ob : h.Obeys rules) (mode : SiteMode) :
    StubSpec.Sound rules h { kind := .store, state := .monomorphic, mode := mode
                             handler := .storeArrayLength, name := some .length } :=
  StubSpec.Compiled.sound (StubSpec.Origin.compiled rfl rfl (.intrinsic rfl rfl rfl)) ob

theorem storeGlobalProxy_sound {h : Heap} (ob : h.Obeys rules) (mode : SiteMode) :
    StubSpec.Sound rules h { kind := .store, state := .megamorphic, mode := mode
                             handler := .storeGlobalProxy } :=
  StubSpec.Compiled.sound (StubSpec.Origin.compiled rfl rfl) ob

/-- The stub for a property that was looked up before some upkeep. -/
theorem Kept.updateStore_upkeep (k : Kept rules s t) (old : SiteState) {id : ObjectId}
    {o : JsObject} {found : Lookup} (ho : s.engine.heap.object? id = some o)
    (other : s.engine.heap.isGlobalProxy (.object id) = false) (hi : name.arrayIndex? = none)
    (slow : s.site.kind = .store → s.engine.heap.isArray (.object id) → name = .length →
      s.engine.heap.isFast id = false)
    (cacheable : s.engine.heap.lookupForStore id name = (true, found)) :
    Upkeep rules t (updateStore old (.object id) id name found) fun _ => True := by
  refine AtSite.updateStore_upkeep k.sound old name found (o := o) ?_ (fun g e => ?_) hi
    (fun hk harr hn => ?_) ?_
  · rwa [← Heap.object?_bare, k.heap, Heap.object?_bare]
  · simp [Heap.isGlobalProxy, Heap.classOf?, Heap.asObject?, Value.objectId?, ho, e] at other
  · rw [← Heap.isFast_bare, k.heap, Heap.isFast_bare]
    rw [← Heap.isArray_bare, k.heap, Heap.isArray_bare] at harr
    exact slow (k.kind.symm.trans hk) harr hn
  · rwa [← Heap.lookupForStore_bare, k.heap, Heap.lookupForStore_bare]

end Stores

/-- A miss of a named store stores by the general rules. -/
theorem resolveStore_performs (ss : s.Sound rules) (receiver : Value) (name : Name) (v : Value) :
    Performs rules s (resolveStore receiver name v)
      (s.engine.heap.namedStore receiver name v s.site.mode.strict) := by
  have ob := ss.engine.heap
  generalize hstrict : s.site.mode.strict = strict
  simp only [resolveStore, performs_heap, performs_current, hstrict, Heap.namedStore]
  -- The guards of the slow store come first, in the order it makes them: each settles both sides
  -- alike.
  by_cases hnull : receiver.isNullish
  · simp only [if_pos hnull]
    exact onHeap_performs ss ob.leads
  simp only [if_neg hnull]
  by_cases hlength : (strict && s.engine.heap.isString receiver && decide (name = .length)) = true
  · simp only [if_pos hlength]
    exact onHeap_performs ss ob.leads
  simp only [if_neg hlength]
  cases hid : s.engine.heap.holderId? receiver .receiver with
  | none => exact pure_performs ss v
  | some id =>
    obtain ⟨o, rfl, ho⟩ := Heap.object_of_holderId? hid
    cases hi : name.arrayIndex? with
    | some i => exact onHeap_performs ss (Heap.setElement_leads ob (.object id) i v)
    | none =>
      dsimp only
      refine (stateOfMiss_upkeep ss (.object id) name).bind_performs fun old t k _ => ?_
      have ob' := k.sound.engine.heap
      simp only [performs_config]
      split
      · rename_i special
        simp only [Bool.and_eq_true, decide_eq_true_eq] at special
        -- The length of an array gets a stub of its own.
        obtain ⟨⟨⟨-, array⟩, rfl⟩, -⟩ := special
        simp only [Heap.isUndeclared_of_other (Heap.isGlobalObject_of_isArray array), Bool.and_false,
          Bool.false_eq_true, if_false]
        exact (installTraced_upkeep k.sound (storeArrayLength_sound ob' _) _ old).setProperty
      rename_i ordinary
      split
      -- A global proxy gets the stub that forwards the store.
      · rename_i proxy
        simp only [Heap.isUndeclared_of_other (Heap.isGlobalObject_of_isGlobalProxy proxy),
          Bool.and_false, Bool.false_eq_true, if_false]
        refine performs_ite ?_ (setProperty_performs k.sound)
        exact (installTraced_upkeep k.sound (storeGlobalProxy_sound ob' _) _ old).setProperty
      rename_i other
      split
      -- A store the lookup can describe never goes to an undeclared global, so all that remains
      -- of the slow store is `setProperty`.
      · rename_i cacheable
        simp only [Heap.isUndeclared_of_cacheable cacheable, Bool.and_false, Bool.false_eq_true,
          if_false]
        split
        · rename_i useIc
          refine (k.updateStore_upkeep old ho (by simpa using other) hi (fun hk harr hn => ?_)
            (Prod.ext cacheable rfl)).setProperty
          simpa [useIc, hk, harr, hn] using ordinary
        · exact setProperty_performs k.sound
      · rename_i missed
        -- The error of an undeclared global is raised exactly where the lookup gave nothing to
        -- cache.
        have undeclared : (strict && !(s.engine.heap.lookupForStore id name).2.isFound &&
            s.engine.heap.isGlobalObject (.object id)) =
              (strict && s.engine.heap.isUndeclared id name) := by
          simp only [Heap.isUndeclared, missed, Bool.not_false, Bool.and_true]
          rw [Bool.and_assoc, Bool.and_comm (!_)]
        rw [undeclared]
        split
        · exact onHeap_performs k.sound ob'.leads
        · exact setProperty_performs k.sound

/-! ### Misses of calls -/

theorem onHeap_pure (x : α) : (onHeap (pure x) : Action α) = pure x := rfl

theorem heap_onHeap (f : Heap → Heap.Action α) :
    (heap >>= fun h => onHeap (f h)) = onHeap (get >>= f) := rfl

theorem onHeap_bind (a : Heap.Action α) (f : α → Heap.Action β) :
    (onHeap a >>= fun x => onHeap (f x)) = onHeap (a >>= f) := by
  funext s
  rcases e : a s.engine.heap with ⟨x | x, h⟩
  · have failed : onHeap a s = (.error x, { s with engine := { s.engine with heap := h } }) := by
      simp only [onHeap, e]
    rw [Computation.bind_error failed]
    simp only [onHeap, Computation.bind_error e]
  · have done : onHeap a s = (.ok x, { s with engine := { s.engine with heap := h } }) := by
      simp only [onHeap, e]
    rw [Computation.bind_ok done]
    simp only [onHeap, Computation.bind_ok e]

theorem onHeap_requireCallable (receiver f : Value) (text : Heap → String) : (do
      let h ← heap
      if h.isCallable f then return f
      else onHeap (Heap.raise (.propertyNotFunction (text h) (h.describe receiver)))) =
    onHeap (Heap.requireCallable receiver f text) := by
  simp only [← onHeap_pure, ← apply_ite onHeap, heap_onHeap]
  rfl

theorem onHeap_keyedMethod (receiver key : Value) : (do
      let f ← onHeap (Heap.getKeyed receiver key)
      let h ← heap
      if h.isCallable f then return f
      else onHeap (Heap.raise (.propertyNotFunction (h.toText key) (h.describe receiver)))) =
    onHeap (Heap.keyedMethod receiver key) := by
  simp only [onHeap_requireCallable receiver _ fun h => h.toText key, onHeap_bind]
  rfl

/-- What a miss of a call does once it has looked for an element: one that can be called comes before
a method. -/
def elementOrMethod (old : SiteState) (receiver : Value) (name : Name) (args : List Value)
    (element : Option Value) : Action Value := do
  match element.filter (← heap).isCallable with
  | some f => return f
  | none =>
    let h ← heap
    let found := h.lookup receiver name
    if !found.isFound then onHeap (Heap.raise (h.missingMethod receiver name))
    else
      if (← config).useIc then updateCall old receiver name found args
      onHeap (h.readMethod receiver found name)

/-- A miss of a call refuses undefined and null, and otherwise looks for an element and then for the
method. -/
theorem resolveCall_eq (receiver : Value) (name : Name) (args : List Value) :
    resolveCall receiver name args = (do
      let h ← heap
      if receiver.isNullish then
        onHeap (Heap.raise (.nonObjectCall name.text (h.describe receiver)))
      else
        let old ← stateOfMiss receiver name
        let element ← onHeap (Heap.elementNamed receiver name)
        elementOrMethod old receiver name args element) := by
  unfold resolveCall elementOrMethod Heap.elementNamed Heap.readMethod
  simp only [onHeap_requireCallable receiver _ fun _ => name.text, onHeap_bind, apply_ite onHeap]
  cases name.arrayIndex? <;> rfl

section Calls

variable (ss : s.Sound rules)

include ss

theorem raise_performs (e : Exception) :
    Performs rules s (onHeap (Heap.raise e : Heap.Action α)) (Heap.raise e) :=
  onHeap_performs ss ss.engine.heap.leads

theorem elementOrMethod_performs (old : SiteState) (receiver : Value) (name : Name)
    (args : List Value) (element : Option Value) :
    Performs rules s (elementOrMethod old receiver name args element)
      (Heap.elementOrMethod receiver name element) := by
  have read {t : AtSite} (ts : t.Sound rules) (h : Heap) (found : Lookup) :
      Performs rules t (onHeap (h.readMethod receiver found name))
        (h.readMethod receiver found name) :=
    onHeap_performs ts
      ((Heap.callClosed_leads rules).readMethod ts.engine.heap h receiver found name)
  rw [elementOrMethod, performs_heap, Heap.elementOrMethod, performs_get fun _ => rfl]
  cases element.filter s.engine.heap.isCallable with
  | some f => exact pure_performs ss f
  | none =>
    rw [performs_heap, Heap.method, performs_get fun h => by simp]
    dsimp only
    split
    · exact raise_performs ss _
    · rw [performs_config]
      refine performs_ite ?_ (read ss _ _)
      exact (updateCall_upkeep ss old receiver name args).bind_performs fun _ u k _ => read k.sound _ _

/-- A miss of a named call finds what the general rules call. -/
theorem resolveCall_performs (receiver : Value) (name : Name) (args : List Value) :
    Performs rules s (resolveCall receiver name args) (Heap.namedCallee receiver name) := by
  rw [resolveCall_eq, performs_heap]
  by_cases nullish : receiver.isNullish
  · rw [if_pos nullish, Heap.namedCallee, performs_get fun h => by rw [Heap.describe_bare], if_pos nullish]
    exact raise_performs ss _
  rw [if_neg nullish]
  refine (stateOfMiss_upkeep ss receiver name).bind_performs fun old t k _ => ?_
  rw [Heap.namedCallee, performs_get fun h => by rw [Heap.describe_bare], if_neg nullish]
  have leads := (Heap.callClosed_leads rules).elementNamed k.sound.engine.heap receiver name
  exact (onHeap_performs k.sound leads).bind (Heap.sparesShapes_elementNamed receiver name)
    fun element u r => elementOrMethod_performs r.sound old receiver name args element

/-- A miss of a keyed call finds what the general rules call. -/
theorem resolveKeyedCall_performs (receiver key : Value) (args : List Value) :
    Performs rules s (resolveKeyedCall receiver key args) (Heap.keyedCallee receiver key) := by
  rw [resolveKeyedCall, performs_heap, Heap.keyedCallee,
    performs_get fun h => by simp only [Heap.name?_bare, Heap.describe_bare]; rfl]
  simp only [onHeap_keyedMethod]
  cases (Key.computed key).name? s.engine.heap with
  | some name => exact resolveCall_performs ss receiver name args
  | none =>
    dsimp only
    by_cases nullish : receiver.isNullish
    · rw [if_pos nullish, if_pos nullish]
      exact raise_performs ss _
    rw [if_neg nullish, if_neg nullish]
    have read {t : AtSite} (ts : t.Sound rules) : Performs rules t
        (onHeap (Heap.keyedMethod receiver key)) (Heap.keyedMethod receiver key) :=
      onHeap_performs ts ((Heap.callClosed_leads rules).keyedMethod ts.engine.heap receiver key)
    rw [performs_current, performs_config]
    refine performs_ite ?_ (read ss)
    exact (installTraced_upkeep ss ((StubSpec.compiled_keyedCall ..).sound ss.engine.heap) _
      _).bind_performs fun _ u k _ => read k.sound

end Calls

/-! ### Relations across misses -/

variable {R : Heap → Heap → Prop} {ok : Value → Prop}

/-- What a miss performs decides which relations hold across it. -/
theorem Performs.across {a : Action α} {b : Heap.Action α} (p : Performs rules s a b)
    (c : Heap.AccessClosed rules R ok) (ss : s.Sound rules)
    (r : ∀ g : Heap, g.Obeys rules → R g (b g).2) : Across rules R s a := by
  obtain ⟨g, before, -, after⟩ := p.run
  have found := c.bare ss.engine.heap before.bare before.log
  have performed := r g (c.leads found).obeys
  exact ⟨p.safe.sound, c.trans found
    (c.trans performed (c.bare (c.leads performed).obeys after.bare after.log))⟩

/-- An action to whose heap the relation leads, and that returns a sound stub. -/
def Makes (rules : Rules) (R : Heap → Heap → Prop) (s : AtSite) (a : Action Stub) : Prop :=
  ∃ stub t, a s = (.ok stub, t) ∧ t.Sound rules ∧ R s.engine.heap t.engine.heap ∧
    stub.spec.Sound rules t.engine.heap

@[simp] theorem makes_heap {f : Heap → Action Stub} :
    Makes rules R s (heap >>= f) ↔ Makes rules R s (f s.engine.heap) := Iff.rfl

@[simp] theorem makes_current {f : Site → Action Stub} :
    Makes rules R s (current >>= f) ↔ Makes rules R s (f s.site) := Iff.rfl

/-- A store forces an object into a more general kind only. -/
theorem Heap.le_of_forcedKind? {h : Heap} {id : ObjectId} {o : JsObject}
    (ho : h.object? id = some o) {v : Value} {k : ElementsKind}
    (hk : h.forcedKind? id v = some k) : (h.shapeOf o).elementsKind.le k := by
  simp only [Heap.forcedKind?, Heap.elementsKind?, Heap.asObject?, Value.objectId?] at hk
  simp only [Option.bind_some, ho, Option.map_some, Option.getD_some] at hk
  split at hk
  · cases hk
  · cases hk
    exact ElementsKind.le_storage_union _ _

section Misses

variable (c : Heap.AccessClosed rules R ok) (ss : s.Sound rules)

include c ss

theorem resolveStore_across (receiver : Value) (name : Name) (v : Value) :
    Across rules R s (resolveStore receiver name v) :=
  (resolveStore_performs ss receiver name v).across c ss fun _ ob =>
    c.namedStore ob s.engine.heap receiver name v _

theorem resolveLoad_across (receiver : Value) (name : Name) :
    Across rules R s (resolveLoad receiver name) :=
  (resolveLoad_performs ss receiver name).across c ss fun _ ob =>
    c.namedLoad ob s.engine.heap receiver name

theorem resolveKeyedLoad_across (receiver key : Value) (force : Bool) :
    Across rules R s (resolveKeyedLoad receiver key force) := by
  have load : ∀ {w : AtSite} {key}, w.Sound rules →
      Across rules R w (onHeap (Heap.getKeyed receiver key)) :=
    fun ws => onHeap_across c ws (c.getKeyed ws.engine.heap receiver _)
  simp only [resolveKeyedLoad, across_heap]
  cases Key.simplify s.engine.heap key with
  | named name => exact resolveLoad_across c ss receiver name
  | computed key =>
    simp only [across_current, across_config]
    refine across_ite ?_ (load ss)
    have ob := ss.engine.heap
    rw [across_heap]
    refine (settle_upkeep ss fun spec e =>
      (Heap.keyedLoadSpec_compiled ob ss.target e).sound ob).bind_across c ss
      fun stub t k hs => ?_
    refine (install_upkeep k.sound (hs.mono k.grows)).bind_across c k.sound fun _ u k' _ => ?_
    simp only [across_heap]
    exact (traceMiss_upkeep k'.sound _ _).bind_across c k'.sound fun _ w k'' _ => load k''.sound

theorem Upkeep.makes {a : Action Stub}
    (up : Upkeep rules s a fun stub => stub.spec.Sound rules s.engine.heap) :
    Makes rules R s a := by
  obtain ⟨stub, t, e, k, hs⟩ := up
  exact ⟨stub, t, e, k.sound, k.rel c ss, hs.mono k.grows⟩

/-- A keyed store may make the shape that it leads to; everything else is upkeep. -/
theorem keyedStoreStub_makes (receiver key v : Value) (force : Bool) :
    Makes rules R s (keyedStoreStub receiver key v force) := by
  -- Only the element stub depends on what the site has met, and on the transition that the store
  -- forces; every other way names its stub outright.
  have simple : ∀ {spec : StubSpec}, spec.Compiled s.engine.heap →
      Makes rules R s (request spec) := by
    intro spec hc
    have hs := hc.sound ss.engine.heap
    exact ((request_upkeep ss hs).imp fun stub e => e ▸ hs).makes c ss
  have generic := simple (StubSpec.compiled_generic s.engine.heap s.site.kind s.site.mode)
  have settled : ∀ {w : AtSite} {limit : Nat} {old moved : ShapeId} {forced grow : Bool},
      w.Sound rules → s.engine.heap.Grows w.engine.heap → s.engine.heap.Usable old →
      w.engine.heap.Usable moved → Makes rules R w
        (settle (w.engine.heap.elementStoreSpec s.site limit old moved forced grow)) :=
    fun ws g old moved => (settle_upkeep ws fun spec e =>
      (Heap.elementStoreSpec_compiled (ss.target.mono g) (old.mono g) moved e).sound ws.engine.heap).makes c ws
  simp only [keyedStoreStub, makes_heap, makes_current]
  split
  · exact (settle_upkeep ss (by simp)).makes c ss
  · cases hid : s.engine.heap.holderId? receiver .receiver with
    | none => exact generic
    | some id =>
      dsimp only
      split
      · exact simple (StubSpec.Origin.compiled trivial rfl)
      · split
        · obtain ⟨o, rfl, ho⟩ := Heap.object_of_holderId? hid
          have ob := ss.engine.heap
          have fits := ob.object ho
          have usable : s.engine.heap.Usable o.shape := ⟨fits.shape_lt, fits.widened⟩
          rw [Heap.mapOf?_object ho]
          dsimp only
          cases hk : s.engine.heap.forcedKind? id v with
          | none => exact settled ss (.refl _) usable usable
          | some k =>
            -- The store forces another kind, and the shape with that kind has to be made before
            -- the stub that moves to it.
            have finds := Heap.elementsTransition_settles ob fits.shape_lt fits.widened
              (Heap.le_of_forcedKind? ho hk)
            have reach := onHeap_across c ss
              (a := Heap.run fun h => h.elementsTransition o.shape k)
              (c.elementsTransition ob fits.shape_lt fits.widened (Heap.le_of_forcedKind? ho hk))
            obtain ⟨stub, t, e, ts, r, hs⟩ := settled reach.sound finds.leads.grows usable
              ⟨finds.index_lt, finds.widened⟩
            exact ⟨stub, t, e, ts, c.trans reach.heap r, hs⟩
        · exact generic

theorem resolveKeyedStore_across (receiver key v : Value) (force : Bool) :
    Across rules R s (resolveKeyedStore receiver key v force) := by
  have store : ∀ {w : AtSite} {key}, w.Sound rules →
      Across rules R w (onHeap (Heap.setKeyed receiver key v s.site.mode.strict)) :=
    fun ws => onHeap_across c ws (c.setKeyed ws.engine.heap receiver _ v _)
  simp only [resolveKeyedStore, across_heap]
  cases Key.simplify s.engine.heap key with
  | named name => exact resolveStore_across c ss receiver name v
  | computed key =>
    simp only [across_current, across_config]
    refine across_ite ?_ (store ss)
    obtain ⟨stub, t, e, ts, r, hs⟩ := keyedStoreStub_makes c ss receiver key v force
    refine Across.bind_ok c e r ?_
    refine (install_upkeep ts hs).bind_across c ts fun _ u k _ => ?_
    simp only [across_heap]
    exact (traceMiss_upkeep k.sound _ _).bind_across c k.sound fun _ w k' _ => store k'.sound

theorem resolveCall_across (receiver : Value) (name : Name) (args : List Value) :
    Across rules R s (resolveCall receiver name args) :=
  (resolveCall_performs ss receiver name args).across c ss fun _ ob => c.namedCallee ob receiver name

theorem resolveKeyedCall_across (receiver key : Value) (args : List Value) :
    Across rules R s (resolveKeyedCall receiver key args) :=
  (resolveKeyedCall_performs ss receiver key args).across c ss fun _ ob =>
    c.keyedCallee ob receiver key

/-! ### Operators -/

theorem compare_across (x y : Value) : Across rules R s (compare x y) := by
  simp only [compare, across_current]
  split
  · simp only [across_heap]
    refine across_ite ?_ (across_pure c ss)
    refine (record_upkeep ss _ ?_).bind_across c ss fun _ u k _ => across_pure c k.sound
    exact StubSpec.Origin.compiled trivial rfl
  · exact across_foreign c ss _

theorem unary_across (x : Value) : Across rules R s (unary x) := by
  simp only [unary, across_current]
  split
  · refine Across.bind c (onHeap_across c ss (c.newNumber ss.engine.heap _)) fun result t r => ?_
    simp only [across_heap]
    refine across_ite ?_ (across_pure c r.sound)
    refine (record_upkeep r.sound _ ?_).bind_across c r.sound fun _ u k _ => across_pure c k.sound
    exact StubSpec.Origin.compiled trivial rfl
  · exact across_foreign c ss _

theorem binary_across (x y : Value) : Across rules R s (binary x y) := by
  simp only [binary, across_current]
  split
  · rename_i f _
    have result : R s.engine.heap (f.op.evaluate x y s.engine.heap).2 := by
      simp only [BinaryOperator.evaluate, Computation.get_bind]
      split
      · exact c.newString ss.engine.heap _
      · exact c.newNumber ss.engine.heap _
    refine Across.bind c (onHeap_across c ss result) fun result t r => ?_
    simp only [across_heap]
    refine across_ite ?_ (across_pure c r.sound)
    refine (record_upkeep r.sound _ ?_).bind_across c r.sound fun _ u k _ => across_pure c k.sound
    exact StubSpec.Origin.compiled trivial rfl
  · exact across_foreign c ss _

theorem toBoolean_across (x : Value) : Across rules R s (toBoolean x) := by
  simp only [toBoolean, across_current]
  split
  · simp only [across_heap]
    refine across_ite ?_ (across_pure c ss)
    refine (record_upkeep ss _ ?_).bind_across c ss fun _ u k _ => across_pure c k.sound
    exact StubSpec.Origin.compiled trivial rfl
  · exact across_foreign c ss _

/-! ### Accesses -/

theorem load_across (receiver : Value) (name : Name) :
    Across rules R s (load receiver name) := by
  unfold load
  refine Across.bind c (dispatchLoad_across c ss receiver (.named name)) fun r t reach => ?_
  cases r with
  | hit v => exact across_pure c reach.sound
  | _ => exact resolveLoad_across c reach.sound receiver name

theorem store_across (receiver : Value) (name : Name) {v : Value} (hv : ok v) :
    Across rules R s (store receiver name v) := by
  unfold store
  refine Across.bind c (dispatchStore_across c ss receiver (.named name) hv) fun r t reach => ?_
  cases r with
  | hit v => exact across_pure c reach.sound
  | _ => exact resolveStore_across c reach.sound receiver name v

theorem keyedLoad_across (receiver key : Value) : Across rules R s (keyedLoad receiver key) := by
  unfold keyedLoad
  refine Across.bind c (dispatchLoad_across c ss receiver (.computed key)) fun r t reach => ?_
  cases r with
  | hit v => exact across_pure c reach.sound
  | _ => exact resolveKeyedLoad_across c reach.sound receiver key _

theorem keyedStore_across (receiver key : Value) {v : Value} (hv : ok v) :
    Across rules R s (keyedStore receiver key v) := by
  unfold keyedStore
  refine Across.bind c (dispatchStore_across c ss receiver (.computed key) hv) fun r t reach => ?_
  cases r with
  | hit v => exact across_pure c reach.sound
  | _ => exact resolveKeyedStore_across c reach.sound receiver key v _

theorem call_across (receiver : Value) (name : Name) (args : List Value) :
    Across rules R s (call receiver name args) := by
  have invoke : ∀ {w : AtSite} {f}, w.Sound rules → Across rules R w
      (onHeap (Heap.call f receiver args)) :=
    fun ws => onHeap_across c ws (c.call _ receiver args ws.engine.heap)
  unfold call
  refine Across.bind c (dispatchCall_across c ss receiver (.named name) args) fun r t reach => ?_
  cases r with
  | hit f => exact Across.bind c (across_pure c reach.sound) fun f u r' => invoke r'.sound
  | _ =>
    exact Across.bind c (resolveCall_across c reach.sound receiver name args)
      fun f u r' => invoke r'.sound

theorem keyedCall_across (receiver key : Value) (args : List Value) :
    Across rules R s (keyedCall receiver key args) := by
  have invoke : ∀ {w : AtSite} {f}, w.Sound rules → Across rules R w
      (onHeap (Heap.call f receiver args)) :=
    fun ws => onHeap_across c ws (c.call _ receiver args ws.engine.heap)
  unfold keyedCall
  refine Across.bind c (dispatchCall_across c ss receiver (.computed key) args)
    fun r t reach => ?_
  cases r with
  | hit f => exact Across.bind c (across_pure c reach.sound) fun f u r' => invoke r'.sound
  | _ =>
    exact Across.bind c (resolveKeyedCall_across c reach.sound receiver key args)
      fun f u r' => invoke r'.sound

end Misses

end AtSite

end Speculation
