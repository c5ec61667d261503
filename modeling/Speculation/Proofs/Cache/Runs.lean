import Speculation.Proofs.Cache.Progress
import Speculation.Proofs.Code.Bookkeeping

/-!
# Runs in which every site keeps to its kind

`Session.keepsTo` says of a run that every operation at a site meets a condition when it is performed;
above all that the site is of the kind that the operation is for. An invariant that single operations
keep under that condition holds after the run (`Session.run_invariant`).

For such runs it is known what enters the stub cache, whatever is done and at whatever site
(`Session.perform_admits`), and the configuration is that of the beginning.
-/

namespace Speculation

variable {rules : Rules}

/-! ### What enters the stub cache -/

namespace SiteOperation

/-- The name that an operation is by, at sites that share their stubs. -/
def accessedName? (h : Heap) : SiteOperation → Option Name
  | load _ name | store _ name _ | call _ name _ => some name
  | keyedCall _ key _ => (Key.computed key).name? h
  | _ => none

/-- What an operation adds to the stub cache is for its receiver and its name, or is what the site
held. -/
theorem admits {may : StubKey.Admission} {s : AtSite} (ss : s.Sound rules) {op : SiteOperation}
    (suits : op.suits s.site.kind)
    (fresh : ∀ {key : StubKey} {stub : Stub}, key.Describes stub → may key stub)
    (archives : ∀ name, op.accessedName? s.engine.heap = some name →
      AtSite.Archives may s.site name) :
    s.engine.Admits may (op.perform s).engine := by
  -- Sites for loads and stores by key never enter what they held.
  have byKey (k : s.site.kind = .keyedLoad ∨ s.site.kind = .keyedStore) (name : Name) :
      AtSite.Archives may s.site name := fun u => absurd k (SiteKind.not_byKey u)
  have isCall (k : s.site.kind = .call ∨ s.site.kind = .keyedCall) : s.site.kind.isCall := by
    rcases k with k | k <;> rw [k] <;> rfl
  cases op with
  | load receiver name => exact AtSite.load_admits fresh (archives name rfl)
  | store receiver name v => exact AtSite.store_admits fresh v (archives name rfl)
  | keyedLoad receiver key =>
    exact AtSite.keyedLoad_admits fresh (byKey (.inl (of_decide_eq_true suits)))
  | keyedStore receiver key v =>
    exact AtSite.keyedStore_admits fresh v (byKey (.inr (of_decide_eq_true suits)))
  | call receiver name args =>
    exact AtSite.call_admits fresh ss (isCall (.inl (of_decide_eq_true suits)))
      (archives name rfl) args
  | keyedCall receiver key args =>
    exact AtSite.keyedCall_admits fresh ss (isCall (.inr (of_decide_eq_true suits))) archives args
  | compare x y => exact AtSite.compare_admits x y
  | unary x => exact AtSite.unary_admits x
  | binary x y => exact AtSite.binary_admits x y
  | toBoolean x => exact AtSite.toBoolean_admits x
  | clear => exact AtSite.clear_admits
  | debugBreak on => exact .refl _

end SiteOperation

theorem Engine.invalidateShape_admits {may : StubKey.Admission} (e : Engine) (shape : ShapeId) :
    e.Admits may (e.invalidateShape shape).2 := by
  obtain ⟨trace, same⟩ := e.invalidateShape_eq shape
  obtain ⟨cache, config⟩ := deoptimizeEach_kept
    { e with stubCache := (e.stubCache.evictShape shape).2, trace }
    (e.optimized.filter (e.dependsOn shape))
  rw [same]
  refine ⟨config, fun h => .inl ?_⟩
  rw [cache] at h
  exact StubCache.peek?_evictShape h

namespace Session

variable {s : Session}

/-! ### Conditions on the operations of a run -/

/-- Whether an operation, if it is one at a site, meets a condition there. -/
def meets (p : Heap → Site → SiteOperation → Bool) (s : Session) : Operation → Bool
  | .atSite i op => s.sites[i]?.all fun site => p s.engine.heap site op
  | _ => true

/-- Whether every operation of a run meets a condition when it is performed. -/
def keepsTo (p : Heap → Site → SiteOperation → Bool) (s : Session) : List Operation → Bool
  | [] => true
  | op :: ops => s.meets p op && (s.perform op).keepsTo p ops

/-- The operation is one of the site's own kind. -/
def own (_ : Heap) (site : Site) (op : SiteOperation) : Bool := op.suits site.kind

variable {p q : Heap → Site → SiteOperation → Bool}

/-- A condition on an operation at a site is one on the site that is there. -/
theorem meets_atSite {i : Nat} {op : SiteOperation} {site : Site} (m : s.meets p (.atSite i op))
    (hs : s.sites[i]? = some site) : p s.engine.heap site op := by
  simpa [meets, hs] using m

theorem meets_and {op : Operation} :
    s.meets (fun h site o => p h site o && q h site o) op ↔ s.meets p op ∧ s.meets q op := by
  cases op with
  | atSite i o => cases e : s.sites[i]? <;> simp [meets, e]
  | _ => simp [meets]

/-- A run keeps to two conditions if it keeps to each. -/
theorem keepsTo_and {ops : List Operation} (hp : s.keepsTo p ops) (hq : s.keepsTo q ops) :
    s.keepsTo (fun h site o => p h site o && q h site o) ops := by
  induction ops generalizing s with
  | nil => rfl
  | cons op ops ih =>
    simp only [keepsTo, Bool.and_eq_true] at hp hq ⊢
    exact ⟨meets_and.2 ⟨hp.1, hq.1⟩, ih hp.2 hq.2⟩

/-- What single operations keep holds after a run. -/
theorem run_invariant {inv : Session → Prop} (start : inv s) {ops : List Operation}
    (allowed : s.AllowedRun rules ops) (keeps : s.keepsTo p ops)
    (step : ∀ {s : Session} {op : Operation}, inv s → s.Allowed rules op → s.meets p op →
      inv (s.perform op)) : inv (s.run ops) := by
  induction ops generalizing s with
  | nil => exact start
  | cons op ops ih =>
    simp only [keepsTo, Bool.and_eq_true] at keeps
    exact ih (step start allowed.1 keeps.1) allowed.2 keeps.2

/-! ### Everything that a program does -/

/-- What an operation adds to the stub cache is for a receiver and a name, or is what a site held. -/
theorem perform_admits {may : StubKey.Admission} (ss : s.Sound rules) {op : Operation}
    (suits : s.meets own op)
    (fresh : ∀ {key : StubKey} {stub : Stub}, key.Describes stub → may key stub)
    (archives : ∀ {i : Nat} {o : SiteOperation} {site : Site} {name : Name}, op = .atSite i o →
      s.sites[i]? = some site → o.accessedName? s.engine.heap = some name →
        AtSite.Archives may site name) :
    s.engine.Admits may (s.perform op).engine := by
  cases op with
  | onHeap op | access op => exact .of_eq rfl rfl
  | newSite | newCompareSite | newUnarySite | newBinarySite | newToBooleanSite =>
    exact .of_eq rfl rfl
  | atSite i op =>
    simp only [perform]
    cases e : s.sites[i]? with
    | none => exact .refl _
    | some site =>
      exact op.admits (ss.atSite (List.mem_of_getElem? e)) (meets_atSite suits e) fresh
        fun name => archives rfl e
  | invalidateShape shape => exact s.engine.invalidateShape_admits shape

/-- The configuration stays as it is. -/
theorem perform_config (ss : s.Sound rules) {op : Operation} (suits : s.meets own op) :
    (s.perform op).engine.config = s.engine.config := by
  have admits : s.engine.Admits (fun _ _ => True) (s.perform op).engine :=
    perform_admits ss suits (fun _ => trivial) fun _ _ _ => fun _ _ _ _ => trivial
  exact admits.config

end Session

end Speculation
