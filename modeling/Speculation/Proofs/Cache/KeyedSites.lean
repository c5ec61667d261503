import Speculation.Proofs.Cache.Progress

/-!
# Sites for loads and stores by key over time

Such a site goes from the first state to the generic one and does not go back, and while it is
polymorphic it only gains shapes (`keyed_sites_advance`). There is one exception: the arguments object
of a non-strict function makes a polymorphic site monomorphic and loses all its shapes
(`keyed_site_goes_back`).
-/

namespace Speculation

/-! ### The order of states -/

namespace SiteState

/-- Both states are on the way of a site for loads or stores by key, and the second one is not before
the first. -/
def ClimbsByKey (a b : SiteState) : Prop :=
  a ∈ keyedWay ∧ b ∈ keyedWay ∧ keyedWay.idxOf a ≤ keyedWay.idxOf b

instance (a b : SiteState) : Decidable (a.ClimbsByKey b) :=
  inferInstanceAs (Decidable (_ ∧ _ ∧ _))

theorem ClimbsByKey.refl {a : SiteState} (way : a ∈ keyedWay) : a.ClimbsByKey a :=
  ⟨way, way, Nat.le_refl _⟩

theorem ClimbsByKey.trans {a b c : SiteState} (h : a.ClimbsByKey b) (h' : b.ClimbsByKey c) :
    a.ClimbsByKey c := ⟨h.1, h'.2.1, Nat.le_trans h.2.2 h'.2.2⟩

/-- Nothing is above the generic state. -/
theorem ClimbsByKey.eq_generic {b : SiteState} (h : generic.ClimbsByKey b) : b = .generic := by
  revert h
  cases b <;> decide

/-- A miss of a keyed site moves it up. -/
theorem AdvancesByKey.climbs {a b : SiteState} (h : AdvancesByKey a b) (way : a ∈ keyedWay) :
    a.ClimbsByKey b := by
  cases h with
  | delay => decide
  | specialize early =>
    revert early
    cases a <;> decide
  | settle =>
    revert way
    cases a <;> decide

end SiteState

/-! ### One operation -/

/-- The operation does not clear the site and, if the site is polymorphic, does not meet the arguments
object of a non-strict function under a key that is no name. -/
def SiteOperation.keepsShapes (i : Nat) (s : Session) : SiteOperation → Bool
  | keyedLoad receiver key | keyedStore receiver key _ =>
    !((s.sites[i]?.any fun site => site.targetState = .polymorphic) &&
      s.engine.heap.meetsArguments receiver key)
  | op => !op.isClear

/-- What keeps the shapes of a site does not clear it. -/
theorem SiteOperation.uncleared_of_keepsShapes {i : Nat} {s : Session} {op : SiteOperation}
    (keeps : op.keepsShapes i s) : ¬ op.isClear := by
  cases op <;> first | exact Bool.false_ne_true | cases keeps

namespace AtSite

variable {site : Site} {spec : StubSpec} {c : Config} {arguments : Prop}

/-- Unless it is polymorphic, a site takes an ordinary step when it meets an arguments object. -/
theorem Live.ordinary (live : Live site) (m : KeyedMoves c arguments site spec)
    (never : arguments → site.targetState ≠ .polymorphic) : KeyedMoves c False site spec := by
  cases m with
  | step moves => exact .step moves
  | arguments met state shapes =>
    exact live.moves_monomorphic (live.early_or_polymorphic.resolve_right (never met)) state
      (by simp [shapes])
  | several before takes => exact .several before takes

/-- A site in use climbs with each stub that it takes. -/
theorem Live.climbs (live : Live site) (m : KeyedMoves c False site spec) :
    site.targetState.ClimbsByKey spec.state := by
  cases m with
  | step moves => exact (moves.byKey live.byKey).climbs (live.proper.byKey live.byKey).way
  | arguments never => exact never.elim
  | several before takes =>
    rw [takes.state]
    rcases before with e | e <;> rw [e] <;> decide

/-- A polymorphic site gains shapes or gives up. -/
theorem Live.gains (live : Live site) (m : KeyedMoves c False site spec)
    (poly : site.targetState = .polymorphic) :
    spec.state = .generic ∨ spec.state = .polymorphic ∧
      site.target.spec.receiverShapes <+: spec.receiverShapes := by
  cases m with
  | step moves =>
    have advances := moves.byKey live.byKey
    rw [poly] at advances
    generalize spec.state = state at advances
    cases advances with
    | specialize early => simp at early
    | settle => exact .inl rfl
  | arguments never => exact never.elim
  | several before takes => exact .inr ⟨takes.state, takes.known poly⟩

end AtSite

namespace Site

open AtSite

variable {a b c site : Site} {s : Session} {i : Nat} {op : SiteOperation}

/-- A site for loads or stores by key takes an ordinary step. -/
theorem goes_of_keyed (hs : s.sites[i]? = some site) (proper : Proper site)
    (hk : site.kind = .keyedLoad ∨ site.kind = .keyedStore) (suits : op.suits site.kind)
    (keeps : op.keepsShapes i s) :
    Goes (fun spec => Live site ∧ KeyedMoves s.engine.config False site spec) site
      (op.perform ⟨site, s.engine⟩).site := by
  have ordinary {receiver key : Value} {spec : StubSpec}
      (keeps : !((s.sites[i]?.any fun site => site.targetState = .polymorphic) &&
        s.engine.heap.meetsArguments receiver key))
      (m : KeyedInstalls ⟨site, s.engine⟩ receiver key spec) :
      Live site ∧ KeyedMoves s.engine.config False site spec := by
    refine ⟨m.1, m.1.ordinary m.2 fun met poly => ?_⟩
    have met : s.engine.heap.meetsArguments receiver key = true := met
    simp [hs, poly, met] at keeps
  cases op with
  | keyedLoad receiver key =>
    have hk : site.kind = .keyedLoad := of_decide_eq_true suits
    exact ((keyedLoad_installs (s := ⟨site, s.engine⟩) proper hk receiver key).imp
      fun _ => ordinary keeps).goes
  | keyedStore receiver key v =>
    have hk : site.kind = .keyedStore := of_decide_eq_true suits
    exact ((keyedStore_installs (s := ⟨site, s.engine⟩) proper hk receiver key v).imp
      fun _ => ordinary keeps).goes
  | clear => cases keeps
  | debugBreak on => exact .stays rfl rfl rfl
  | _ => rcases hk with hk | hk <;> simp [SiteOperation.suits, hk] at suits

/-- A site for loads or stores by key has not gone back, nor has it lost shapes. -/
structure KeyedOnwards (site site' : Site) : Prop where
  kind : site'.kind = site.kind
  climbs : site.kind = .keyedLoad ∨ site.kind = .keyedStore →
    site.targetState.ClimbsByKey site'.targetState
  gains : site.kind = .keyedLoad ∨ site.kind = .keyedStore → site.targetState = .polymorphic →
    site'.targetState = .generic ∨ site'.targetState = .polymorphic ∧
      site.target.spec.receiverShapes <+: site'.target.spec.receiverShapes

theorem KeyedOnwards.refl (proper : Proper a) : KeyedOnwards a a where
  kind := rfl
  climbs hk := .refl (proper.byKey hk).way
  gains _ poly := .inr ⟨poly, List.prefix_refl _⟩

theorem KeyedOnwards.trans (h : KeyedOnwards a b) (h' : KeyedOnwards b c) : KeyedOnwards a c where
  kind := h'.kind.trans h.kind
  climbs hk := (h.climbs hk).trans (h'.climbs (h.kind ▸ hk))
  gains hk poly := by
    have hk' : b.kind = .keyedLoad ∨ b.kind = .keyedStore := h.kind ▸ hk
    rcases h.gains hk poly with generic | ⟨poly', gained⟩
    · have climbs := h'.climbs hk'
      rw [generic] at climbs
      exact .inl climbs.eq_generic
    · exact (h'.gains hk' poly').imp_right fun ⟨poly'', gained'⟩ => ⟨poly'', gained.trans gained'⟩

/-- An access keeps a keyed site going on. -/
theorem KeyedOnwards.perform (hs : s.sites[i]? = some site) (proper : Proper site)
    (suits : op.suits site.kind) (keeps : op.keepsShapes i s) :
    KeyedOnwards site (op.perform ⟨site, s.engine⟩).site := by
  have any := SiteOperation.goes (s := ⟨site, s.engine⟩) proper suits
    (SiteOperation.uncleared_of_keepsShapes keeps)
  refine ⟨any.kind, fun hk => ?_, fun hk poly => ?_⟩
  · cases goes_of_keyed hs proper hk suits keeps with
    | stays _ target _ =>
      rw [targetState, targetState, target]
      exact .refl (proper.byKey hk).way
    | takes _ target _ => exact target.1.climbs target.2
  · cases goes_of_keyed hs proper hk suits keeps with
    | stays _ target _ =>
      rw [targetState, target]
      exact .inr ⟨poly, List.prefix_refl _⟩
    | takes _ target _ => exact target.1.gains target.2 poly

end Site

open Session in
/-- **Sites for loads and stores by key do not go back, unless a polymorphic one meets the arguments
object of a non-strict function.** Let such a site be used with its own operation, whatever else
happens, and after some point be neither cleared nor, while it is polymorphic, used for such an
arguments object with a key that is no name. Then, from that point on, its state never goes back, and
a polymorphic site only gains shapes or becomes generic. -/
theorem keyed_sites_advance (config : Config) (i : Nat) (before after : List Event) {site : Site}
    (own : (ofConfig config).throughout (Event.suits i) (before ++ after))
    (hs : ((ofConfig config).after before).sites[i]? = some site)
    (hk : site.kind = .keyedLoad ∨ site.kind = .keyedStore)
    (keeps : ((ofConfig config).after before).throughout
      (Event.atSite i fun s op => op.keepsShapes i s) after) :
    ∃ site', ((ofConfig config).after (before ++ after)).sites[i]? = some site' ∧
      site.targetState.ClimbsByKey site'.targetState ∧
      (site.targetState = .polymorphic → site'.targetState = .generic ∨
        site'.targetState = .polymorphic ∧
          site.target.spec.receiverShapes <+: site'.target.spec.receiverShapes) := by
  rw [throughout_append] at own
  have proper := (properAt_ofConfig config i).after own.1
  obtain ⟨site', hs', on⟩ := after_rel_at (R := Site.KeyedOnwards) (fun _ => .refl)
    (fun h h' => h.trans h') (fun hs proper suits keeps => .perform hs proper suits keeps) proper hs
    own.2 keeps
  exact ⟨site', by rwa [after_append], on.climbs hk, on.gains hk⟩

/-- A site that knows the shapes of two objects meets a third one, while the configuration changes,
becomes generic and only then meets an arguments object. -/
theorem keyed_sites_advance_polymorphic :
    let load (id : ObjectId) (key : Value) : Event :=
      .operation (.atSite 0 (.keyedLoad (.object id) key))
    let before := [
      .operation (.onHeap (.array [.smi 1, .smi 2])), .operation (.onHeap .object),
      .operation (.onHeap (.setElement (.object ⟨11⟩) 0 (.smi 7))),
      .operation (.onHeap (.arguments .undefined [.smi 1] false)),
      .operation (.onHeap (.array [.null])), .operation (.newSite .keyedLoad {}),
      load ⟨11⟩ (.smi 0), load ⟨10⟩ (.smi 0)]
    let first := [
      .engine (fun e => { e with config := { e.config with traceIc := true } }),
      load ⟨13⟩ (.smi 0)]
    let rest := [load ⟨10⟩ .null, load ⟨12⟩ (.smi 0)]
    ∃ site later last,
      ((Session.ofConfig {}).after before).sites[0]? = some site ∧
      ((Session.ofConfig {}).after (before ++ first)).sites[0]? = some later ∧
      ((Session.ofConfig {}).after ((before ++ first) ++ rest)).sites[0]? = some last ∧
      site.targetState = .polymorphic ∧ later.targetState = .polymorphic ∧
      site.target.spec.receiverShapes <+: later.target.spec.receiverShapes ∧
      last.targetState = .generic := by
  intro load before first rest
  -- Two shapes, then a third, then a key that no element stub takes.
  have two : ∃ site, ((Session.ofConfig {}).after before).sites[0]? = some site ∧
      site.kind = .keyedLoad ∧ site.targetState = .polymorphic := by decide +kernel
  have three : ∃ site, ((Session.ofConfig {}).after (before ++ first)).sites[0]? = some site ∧
      site.kind = .keyedLoad ∧ site.targetState = .polymorphic := by decide +kernel
  have full : ∃ site, ((Session.ofConfig {}).after ((before ++ first) ++ rest)).sites[0]? =
      some site ∧ site.targetState ≠ .polymorphic := by decide +kernel
  obtain ⟨site, hs, kind, poly⟩ := two
  obtain ⟨later, hl, kind', poly'⟩ := three
  obtain ⟨last, hlast, ne⟩ := full
  obtain ⟨site', hs', -, gains⟩ :=
    keyed_sites_advance {} 0 before first (by decide +kernel) hs (.inl kind) (by decide +kernel)
  obtain rfl := Option.some.inj (hl.symm.trans hs')
  obtain ⟨site'', hs'', -, gives⟩ := keyed_sites_advance {} 0 (before ++ first) rest
    (by decide +kernel) hl (.inl kind') (by decide +kernel)
  obtain rfl := Option.some.inj (hlast.symm.trans hs'')
  have gained := (gains poly).resolve_left (by rw [poly']; decide)
  have gaveUp := (gives poly').resolve_right fun h => ne h.1
  exact ⟨site, later, last, hs, hl, hlast, poly, poly', gained.2, gaveUp⟩

/-- An arguments object makes a polymorphic site monomorphic. -/
theorem keyed_site_goes_back :
    let load (id : ObjectId) : Event := .operation (.atSite 0 (.keyedLoad (.object id) (.smi 0)))
    let before := [
      .operation (.onHeap (.array [.smi 1, .smi 2])), .operation (.onHeap .object),
      .operation (.onHeap (.setElement (.object ⟨11⟩) 0 (.smi 7))),
      .operation (.onHeap (.arguments .undefined [.smi 1] false)),
      .operation (.newSite .keyedLoad {}), load ⟨11⟩, load ⟨10⟩]
    let after := [load ⟨12⟩]
    let start := Session.ofConfig {}
    start.throughout (Event.suits 0) (before ++ after) ∧
      start.throughout (Event.leavesUncleared 0) (before ++ after) ∧
      (start.after before).sites.map (fun site =>
        (site.kind, site.targetState, site.target.spec.receiverShapes.length)) =
        [(.keyedLoad, .polymorphic, 2)] ∧
      (start.after (before ++ after)).sites.map (fun site =>
        (site.targetState, site.target.spec.receiverShapes.length)) = [(.monomorphic, 0)] ∧
      ¬ SiteState.polymorphic.ClimbsByKey .monomorphic := by
  intro load before after start
  exact ⟨by decide +kernel, by decide +kernel, by decide +kernel, by decide +kernel,
    by decide +kernel⟩

end Speculation
