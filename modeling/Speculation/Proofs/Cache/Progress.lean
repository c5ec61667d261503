import Speculation.Proofs.Cache.KeyedSteps

/-!
# Sites do not go back

What becomes of a site while a program runs. The site is used with the operation of its own kind;
what else happens is left open: operations at other sites, operations of the heap, and any other
change of the engine (`Event.engine`), from a bailout to a heap that someone has tampered with.

* Sites of loads and of both kinds of calls never go back on the way from the first state to the
  megamorphic one, and a megamorphic site keeps its stub (`sites_never_go_back`).
* Once a site of any kind is generic it keeps its stub (the same theorem).
* Sites of stores do go back: a store to the length of a fast array makes the site monomorphic,
  wherever it was (`store_site_goes_back`). Without such stores they do not, and without stores to
  the global proxy the first stub that is installed is the one that delays
  (`store_sites_advance`).

Every step of a site is one of `AtSite.Installs`; the run lemma `Session.after_rel` carries any
relation between sites that single operations keep through all that happens.
-/

namespace Speculation

/-! ### Operations of a site's own kind -/

/-- Whether sites of a kind are for an operation. Any site may be cleared, and the debugger may
break on any site. -/
def SiteOperation.suits (kind : SiteKind) : SiteOperation → Bool
  | load _ _ => kind = .load
  | store _ _ _ => kind = .store
  | keyedLoad _ _ => kind = .keyedLoad
  | keyedStore _ _ _ => kind = .keyedStore
  | call _ _ _ => kind = .call
  | keyedCall _ _ _ => kind = .keyedCall
  | compare _ _ => kind = .compare
  | unary _ => kind = .unaryOp
  | binary _ _ => kind = .binaryOp
  | toBoolean _ => kind = .toBoolean
  | clear | debugBreak _ => true

def SiteOperation.isClear : SiteOperation → Bool
  | clear => true
  | _ => false

/-- What happens in a program with sites. -/
inductive Event where
  | operation (op : Operation)
  /-- Anything else that the engine does. It has no access to sites. -/
  | engine (change : Engine → Engine)

/-- Whether what happens at the `i`th site meets a condition. -/
def Event.atSite (i : Nat) (p : Session → SiteOperation → Bool) (s : Session) : Event → Bool
  | .operation (.atSite j op) => j != i || p s op
  | _ => true

/-- The `i`th site, if it is used, is used with the operation of its own kind. -/
def Event.suits (i : Nat) : Session → Event → Bool :=
  Event.atSite i fun s op => s.sites[i]?.all fun site => op.suits site.kind

/-- The `i`th site is not cleared. -/
def Event.leavesUncleared (i : Nat) : Session → Event → Bool := Event.atSite i fun _ op => !op.isClear

namespace Session

variable {s : Session} {i : Nat} {site : Site}

/-- The session after something has happened. -/
def happen (s : Session) : Event → Session
  | .operation op => s.perform op
  | .engine change => { s with engine := change s.engine }

/-- The session after several things have happened, one after the other. -/
def after (s : Session) : List Event → Session
  | [] => s
  | e :: events => (s.happen e).after events

/-- Whether every event meets a condition when it happens. -/
def throughout (p : Session → Event → Bool) (s : Session) : List Event → Bool
  | [] => true
  | e :: events => p s e && (s.happen e).throughout p events

/-- What happens after one list of events and then another happens after both. -/
theorem after_append (s : Session) (before after : List Event) :
    s.after (before ++ after) = (s.after before).after after := by
  induction before generalizing s with
  | nil => rfl
  | cons e before ih => exact ih (s.happen e)

/-- What holds throughout two lists of events holds throughout both. -/
theorem throughout_append {p : Session → Event → Bool} {before after : List Event} :
    s.throughout p (before ++ after) ↔
      s.throughout p before ∧ (s.after before).throughout p after := by
  induction before generalizing s with
  | nil => simp [throughout, Session.after]
  | cons e before ih => simp [throughout, Session.after, ih, and_assoc]

/-! ### One site among the others -/

/-- A site changes only by an operation at it. -/
theorem happen_site (hs : s.sites[i]? = some site) (e : Event) :
    (s.happen e).sites[i]? = some site ∨
      ∃ op, e = .operation (.atSite i op) ∧
        (s.happen e).sites[i]? = some (op.perform ⟨site, s.engine⟩).site := by
  have hi : i < s.sites.length := (List.getElem?_eq_some_iff.1 hs).1
  have added (r : Site × Engine) : (s.addSite r).sites[i]? = some site := by
    rw [addSite, List.getElem?_append_left hi, hs]
  cases e with
  | engine change => exact .inl hs
  | operation op =>
    cases op with
    | onHeap op | access op => exact .inl hs
    | newSite kind mode => exact .inl (added _)
    | newCompareSite op => exact .inl (added _)
    | newUnarySite op => exact .inl (added _)
    | newBinarySite op => exact .inl (added _)
    | newToBooleanSite => exact .inl (added _)
    | invalidateShape shape => exact .inl hs
    | atSite j op =>
      simp only [happen, perform]
      cases hj : s.sites[j]? with
      | none => exact .inl hs
      | some other =>
        by_cases hji : j = i
        · subst hji
          obtain rfl := Option.some.inj (hs.symm.trans hj)
          exact .inr ⟨op, rfl, List.getElem?_set_self hi⟩
        · exact .inl (by rw [List.getElem?_set_ne hji, hs])

/-- A new site has a stub that its kind may hold, for no shape. -/
theorem happen_new (hs : s.sites[i]? = none) {e : Event} (hn : (s.happen e).sites[i]? = some site) :
    AtSite.Proper site ∧ site.target.spec.receiverShapes = [] := by
  have added {spec : StubSpec} (hp : spec.kind.Holds spec ∧ spec.receiverShapes = [])
      (hn : (s.addSite (.ofStub (s.engine.requestStub spec).1,
        (s.engine.requestStub spec).2)).sites[i]? = some site) :
      AtSite.Proper site ∧ site.target.spec.receiverShapes = [] := by
    have hi : s.sites.length ≤ i := List.getElem?_eq_none_iff.1 hs
    rw [addSite, List.getElem?_append_right hi] at hn
    obtain rfl := List.mem_singleton.1 (List.mem_of_getElem? hn)
    have e : (s.engine.requestStub spec).1.spec = spec := StubTable.spec_request _ spec
    rw [← e] at hp
    exact hp
  -- Only the five operations that make a site add one; every other event keeps the number of
  -- sites.
  cases e with
  | engine change =>
    rw [show (s.happen (.engine change)).sites = s.sites from rfl, hs] at hn
    cases hn
  | operation op =>
    cases op with
    | newSite kind mode => exact added ⟨SiteKind.holds_fresh _ _, rfl⟩ hn
    | newCompareSite op => exact added ⟨SiteKind.holds_compare _, rfl⟩ hn
    | newUnarySite op => exact added ⟨SiteKind.holds_unary _, rfl⟩ hn
    | newBinarySite op => exact added ⟨SiteKind.holds_binary _, rfl⟩ hn
    | newToBooleanSite => exact added ⟨SiteKind.holds_toBoolean _, rfl⟩ hn
    | onHeap op =>
      rw [show (s.happen (.operation (.onHeap op))).sites = s.sites from rfl, hs] at hn
      cases hn
    | access op =>
      rw [show (s.happen (.operation (.access op))).sites = s.sites from rfl, hs] at hn
      cases hn
    | invalidateShape shape =>
      rw [show (s.happen (.operation (.invalidateShape shape))).sites = s.sites from rfl, hs] at hn
      cases hn
    | atSite j op =>
      simp only [happen, perform] at hn
      cases hj : s.sites[j]? with
      | none =>
        simp only [hj] at hn
        rw [hs] at hn
        cases hn
      | some other =>
        simp only [hj] at hn
        have hlen := (List.getElem?_eq_some_iff.1 hn).1
        rw [List.length_set] at hlen
        exact absurd (List.getElem?_eq_none_iff.1 hs) (by omega)

end Session

/-! ### One operation -/

namespace Site

/-- What has become of a site: it has kept its stub, or it was given one of a certain sort. -/
inductive Goes (sort : StubSpec → Prop) (site site' : Site) : Prop where
  | stays (kind : site'.kind = site.kind) (target : site'.target = site.target)
      (patches : site'.patches = site.patches)
  | takes (kind : site'.kind = site.kind) (target : sort site'.target.spec)
      (patches : site'.patches = site.patches + 1)

variable {site site' : Site} {sort : StubSpec → Prop}

/-- A step keeps the kind of a site. -/
theorem Goes.kind (g : Goes sort site site') : site'.kind = site.kind := by
  cases g <;> assumption

/-- A step to a stub that the kind may hold keeps a site proper. -/
theorem Goes.proper (g : Goes sort site site') (proper : AtSite.Proper site)
    (holds : ∀ spec, sort spec → site.kind.Holds spec) : AtSite.Proper site' := by
  cases g with
  | stays kind target patches => rwa [AtSite.Proper, kind, target]
  | takes kind target patches =>
    rw [AtSite.Proper, kind]
    exact holds _ target

/-- What the operation of its own kind may install at a site. -/
structure MayTake (site : Site) (spec : StubSpec) : Prop where
  holds : site.kind.Holds spec
  unsettled : site.targetState ≠ .generic
  climbs : site.kind ∈ [.load, .call, .keyedCall] →
    site.targetState ≠ .megamorphic ∧ site.targetState.Climbs spec.state

/-- Sites on the way are not generic. -/
theorem ne_generic_of_proper (proper : AtSite.Proper site) (u : site.kind.usesStubCache) :
    site.targetState ≠ .generic := by
  intro e
  have hr : site.targetState.rung?.isSome := proper.rung u
  rw [e] at hr
  cases hr

theorem mayTake_of_moves (proper : AtSite.Proper site) (u : site.kind.usesStubCache)
    {spec : StubSpec} (m : AtSite.Moves site spec) : MayTake site spec where
  holds := SiteKind.holds_of_rung u (m.advances u).climbs.isSome
  unsettled := ne_generic_of_proper proper u
  climbs _ := ⟨(m.advances u).ne_megamorphic, (m.advances u).climbs⟩

/-- A move of a call is one that a site may take. -/
theorem mayTake_of_callMoves (proper : AtSite.Proper site) (u : site.kind.usesStubCache)
    {spec : StubSpec} (m : AtSite.CallMoves site spec) : MayTake site spec := by
  cases m with
  | step moves => exact mayTake_of_moves proper u moves
  | spread before after =>
    refine ⟨SiteKind.holds_of_rung u (by rw [after]; rfl), ne_generic_of_proper proper u, fun _ => ?_⟩
    rw [after]
    exact ⟨before, SiteState.climbs_megamorphic (proper.rung u)⟩

/-- A move of a store is one that a site may take. -/
theorem mayTake_of_storeMoves (proper : AtSite.Proper site) (hk : site.kind = .store) {h : Heap}
    {receiver : Value} {name : Name} {spec : StubSpec}
    (m : AtSite.StoreMoves h receiver name site spec) : MayTake site spec := by
  have u : site.kind.usesStubCache := by
    rw [hk]
    rfl
  refine ⟨?_, ne_generic_of_proper proper u, fun hc => by simp [hk] at hc⟩
  cases m with
  | step moves => exact (mayTake_of_moves proper u moves).holds
  | length _ _ state => exact SiteKind.holds_of_rung u (by rw [state]; rfl)
  | proxy _ _ state => exact SiteKind.holds_of_rung u (by rw [state]; rfl)

/-- A move of a keyed access is one that a site may take. -/
theorem mayTake_of_keyedMoves {c : Config} {arguments : Prop} {spec : StubSpec}
    (live : AtSite.Live site) (m : AtSite.KeyedMoves c arguments site spec) : MayTake site spec := by
  refine ⟨live.holds m, live.ne_generic, fun hc => ?_⟩
  rcases live.byKey with hk | hk <;> simp [hk] at hc

/-- Recording operands is a move that a site may take. -/
theorem mayTake_of_records (proper : AtSite.Proper site) (hk : ¬ site.kind.isPropertyAccess)
    {spec : StubSpec} (m : AtSite.Records site spec) : MayTake site spec := by
  refine ⟨m.2, fun e => m.1 (proper.generic e), fun hc => absurd ?_ hk⟩
  revert hc
  cases site.kind <;> simp [SiteKind.isPropertyAccess]

end Site

/-- An action that installs a sort of stubs is a step to this sort. -/
theorem AtSite.Installs.goes {α : Type} {s : AtSite} {a : AtSite.Action α}
    {sort : StubSpec → Prop} (ha : AtSite.Installs s a sort) :
    Site.Goes sort s.site (a s).2.site := by
  rcases ha with h | ⟨stub, hs, h⟩
  · exact .stays (by rw [h]) (by rw [h]) (by rw [h])
  · rw [h]
    exact .takes rfl hs rfl

namespace SiteOperation

open AtSite

/-- What an operation makes of a site of its own kind, unless it clears it. -/
theorem goes {s : AtSite} (proper : Proper s.site) {op : SiteOperation}
    (suits : op.suits s.site.kind) (uncleared : ¬ op.isClear) :
    Site.Goes (Site.MayTake s.site) s.site (op.perform s).site := by
  have named {spec : StubSpec} (u : s.site.kind.usesStubCache) (m : Moves s.site spec) :
      Site.MayTake s.site spec := Site.mayTake_of_moves proper u m
  -- The operation decides the kind of site: six kinds move by the lattice of their states, and the
  -- four operators by what they record.
  cases op with
  | load receiver name =>
    have hk : s.site.kind = .load := of_decide_eq_true suits
    exact ((load_installs proper hk receiver name).imp fun _ => named (by rw [hk]; rfl)).goes
  | store receiver name v =>
    have hk : s.site.kind = .store := of_decide_eq_true suits
    exact ((store_installs proper hk receiver name v).imp fun _ =>
      Site.mayTake_of_storeMoves proper hk).goes
  | keyedLoad receiver key =>
    have hk : s.site.kind = .keyedLoad := of_decide_eq_true suits
    exact ((keyedLoad_installs proper hk receiver key).imp fun _ m =>
      Site.mayTake_of_keyedMoves m.1 m.2).goes
  | keyedStore receiver key v =>
    have hk : s.site.kind = .keyedStore := of_decide_eq_true suits
    exact ((keyedStore_installs proper hk receiver key v).imp fun _ m =>
      Site.mayTake_of_keyedMoves m.1 m.2).goes
  | call receiver name args =>
    have hk : s.site.kind = .call := of_decide_eq_true suits
    have u : s.site.kind.usesStubCache := by
      rw [hk]
      rfl
    exact ((call_installs proper u receiver name args).imp fun _ => named u).goes
  | keyedCall receiver key args =>
    have hk : s.site.kind = .keyedCall := of_decide_eq_true suits
    exact ((keyedCall_installs proper hk receiver key args).imp fun _ =>
      Site.mayTake_of_callMoves proper (by rw [hk]; rfl)).goes
  | compare x y =>
    have hk : s.site.kind = .compare := of_decide_eq_true suits
    exact ((compare_installs hk x y).imp fun _ =>
      Site.mayTake_of_records proper (by rw [hk]; decide)).goes
  | unary x =>
    have hk : s.site.kind = .unaryOp := of_decide_eq_true suits
    exact ((unary_installs hk x).imp fun _ =>
      Site.mayTake_of_records proper (by rw [hk]; decide)).goes
  | binary x y =>
    have hk : s.site.kind = .binaryOp := of_decide_eq_true suits
    exact ((binary_installs hk x y).imp fun _ =>
      Site.mayTake_of_records proper (by rw [hk]; decide)).goes
  | toBoolean x =>
    have hk : s.site.kind = .toBoolean := of_decide_eq_true suits
    exact ((toBoolean_installs hk x).imp fun _ =>
      Site.mayTake_of_records proper (by rw [hk]; decide)).goes
  | clear => exact absurd rfl uncleared
  | debugBreak on => exact .stays rfl rfl rfl

/-- An operation of its own keeps a site proper. -/
theorem proper {s : AtSite} (hp : Proper s.site) {op : SiteOperation}
    (suits : op.suits s.site.kind) : Proper (op.perform s).site := by
  by_cases hc : op.isClear
  · obtain rfl : op = .clear := by cases op <;> first | rfl | cases hc
    exact (clear_installs s).goes.proper hp fun _ h => h.1
  · exact (goes hp suits hc).proper hp fun _ f => f.holds

end SiteOperation

/-! ### All that happens -/

namespace Session

open AtSite

variable {s : Session} {i : Nat} {site : Site}

/-- The `i`th site, if there is one yet, has a stub that its kind may hold. -/
def ProperAt (i : Nat) (s : Session) : Prop := ∀ site, s.sites[i]? = some site → Proper site

theorem suits_of_event (hs : s.sites[i]? = some site) {op : SiteOperation}
    (own : Event.suits i s (.operation (.atSite i op))) : op.suits site.kind := by
  simpa [Event.suits, Event.atSite, hs] using own

/-- An event keeps a site proper. -/
theorem ProperAt.happen (proper : s.ProperAt i) {e : Event} (own : Event.suits i s e) :
    (s.happen e).ProperAt i := by
  intro site' hs'
  cases hs : s.sites[i]? with
  | none => exact (happen_new hs hs').1
  | some site =>
    rcases happen_site hs e with h | ⟨op, rfl, h⟩
    · obtain rfl := Option.some.inj (h.symm.trans hs')
      exact proper site hs
    · obtain rfl := Option.some.inj (h.symm.trans hs')
      exact SiteOperation.proper (proper site hs) (suits_of_event hs own)

/-- Events keep a site proper. -/
theorem ProperAt.after (proper : s.ProperAt i) {events : List Event}
    (own : s.throughout (Event.suits i) events) : (s.after events).ProperAt i := by
  induction events generalizing s with
  | nil => exact proper
  | cons e events ih =>
    rw [throughout, Bool.and_eq_true] at own
    exact ih (proper.happen own.1) own.2

theorem properAt_ofConfig (config : Config) (i : Nat) : (ofConfig config).ProperAt i := by
  intro site hs
  simp [ofConfig] at hs

/-- A relation between sites that every operation keeps holds between a site and what becomes of
it. The operations may be asked to meet a condition when they are performed. -/
theorem after_rel_at {R : Site → Site → Prop} {p : Session → SiteOperation → Bool}
    (refl : ∀ site, Proper site → R site site)
    (trans : ∀ {a b c}, R a b → R b c → R a c)
    (step : ∀ {s : Session} {site : Site} {op : SiteOperation}, s.sites[i]? = some site →
      Proper site → op.suits site.kind → p s op → R site (op.perform ⟨site, s.engine⟩).site)
    {events : List Event} (proper : s.ProperAt i) (hs : s.sites[i]? = some site)
    (own : s.throughout (Event.suits i) events)
    (hp : s.throughout (Event.atSite i p) events) :
    ∃ site', (s.after events).sites[i]? = some site' ∧ R site site' := by
  -- By induction over the events; between two of them only an operation at the site matters.
  induction events generalizing s site with
  | nil => exact ⟨site, hs, refl site (proper site hs)⟩
  | cons e events ih =>
    rw [throughout, Bool.and_eq_true] at own hp
    obtain ⟨mid, hmid, hr⟩ : ∃ mid, (s.happen e).sites[i]? = some mid ∧ R site mid := by
      rcases happen_site hs e with h | ⟨op, rfl, h⟩
      · exact ⟨site, h, refl site (proper site hs)⟩
      · have hop : p s op := by simpa [Event.atSite] using hp.1
        exact ⟨_, h, step hs (proper site hs) (suits_of_event hs own.1) hop⟩
    obtain ⟨site', hs', hr'⟩ := ih (proper.happen own.1) hmid own.2 hp.2
    exact ⟨site', hs', trans hr hr'⟩

/-- A relation that each operation keeps holds from the first event to the last. -/
theorem after_rel {R : Site → Site → Prop} {p : Session → SiteOperation → Bool}
    (refl : ∀ site, Proper site → R site site)
    (trans : ∀ {a b c}, R a b → R b c → R a c)
    (step : ∀ {s : Session} {site : Site} {op : SiteOperation}, Proper site →
      op.suits site.kind → p s op → R site (op.perform ⟨site, s.engine⟩).site)
    {events : List Event} (proper : s.ProperAt i) (hs : s.sites[i]? = some site)
    (own : s.throughout (Event.suits i) events)
    (hp : s.throughout (Event.atSite i p) events) :
    ∃ site', (s.after events).sites[i]? = some site' ∧ R site site' :=
  after_rel_at refl trans (fun _ => step) proper hs own hp

end Session

/-! ### Loads, calls and generic sites -/

/-- A site has not gone back. -/
structure Site.Onwards (site site' : Site) : Prop where
  kind : site'.kind = site.kind
  climbs : site.kind ∈ [.load, .call, .keyedCall] → site.targetState.Climbs site'.targetState
  megamorphic : site.kind ∈ [.load, .call, .keyedCall] → site.targetState = .megamorphic →
    site'.target = site.target ∧ site'.patches = site.patches
  generic : site.targetState = .generic →
    site'.target = site.target ∧ site'.patches = site.patches

namespace Site.Onwards

variable {a b c site : Site}

theorem refl (proper : AtSite.Proper a) : Onwards a a where
  kind := rfl
  climbs hk := .refl (proper.rung (by
    revert hk
    cases a.kind <;> simp [SiteKind.usesStubCache]))
  megamorphic _ _ := ⟨rfl, rfl⟩
  generic _ := ⟨rfl, rfl⟩

theorem trans (h : Onwards a b) (h' : Onwards b c) : Onwards a c where
  kind := h'.kind.trans h.kind
  climbs hk := (h.climbs hk).trans (h'.climbs (h.kind ▸ hk))
  megamorphic hk hm := by
    obtain ⟨target, patches⟩ := h.megamorphic hk hm
    have hm' : b.targetState = .megamorphic := by rwa [targetState, target]
    obtain ⟨target', patches'⟩ := h'.megamorphic (h.kind ▸ hk) hm'
    exact ⟨target'.trans target, patches'.trans patches⟩
  generic hg := by
    obtain ⟨target, patches⟩ := h.generic hg
    have hg' : b.targetState = .generic := by rwa [targetState, target]
    obtain ⟨target', patches'⟩ := h'.generic hg'
    exact ⟨target'.trans target, patches'.trans patches⟩

/-- One operation. -/
theorem perform (proper : AtSite.Proper site) {op : SiteOperation} (suits : op.suits site.kind)
    (uncleared : !op.isClear) (e : Engine) : Onwards site (op.perform ⟨site, e⟩).site := by
  cases SiteOperation.goes (s := ⟨site, e⟩) proper suits (by simpa using uncleared) with
  | stays kind target patches =>
    refine ⟨kind, fun hk => ?_, fun _ _ => ⟨target, patches⟩, fun _ => ⟨target, patches⟩⟩
    rw [targetState, targetState, target]
    exact (refl proper).climbs hk
  | takes kind target patches =>
    exact ⟨kind, fun hk => (target.climbs hk).2, fun hk hm => absurd hm (target.climbs hk).1,
      fun hg => absurd hg target.unsettled⟩

end Site.Onwards

open Session in
/-- **Sites of loads and calls never go back, and generic sites stay as they are.** Let a site be
used with the operation of its own kind, whatever else happens, and not be cleared after some
point. Then, from that point on, the state of a site of loads or calls never goes back, a
megamorphic one of these keeps its stub and is not patched, and a generic site of any kind keeps
its stub. -/
theorem sites_never_go_back (config : Config) (i : Nat) (before after : List Event) {site : Site}
    (own : (ofConfig config).throughout (Event.suits i) (before ++ after))
    (hs : ((ofConfig config).after before).sites[i]? = some site)
    (uncleared : ((ofConfig config).after before).throughout (Event.leavesUncleared i) after) :
    ∃ site', ((ofConfig config).after (before ++ after)).sites[i]? = some site' ∧
      site'.kind = site.kind ∧
      (site.kind ∈ [.load, .call, .keyedCall] →
        site.targetState.Climbs site'.targetState ∧
          (site.targetState = .megamorphic →
            site'.target = site.target ∧ site'.patches = site.patches)) ∧
      (site.targetState = .generic → site'.target = site.target) := by
  rw [throughout_append] at own
  have proper := (properAt_ofConfig config i).after own.1
  obtain ⟨site', hs', on⟩ := after_rel (R := Site.Onwards) (fun _ => .refl) (fun h h' => h.trans h')
    (fun proper suits uncleared => .perform proper suits uncleared _) proper hs own.2 uncleared
  refine ⟨site', by rwa [after_append], on.kind, fun hk => ?_, fun hg => (on.generic hg).1⟩
  exact ⟨on.climbs hk, on.megamorphic hk⟩

/-- A megamorphic site of loads and a generic site of loads by key, after a change of the
configuration, an access that fails, and accesses to receivers that neither site has met. -/
theorem sites_never_go_back_megamorphic :
    let name : Name := ⟨"x"⟩
    let operations : List Operation → List Event := List.map .operation
    let before := operations [
      .onHeap .object, .onHeap .object, .onHeap (.array [.smi 1, .smi 2]),
      .access (.setProperty (.object ⟨10⟩) name (.smi 1) false),
      .access (.setProperty (.object ⟨11⟩) ⟨"y"⟩ (.smi 2) false),
      .newSite .load {}, .newSite .keyedLoad {},
      .atSite 0 (.load (.object ⟨10⟩) name), .atSite 0 .clear,
      .atSite 0 (.load (.object ⟨10⟩) name), .atSite 0 (.load (.object ⟨10⟩) name),
      .atSite 0 (.load (.object ⟨11⟩) name), .atSite 1 (.keyedLoad (.object ⟨12⟩) .null)]
    let after := .engine (fun e => { e with config := { e.config with traceIc := true } }) ::
      operations [
        .atSite 0 (.load .undefined name), .atSite 0 (.load (.object ⟨12⟩) .length),
        .atSite 1 (.keyedLoad (.object ⟨12⟩) (.smi 0)), .atSite 0 (.debugBreak true),
        .atSite 0 (.load (.object ⟨10⟩) name)]
    let earlier := (Session.ofConfig {}).after before
    let later := (Session.ofConfig {}).after (before ++ after)
    (∃ site site', earlier.sites[0]? = some site ∧ later.sites[0]? = some site' ∧
      site.targetState = .megamorphic ∧ site'.target = site.target ∧
        site'.patches = site.patches) ∧
    ∃ site site', earlier.sites[1]? = some site ∧ later.sites[1]? = some site' ∧
      site.targetState = .generic ∧ site'.target = site.target := by
  intro name operations before after earlier later
  have load : ∃ site, earlier.sites[0]? = some site ∧ site.kind = .load ∧
      site.targetState = .megamorphic := by decide +kernel
  have keyed : ∃ site, earlier.sites[1]? = some site ∧ site.targetState = .generic := by
    decide +kernel
  constructor
  · obtain ⟨site, hs, kind, mega⟩ := load
    obtain ⟨site', hs', -, calls, -⟩ :=
      sites_never_go_back {} 0 before after (by decide +kernel) hs (by decide +kernel)
    exact ⟨site, site', hs, hs', mega, (calls (by simp [kind])).2 mega⟩
  · obtain ⟨site, hs, generic⟩ := keyed
    obtain ⟨site', hs', -, -, kept⟩ :=
      sites_never_go_back {} 1 before after (by decide +kernel) hs (by decide +kernel)
    exact ⟨site, site', hs, hs', generic, kept generic⟩

/-! ### Stores -/

/-- The operation does not clear the site and does not store to the length of a fast array. -/
def SiteOperation.storesOrdinarily (s : Session) : SiteOperation → Bool
  | store receiver name _ => !s.engine.heap.storesLength receiver name
  | op => !op.isClear

/-- The operation, moreover, stores to no global proxy. -/
def SiteOperation.storesPlainly (s : Session) : SiteOperation → Bool
  | store receiver name _ =>
    !s.engine.heap.storesLength receiver name && !s.engine.heap.isGlobalProxy receiver
  | op => !op.isClear

theorem SiteOperation.not_isClear {s : Session} {op : SiteOperation}
    (ordinary : op.storesOrdinarily s) : ¬ op.isClear := by
  cases op <;> first | exact Bool.false_ne_true | cases ordinary

theorem SiteOperation.storesOrdinarily_of_plainly {s : Session} {op : SiteOperation}
    (plain : op.storesPlainly s) : op.storesOrdinarily s := by
  cases op with
  | store receiver name v =>
    simp only [storesPlainly, Bool.and_eq_true] at plain
    exact plain.1
  | _ => exact plain

namespace Site

variable {a b c site : Site} {s : Session} {op : SiteOperation}

/-- An ordinary store at a site of stores is a step, or goes to the global proxy. -/
theorem goes_of_store (proper : AtSite.Proper site) (suits : op.suits site.kind)
    (hk : site.kind = .store) (ordinary : op.storesOrdinarily s) :
    Goes (fun spec => site.targetState.Advances spec.state ∨
      ¬ op.storesPlainly s ∧ spec.state = .megamorphic) site (op.perform ⟨site, s.engine⟩).site := by
  have hu : site.kind.usesStubCache := by
    rw [hk]
    rfl
  cases op with
  | store receiver name v =>
    have installs := AtSite.store_installs (s := ⟨site, s.engine⟩) proper hk receiver name v
    refine (installs.imp fun spec m => ?_).goes
    cases m with
    | step moves => exact .inl (moves.advances hu)
    | length _ stored _ => simp [SiteOperation.storesOrdinarily, stored] at ordinary
    | proxy _ hp state => exact .inr ⟨by simp [SiteOperation.storesPlainly, hp], state⟩
  | clear => cases ordinary
  | debugBreak on => exact .stays rfl rfl rfl
  | _ => simp [SiteOperation.suits, hk] at suits

/-- A site of stores has not gone back. -/
structure StoresOnwards (site site' : Site) : Prop where
  kind : site'.kind = site.kind
  climbs : site.kind = .store → site.targetState.Climbs site'.targetState

theorem StoresOnwards.refl (proper : AtSite.Proper a) : StoresOnwards a a :=
  ⟨rfl, fun hk => .refl (proper.rung (by rw [hk]; rfl))⟩

theorem StoresOnwards.trans (h : StoresOnwards a b) (h' : StoresOnwards b c) :
    StoresOnwards a c :=
  ⟨h'.kind.trans h.kind, fun hk => (h.climbs hk).trans (h'.climbs (h.kind.trans hk))⟩

/-- An ordinary store moves a site for stores onwards. -/
theorem StoresOnwards.perform (proper : AtSite.Proper site) (suits : op.suits site.kind)
    (ordinary : op.storesOrdinarily s) :
    StoresOnwards site (op.perform ⟨site, s.engine⟩).site := by
  have any := SiteOperation.goes (s := ⟨site, s.engine⟩) proper suits (SiteOperation.not_isClear ordinary)
  refine ⟨any.kind, fun hk => ?_⟩
  have hr : site.targetState.rung?.isSome := proper.rung (by rw [hk]; rfl)
  cases goes_of_store proper suits hk ordinary with
  | stays _ target _ =>
    rw [targetState, targetState, target]
    exact .refl hr
  | takes _ target _ =>
    rcases target with advances | ⟨-, state⟩
    · exact advances.climbs
    · have state : (op.perform ⟨site, s.engine⟩).site.targetState = .megamorphic := state
      rw [state]
      exact SiteState.climbs_megamorphic hr

/-- The first stub that a site of stores was given is the one that delays. -/
structure Begins (site site' : Site) : Prop where
  kind : site'.kind = site.kind
  patches : site.patches ≤ site'.patches
  unpatched : site'.patches = site.patches → site'.target = site.target
  first : site.kind = .store → site.targetState = .uninitialized →
    site'.patches = site.patches + 1 → site'.targetState = .premonomorphic

theorem Begins.refl (a : Site) : Begins a a where
  kind := rfl
  patches := Nat.le_refl _
  unpatched _ := rfl
  first _ _ h := by omega

theorem Begins.trans (h : Begins a b) (h' : Begins b c) : Begins a c where
  kind := h'.kind.trans h.kind
  patches := Nat.le_trans h.patches h'.patches
  unpatched e := by
    have := h.patches
    have := h'.patches
    rw [h'.unpatched (by omega), h.unpatched (by omega)]
  first hk hu e := by
    -- The one patch came before the middle or after it.
    have le := h.patches
    have le' := h'.patches
    by_cases hb : b.patches = a.patches
    · have same := h.unpatched hb
      exact h'.first (h.kind.trans hk) (by rwa [targetState, same]) (by omega)
    · have same := h'.unpatched (by omega)
      rw [targetState, same]
      exact h.first hk hu (by omega)

/-- A plain store moves a site for stores onwards from its first state. -/
theorem Begins.perform (proper : AtSite.Proper site) (suits : op.suits site.kind)
    (plain : op.storesPlainly s) : Begins site (op.perform ⟨site, s.engine⟩).site := by
  have ordinary := SiteOperation.storesOrdinarily_of_plainly plain
  cases SiteOperation.goes (s := ⟨site, s.engine⟩) proper suits
      (SiteOperation.not_isClear ordinary) with
  | stays kind target patches =>
    exact ⟨kind, Nat.le_of_eq patches.symm, fun _ => target, fun _ _ e => by
      simp only at patches
      omega⟩
  | takes kind target patches =>
    have patches : (op.perform ⟨site, s.engine⟩).site.patches = site.patches + 1 := patches
    refine ⟨kind, by omega, fun e => by omega, fun hk hu _ => ?_⟩
    cases goes_of_store proper suits hk ordinary with
    | stays _ _ unpatched => omega
    | takes _ target _ =>
      rcases target with advances | ⟨rough, -⟩
      · rw [hu] at advances
        cases h : (op.perform ⟨site, s.engine⟩).site.target.spec.state <;> rw [h] at advances <;>
          first | exact h | cases advances
      · exact absurd plain rough

end Site

open Session in
/-- **Sites of stores do not go back, if they never store to the length of a fast array.** Let a
site of stores be used with stores only, whatever else happens, and be neither cleared nor used for
the length of a fast array after some point. Then, from that point on, its state never goes back; in
particular a megamorphic site stays megamorphic. If moreover the site never stores to the global
proxy and has not run, the first stub that it is given is the one that delays. -/
theorem store_sites_advance (config : Config) (i : Nat) (before after : List Event) {site : Site}
    (own : (ofConfig config).throughout (Event.suits i) (before ++ after))
    (hs : ((ofConfig config).after before).sites[i]? = some site) (hk : site.kind = .store)
    (ordinary : ((ofConfig config).after before).throughout
      (Event.atSite i fun s op => op.storesOrdinarily s) after) :
    ∃ site', ((ofConfig config).after (before ++ after)).sites[i]? = some site' ∧
      site.targetState.Climbs site'.targetState ∧
      (site.targetState = .megamorphic → site'.targetState = .megamorphic) ∧
      (((ofConfig config).after before).throughout
          (Event.atSite i fun s op => op.storesPlainly s) after →
        site.targetState = .uninitialized → site'.patches = site.patches + 1 →
          site'.targetState = .premonomorphic) := by
  rw [throughout_append] at own
  have proper := (properAt_ofConfig config i).after own.1
  -- What one operation does to the site composes over the run.
  obtain ⟨site', hs', on⟩ := after_rel (R := Site.StoresOnwards) (fun _ => .refl)
    (fun h h' => h.trans h') (fun proper suits p => .perform proper suits p) proper hs own.2 ordinary
  refine ⟨site', by rwa [after_append], on.climbs hk, fun hm => ?_, fun plain hu patched => ?_⟩
  · have climbs := on.climbs hk
    rw [hm] at climbs
    exact climbs.eq_megamorphic
  · obtain ⟨site'', hs'', begins⟩ := after_rel (R := Site.Begins) (fun a _ => .refl a)
      (fun h h' => h.trans h') (fun proper suits p => .perform proper suits p) proper hs own.2 plain
    obtain rfl := Option.some.inj (hs'.symm.trans hs'')
    exact begins.first hk hu patched

/-- The first store delays; stores to objects of two shapes and to the global proxy follow. -/
theorem store_sites_advance_first :
    let name : Name := ⟨"x"⟩
    let store (receiver : Value) (name : Name) : Event :=
      .operation (.atSite 0 (.store receiver name (.smi 1)))
    let before := [
      .operation (.onHeap .object), .operation (.onHeap .object),
      .operation (.access (.setProperty (.object ⟨10⟩) name (.smi 2) false)),
      .operation (.access (.setProperty (.object ⟨11⟩) ⟨"y"⟩ (.smi 2) false)),
      .operation (.newSite .store {})]
    let first := [store (.object ⟨10⟩) name]
    let rest := [
      .operation (.onHeap (.normalize ⟨10⟩)), store (.object ⟨10⟩) name, store (.object ⟨11⟩) name,
      store (.object Heap.globalProxy) name, store .null name, store (.object ⟨10⟩) ⟨"z"⟩]
    ∃ fresh later last,
      ((Session.ofConfig {}).after before).sites[0]? = some fresh ∧
      ((Session.ofConfig {}).after (before ++ first)).sites[0]? = some later ∧
      ((Session.ofConfig {}).after ((before ++ first) ++ rest)).sites[0]? = some last ∧
      fresh.targetState = .uninitialized ∧ later.targetState = .premonomorphic ∧
      later.targetState.Climbs last.targetState := by
  intro name store before first rest
  have made : ∃ site, ((Session.ofConfig {}).after before).sites[0]? = some site ∧
      site.kind = .store ∧ site.targetState = .uninitialized ∧ site.patches = 0 := by decide +kernel
  have patched : ∃ site, ((Session.ofConfig {}).after (before ++ first)).sites[0]? = some site ∧
      site.kind = .store ∧ site.patches = 1 := by decide +kernel
  obtain ⟨fresh, hf, kind, uninitialized, unpatched⟩ := made
  obtain ⟨later, hl, kind', once⟩ := patched
  obtain ⟨site', hs', -, -, delays⟩ :=
    store_sites_advance {} 0 before first (by decide +kernel) hf kind (by decide +kernel)
  obtain rfl := Option.some.inj (hl.symm.trans hs')
  obtain ⟨last, hs'', climbs, -, -⟩ :=
    store_sites_advance {} 0 (before ++ first) rest (by decide +kernel) hl kind' (by decide +kernel)
  exact ⟨fresh, later, last, hf, hl, hs'', uninitialized,
    delays (by decide +kernel) uninitialized (by omega), climbs⟩

/-- A store to the length of an array makes a megamorphic site monomorphic, and a site that has not
run as well: its first stub does not delay. -/
theorem store_site_goes_back :
    let name : Name := ⟨"x"⟩
    let store (i : Nat) (id : ObjectId) (name : Name) : Event :=
      .operation (.atSite i (.store (.object id) name (.smi 1)))
    let before := [
      .operation (.onHeap .object), .operation (.onHeap .object),
      .operation (.onHeap (.array [.smi 1, .smi 2])),
      .operation (.access (.setProperty (.object ⟨10⟩) name (.smi 2) false)),
      .operation (.access (.setProperty (.object ⟨11⟩) ⟨"y"⟩ (.smi 2) false)),
      .operation (.access (.setProperty (.object ⟨11⟩) name (.smi 2) false)),
      .operation (.newSite .store {}), .operation (.newSite .store {}),
      store 0 ⟨10⟩ name, store 0 ⟨10⟩ name, store 0 ⟨11⟩ name]
    let after := [store 0 ⟨12⟩ .length, store 1 ⟨12⟩ .length]
    let start := Session.ofConfig {}
    start.throughout (Event.suits 0) (before ++ after) ∧
      start.throughout (Event.suits 1) (before ++ after) ∧
      start.throughout (Event.leavesUncleared 0) (before ++ after) ∧
      start.throughout (Event.leavesUncleared 1) (before ++ after) ∧
      (start.after before).sites.map (fun site => (site.kind, site.targetState, site.patches)) =
        [(.store, .megamorphic, 3), (.store, .uninitialized, 0)] ∧
      (start.after (before ++ after)).sites.map (fun site => (site.targetState, site.patches)) =
        [(.monomorphic, 4), (.monomorphic, 1)] ∧
      ¬ SiteState.megamorphic.Climbs .monomorphic := by
  intro name store before after start
  refine ⟨by decide +kernel, by decide +kernel, by decide +kernel, by decide +kernel,
    by decide +kernel, by decide +kernel, fun climbs => ?_⟩
  cases climbs.eq_megamorphic

end Speculation
