import Speculation.Proofs.Cache.SecondLook

/-!
# Keyed calls and the history of their site

A keyed call finds the same function by the same calls whatever its site has called before
(`AtSite.callee_alike`), so any two sites call the same functions with the same result
(`keyed_call_history`). A stub either finds what the general rules find, or it misses, and after that they
still find the same (`Heap.Tried`).
-/

namespace Speculation

/-- Whether a stub with a handler reads a property by the general rules. -/
def Handler.readsByRules : Handler → Bool
  | .generic | .megamorphic | .callInterceptor _ => true
  | _ => false

namespace Heap

variable {rules : Rules} {h g : Heap} {receiver key : Value} {args : List Value} {spec : StubSpec}

/-! ### Stubs -/

/-- What comes of a stub: what the general rules find, or a miss that leaves a certain heap. -/
inductive Tried (h : Heap) (receiver key : Value) (left : Heap → Prop) :
    Except Fault Outcome × Heap → Prop
  | found {r : Except Fault Value} {g : Heap} (e : keyedCallee receiver key h = (r, g)) :
    Tried h receiver key left (r.map .hit, g)
  | missed {m : Outcome} {g : Heap} (miss : ∀ f, m ≠ .hit f) (l : left g) :
    Tried h receiver key left (.ok m, g)

theorem Tried.mono {left left' : Heap → Prop} {r : Except Fault Outcome × Heap}
    (tried : Tried h receiver key left r) (mono : ∀ g, left g → left' g) :
    Tried h receiver key left' r := by
  cases tried with
  | found e => exact .found e
  | missed miss l => exact .missed miss (mono _ l)

/-- One stub after the other. -/
theorem Tried.bind {left left' : Heap → Prop} {a : Action Outcome} {next : Outcome → Action Outcome}
    (tried : Tried h receiver key left (a h)) (hit : ∀ f, next (.hit f) = pure (.hit f))
    (missed : ∀ m g, (∀ f, m ≠ .hit f) → left g → Tried h receiver key left' (next m g)) :
    Tried h receiver key left' ((a >>= next) h) := by
  generalize e : a h = r at tried
  cases tried with
  | @found r g found =>
    cases r with
    | error fault =>
      rw [Computation.bind_error e]
      exact .found (r := .error fault) found
    | ok f =>
      rw [Computation.bind_ok e, hit]
      exact .found (r := .ok f) found
  | missed miss l =>
    rw [Computation.bind_ok e]
    exact missed _ _ miss l

/-- The function of a property that has been read is a hit. -/
theorem tried_read {left : Heap → Prop} {read : Action Value}
    (failed : ∀ fault g, read h = (.error fault, g) → keyedCallee receiver key h = (.error fault, g))
    (hit : ∀ v g, read h = (.ok v, g) → g.isFunction v → keyedCallee receiver key h = (.ok v, g))
    (miss : ∀ v g, read h = (.ok v, g) → g.isFunction v = false → left g) :
    Tried h receiver key left ((do
      let v ← read
      return (← get).hitFunction v : Action Outcome) h) := by
  rcases e : read h with ⟨fault | v, g⟩
  · rw [Computation.bind_error e]
    exact .found (r := .error fault) (failed fault g e)
  · rw [Computation.bind_ok e]
    change Tried h receiver key left (.ok (g.hitFunction v), g)
    by_cases function : g.isFunction v
    · rw [hitFunction, if_pos function]
      exact .found (r := .ok v) (hit v g e function)
    · rw [hitFunction, if_neg function]
      exact .missed (by simp) (miss v g e (by simpa using function))

/-- A read that fails also fails on the way to a function. -/
theorem ReadsOnce.failed (once : h.ReadsOnce receiver key) {fault : Fault}
    (read : getKeyed receiver key h = (.error fault, g)) :
    keyedCallee receiver key h = (.error fault, g) := by
  cases hn : (Key.computed key).name? h with
  | none => rw [keyedCallee_of_no_name hn once.proper, Computation.bind_error read]
  | some n =>
    simp only [getKeyed_of_name hn, once.proper, Bool.false_eq_true, if_false] at read
    cases index : n.arrayIndex? with
    | none =>
      rw [index] at read
      exact (calleeOf_of_name hn).trans (namedCallee_of_failed (skipsElements_of_index index) read).2
    | some i =>
      simp only [index, getElement, Computation.get_bind, once.character hn index] at read
      cases read

section Tried

variable (ob : h.Obeys rules)

include ob

/-- The general rules in the stub of a site. -/
theorem calleeByKey_tried (once : h.ReadsOnce receiver key) :
    Tried h receiver key (SameCallee h · receiver key) (calleeByKey receiver (.computed key) h) := by
  refine tried_read (fun fault g => once.failed) (fun v g read function => ?_)
    fun v g read none => once.sameCallee read none
  have hit : calleeByKey receiver (.computed key) h = (.ok (.hit v), g) := by
    refine (Computation.bind_ok read).trans ?_
    rw [Computation.get_bind, hitFunction, if_pos function]
    rfl
  exact calleeByKey_hit ob (by simp) hit

/-- A stub that is not generic leaves the heap as it is when it misses. -/
theorem runCall_tried (sound : spec.Sound rules h)
    (trusts : h.TrustsCall spec receiver (.computed key)) (special : spec.handler ≠ .generic)
    (once : spec.handler.readsByRules → h.ReadsOnce receiver key) :
    Tried h receiver key (· = h) (runCall spec receiver (.computed key) args h) := by
  rcases runCall_cases special args with ⟨outcome, quiet⟩ | ⟨at', n, hh, hold, hn, read⟩
  · rw [quiet]
    cases outcome with
    | hit f => exact .found (r := .ok f) (runCall_hit ob sound (by simp) trusts quiet)
    | miss => exact .missed (by simp) rfl
    | missForGood => exact .missed (by simp) rfl
  · have once := once (by rw [hh]; rfl)
    obtain ⟨h₀, -, -, -, -, origin⟩ := sound
    rw [StubSpec.Origin, hh] at origin
    obtain ⟨receiver₀, name, holder, co⟩ := origin
    obtain ⟨named, skips, -⟩ := co.trusts trusts hold
    cases hn.symm.trans named
    have general : keyedCallee receiver key h = namedCallee receiver n h := calleeOf_of_name hn
    rw [read]
    refine tried_read (fun fault g e => ?_) (fun v g e function => ?_)
      fun v g e none => once.getProperty hn e none
    · rw [general, (namedCallee_of_failed skips e).2]
    · rw [general, ob.namedCallee_of_getProperty skips e function]

/-- What a site does with its stub. -/
theorem callBy_tried {stub : Stub} {found : Option StubSpec}
    (sound : ∀ spec, found = some spec → spec.Sound rules h)
    (trusts : ∀ spec, found = some spec → h.TrustsCall spec receiver (.computed key))
    (own : stub.handler ≠ .megamorphic → found = some stub.spec)
    (special : stub.handler = .megamorphic → ∀ spec, found = some spec → spec.handler ≠ .generic)
    (once : stub.spec.handler.readsByRules → h.ReadsOnce receiver key) :
    Tried h receiver key (SameCallee h · receiver key)
      (callBy stub receiver (.computed key) args found h) := by
  -- A megamorphic stub tries the stub found for it and then reads by the rules; any other stub
  -- is tried alone.
  by_cases mega : stub.handler = .megamorphic
  · have once : h.ReadsOnce receiver key := once (by rw [show stub.spec.handler = _ from mega]; rfl)
    have first : Tried h receiver key (· = h) (runFound receiver (.computed key) args found h) := by
      cases found with
      | none => exact .missed (by simp) rfl
      | some spec =>
        exact runCall_tried ob (sound spec rfl) (trusts spec rfl) (special mega spec rfl) fun _ => once
    refine first.bind (fun _ => rfl) fun m g miss same => ?_
    subst same
    rw [afterCall_of_miss miss, if_pos mega]
    split
    · exact .missed (by simp) (.refl ..)
    · exact calleeByKey_tried ob once
  · obtain rfl := own mega
    have alone : Tried h receiver key (SameCallee h · receiver key)
        (runCall stub.spec receiver (.computed key) args h) := by
      by_cases generic : stub.spec.handler = .generic
      · have read : runCall stub.spec receiver (.computed key) args =
            calleeByKey receiver (.computed key) := by simp only [runCall, generic]
        rw [read]
        exact calleeByKey_tried ob (once (by rw [generic]; rfl))
      · refine (runCall_tried ob (sound _ rfl) (trusts _ rfl) generic once).mono ?_
        rintro g rfl
        exact .refl ..
    refine Tried.bind alone (fun _ => rfl) fun m g miss same => ?_
    rw [afterCall_of_miss miss, if_neg mega]
    exact .missed miss same

end Tried

end Heap

namespace AtSite

variable {rules : Rules} {s : AtSite} {receiver key : Value} {args : List Value}

/-! ### Sites -/

/-- The function that `receiver[key](args)` calls. -/
def keyedFunction (receiver key : Value) (args : List Value) : Action Value := do
  match ← dispatchCall receiver (.computed key) args with
  | .hit f => return f
  | .miss | .missForGood => resolveKeyedCall receiver key args

/-- A keyed call finds a function and calls it. -/
theorem keyedCall_eq (receiver key : Value) (args : List Value) :
    keyedCall receiver key args = (do
      let f ← keyedFunction receiver key args
      onHeap (Heap.call f receiver args)) := by
  unfold keyedCall keyedFunction
  rw [bind_assoc]
  refine bind_congr fun outcome => ?_
  cases outcome <;> rfl

section Alike

variable (ss : s.Sound rules) (sees : s.engine.heap.host.Blind)
  (trusts : ∀ spec, s.Consults receiver (.computed key) spec →
    s.engine.heap.TrustsCall spec receiver (.computed key))
  (once : s.site.target.spec.handler.readsByRules → s.engine.heap.ReadsOnce receiver key)

include ss trusts once

/-- The part of a call before a miss has tried to find what the general rules find. -/
theorem dispatchCall_tried (args : List Value) :
    Heap.Tried s.engine.heap receiver key (Heap.SameCallee s.engine.heap · receiver key)
      ((dispatchCall receiver (.computed key) args s).1,
        (dispatchCall receiver (.computed key) args s).2.engine.heap) := by
  obtain ⟨found, t, consulted, -, site, heap, kept⟩ := consult_kept ss receiver (.computed key)
  have run : dispatchCall receiver (.computed key) args s =
      onHeap (Heap.callBy s.site.target receiver (.computed key) args found) t := by
    rw [dispatchCall_eq]
    exact Computation.bind_ok consulted
  rw [run]
  change Heap.Tried _ _ _ _ (Heap.callBy s.site.target receiver (.computed key) args found
    t.engine.heap)
  rw [heap]
  refine Heap.callBy_tried ss.engine.heap (fun spec e => (kept spec e).2.1)
    (fun spec e => trusts spec (kept spec e).1) (fun plain => ?_) (fun mega spec e => ?_) once
  · have own : s.Consults receiver (.computed key) s.site.target.spec := (consults_own plain).2 rfl
    exact Except.ok.inj ((congrArg Prod.fst consulted).symm.trans own)
  · obtain ⟨-, sound, -, own | state⟩ := kept spec e
    · rw [own]
      exact fun generic => by cases mega.symm.trans generic
    · exact sound.not_generic (by simp [state])

include sees

/-- **A site finds what the general rules call, by the calls that they make.** -/
theorem keyedFunction_alike (args : List Value) : Heap.Alike ((keyedFunction receiver key args s).1,
    (keyedFunction receiver key args s).2.engine.heap)
      (Heap.keyedCallee receiver key s.engine.heap) := by
  have tried := dispatchCall_tried ss trusts once args
  have reached := dispatchCall_across (Heap.accessClosed_leads rules) ss receiver (.computed key) args
  have sound := reached.sound
  have leads := reached.heap
  rcases e : dispatchCall receiver (.computed key) args s with ⟨r, u⟩
  rw [e] at tried sound leads
  dsimp only at tried sound leads
  generalize hg : u.engine.heap = g at tried
  cases tried with
  | @found r g found =>
    subst hg
    cases r with
    | error fault =>
      rw [keyedFunction, Computation.bind_error e, found]
      exact .refl _
    | ok f =>
      rw [keyedFunction, Computation.bind_ok e, found]
      exact .refl _
  | @missed m g miss same =>
    subst hg
    have performs := resolveKeyedCall_performs sound receiver key args
    have blind := Heap.blind_calleeOf (leads.host ▸ sees).setting receiver (.computed key)
    have resolved : keyedFunction receiver key args s = resolveKeyedCall receiver key args u := by
      rw [keyedFunction, Computation.bind_ok e]
      cases m with
      | hit f => exact absurd rfl (miss f)
      | _ => rfl
    rw [resolved]
    exact (Heap.Alike.of_bare (performs.result blind) (performs.heap blind)).trans same.alike

/-- **A site calls by the general rules**, and has the same calls listed. -/
theorem keyedCall_general (args : List Value) :
    (keyedCall receiver key args s).1 = (Heap.keyedCall receiver key args s.engine.heap).1 ∧
      (keyedCall receiver key args s).2.engine.heap.bare.invocations =
        (Heap.keyedCall receiver key args s.engine.heap).2.bare.invocations := by
  have alike := keyedFunction_alike ss sees trusts once args
  have leads := (Heap.callClosed_leads rules).keyedCallee ss.engine.heap receiver key
  rw [keyedCall_eq, Heap.keyedCall]
  rcases e : keyedFunction receiver key args s with ⟨fault | f, t⟩
  all_goals
    rcases found : Heap.keyedCallee receiver key s.engine.heap with ⟨fault' | f', g⟩
    all_goals
      rw [e, found] at alike
      cases alike.result
  · rw [Computation.bind_error e, Computation.bind_error found]
    exact ⟨rfl, alike.log⟩
  · rw [found] at leads
    rw [Computation.bind_ok e, Computation.bind_ok found]
    have objects : t.engine.heap.bare = g.bare := alike.objects f rfl
    have host : t.engine.heap.host = s.engine.heap.host := by
      have same := congrArg (fun k : Heap => k.host) objects
      exact same.trans leads.host
    have called := (Heap.blind_call (host ▸ sees).setting f receiver args).congr objects
    exact ⟨called.1, congrArg Heap.invocations called.2⟩

end Alike

/-- A new site has no stub for any name. -/
theorem trustsCall_of_fresh {kind : SiteKind} {mode : SiteMode}
    (fresh : s.site.target.spec = .fresh kind mode) {spec : StubSpec} {key : Key}
    (runs : s.Consults receiver key spec) : s.engine.heap.TrustsCall spec receiver key := by
  have plain : s.site.target.handler ≠ .megamorphic := fun mega => by
    have handler : s.site.target.handler = .fresh := congrArg StubSpec.handler fresh
    cases mega.symm.trans handler
  rw [(consults_own plain).1 runs, fresh]
  exact fun name _ passes => by cases passes.named

end AtSite

/-- **A keyed call does not depend on the history of its site.** In every session, a keyed call through
any site gives the same result as through a new site, and calls the same functions, which find the same
objects: the getter of the property, if it has one, and then the function that was found. Nothing is called of
`undefined` and `null`. The functions of the host must not look at the stubs of shapes, and two things are
asked of the access:

* Where the receiver passes the guards of a stub that the site runs, all its prototypes are objects, and
  there is no element to call for a key that spells an index.
* If the site reads the property in its stub, then it can read it again. -/
theorem keyed_call_history {rules : Rules} {session : Session}
    (reachable : session.Reachable rules) (sees : session.engine.heap.host.Blind)
    {site : Site} (mem : site ∈ session.sites) {receiver key : Value}
    (trusts : ∀ spec, AtSite.Consults ⟨site, session.engine⟩ receiver (.computed key) spec →
      session.engine.heap.TrustsCall spec receiver (.computed key))
    (once : site.target.spec.handler.readsByRules → session.engine.heap.ReadsOnce receiver key)
    (args : List Value) (mode : SiteMode) :
    let (fresh, engine) := session.engine.newSite .keyedCall mode
    let h := session.engine.heap
    let old := AtSite.keyedCall receiver key args ⟨site, session.engine⟩
    let new := AtSite.keyedCall receiver key args ⟨fresh, engine⟩
    old.1 = new.1 ∧
    (h.callsSince old.2.engine.heap).map Invocation.bare =
      (h.callsSince new.2.engine.heap).map Invocation.bare ∧
    (h.callsSince old.2.engine.heap).map Invocation.bare =
      (h.keyedCallCalls receiver key args).map Invocation.bare ∧
    (receiver.isNullish → old.1 = .error (.raised (.nonObjectCall (h.toText key) (h.describe receiver)))) := by
  have sound := reachable.sound
  -- The two sites are compared through the general call: each does what that does, so they do
  -- the same.
  have sound' := sound.perform (.newSite .keyedCall mode) trivial
  have fresh : (session.engine.newSite .keyedCall mode).1.target.spec = .fresh .keyedCall mode :=
    StubTable.spec_request session.engine.stubs (.fresh .keyedCall mode)
  obtain ⟨result, log⟩ := AtSite.keyedCall_general (sound.atSite mem) sees trusts once args
  obtain ⟨result', log'⟩ := AtSite.keyedCall_general
    (sound'.atSite (List.mem_append_right _ (List.mem_singleton_self _))) sees
    (fun _ => AtSite.trustsCall_of_fresh fresh) (fun reads => by
      rw [show _ = Handler.fresh from congrArg StubSpec.handler fresh] at reads
      cases reads) args
  have calls := Heap.callsSince_of_log
    (log.trans (congrArg (·.map Invocation.bare) (Heap.log_keyedCall receiver key args _)))
  have calls' := Heap.callsSince_of_log
    (log'.trans (congrArg (·.map Invocation.bare) (Heap.log_keyedCall receiver key args _)))
  refine ⟨result.trans result'.symm, calls.trans calls'.symm, calls, fun nullish => ?_⟩
  rw [result, Heap.keyedCall, Computation.bind_error (Heap.keyedCallee_of_isNullish nullish)]

/-- The getter of a function that gives the function itself, at a site that has stopped specializing:
the getter runs once. -/
theorem keyed_call_history_getter :
    let function : Value := .object ⟨11⟩
    let getter : Value := .object ⟨13⟩
    let key : Value := .object ⟨14⟩
    let around : Surroundings := { host := .answering function }
    let session := (Session.ofConfig {} around).run [
      .onHeap (.hostFunction "f" 0 (.provided 0)), .onHeap (.hostFunction "g" 0 (.provided 0)),
      .onHeap (.addAccessor ⟨11⟩ ⟨"x"⟩ getter .undefined), .onHeap (.internalize "x"),
      .onHeap (.intern ⟨"x"⟩), .newSite .keyedCall {}, .atSite 0 (.keyedCall function .null [])]
    let h := session.engine.heap
    ∃ site ∈ session.sites, site.targetState = .megamorphic ∧
      (AtSite.keyedCall function key [] ⟨site, session.engine⟩).1 = .ok function ∧
      (h.callsSince (AtSite.keyedCall function key [] ⟨site, session.engine⟩).2.engine.heap).map
        (·.callee) = [getter, function] := by
  intro function getter key around session h
  have lawful : around.host.Lawful { objectPrototypes := true } := Host.answering_does _ _ _
  have allowed : (Session.ofConfig {} around).AllowedRun { objectPrototypes := true } [
      .onHeap (.hostFunction "f" 0 (.provided 0)), .onHeap (.hostFunction "g" 0 (.provided 0)),
      .onHeap (.addAccessor ⟨11⟩ ⟨"x"⟩ getter .undefined), .onHeap (.internalize "x"),
      .onHeap (.intern ⟨"x"⟩), .newSite .keyedCall {}, .atSite 0 (.keyedCall function .null [])] :=
    ⟨trivial, trivial, (fun e => by cases e), trivial, trivial, trivial, trivial, trivial⟩
  have reachable : session.Reachable { objectPrototypes := true } :=
    .run (.start {} around lawful) allowed
  have blind : around.host.Blind := Host.blind_answering function
  have sees : session.engine.heap.host.Blind := 
    Session.host_run (s := session) rfl lawful allowed ▸ blind
  have sites : ∃ site ∈ session.sites, site.targetState = .megamorphic := by decide +kernel
  have named : (Key.computed key).name? session.engine.heap = some ⟨"x"⟩ := by decide +kernel
  have read : (Heap.readBehind function key session.engine.heap).1.toOption = some function ∧
      (Heap.readBehind function key session.engine.heap).2.isFunction function := by decide +kernel
  have kept : (Key.computed key).name?
      (session.engine.heap.intern ⟨session.engine.heap.toText key⟩) =
        (Key.computed key).name? session.engine.heap := by decide +kernel
  have index : (Name.mk "x").arrayIndex? = none := by decide +kernel
  have fresh : (AtSite.keyedCall function key [] ⟨(session.engine.newSite .keyedCall {}).1,
      (session.engine.newSite .keyedCall {}).2⟩).1.toOption = some function := by decide +kernel
  have general : (session.engine.heap.keyedCallCalls function key []).map (·.callee) =
      [getter, function] := by decide +kernel
  have above := reachable.sound.engine.heap.objectsAbove
    (reachable.sound.engine.heap.objectPrototypes rfl) function
  -- The facts above are computed; from here on the session is any that has them, so that nothing
  -- unfolds it again.
  clear_value session
  have unindexed {n : Name} (hn : (Key.computed key).name? session.engine.heap = some n) :
      n.arrayIndex? = none := by
    cases named.symm.trans hn
    exact index
  have once : session.engine.heap.ReadsOnce function key := by
    refine ⟨rfl, fun _ => kept, fun {v g} e _ => ?_, fun {n i} hn hi => ?_⟩
    · rw [e] at read
      cases read.1
      exact read.2
    · rw [unindexed hn] at hi
      cases hi
  obtain ⟨site, mem, megamorphic⟩ := sites
  obtain ⟨result, -, calls, -⟩ := keyed_call_history reachable sees mem
    (fun _ _ n hn _ => ⟨Heap.skipsElements_of_index (unindexed hn), above⟩) (fun _ => once) [] {}
  refine ⟨site, mem, megamorphic, ?_, ?_⟩
  · exact result.trans (congrArg Prod.fst (Computation.eq_ok_of_toOption fresh))
  · have callees := congrArg (List.map Invocation.callee) calls
    simp only [List.map_map] at callees
    exact callees.trans general

/-- A site that has stopped specializing runs a getter twice that gives no function, and reports that
nothing can be loaded from `undefined`. A new site runs it once, and reports that nothing can be called
of `undefined`. -/
theorem keyed_call_history_differs :
    let wrapper : Value := .object ⟨11⟩
    let charAt : Value := .object ⟨7⟩
    let key : Value := .object ⟨12⟩
    let session := (Session.ofConfig {}).run [
      .onHeap (.string "abc"), .onHeap (.stringWrapper (.object ⟨10⟩)),
      .onHeap (.addAccessor ⟨11⟩ ⟨"x"⟩ charAt .undefined), .onHeap (.internalize "x"),
      .onHeap (.intern ⟨"x"⟩), .newSite .keyedCall {}, .newSite .keyedCall {},
      .atSite 0 (.keyedCall wrapper .null [])]
    let h := session.engine.heap
    session.Reachable { objectPrototypes := true } ∧
      ∃ a ∈ session.sites, ∃ b ∈ session.sites, a.kind = .keyedCall ∧ b.kind = .keyedCall ∧
        (h.callsSince (AtSite.keyedCall wrapper key [] ⟨a, session.engine⟩).2.engine.heap).map
          (·.callee) = [charAt, charAt] ∧
        (h.callsSince (AtSite.keyedCall wrapper key [] ⟨b, session.engine⟩).2.engine.heap).map
          (·.callee) = [charAt] ∧
        (AtSite.keyedCall .undefined key [] ⟨a, session.engine⟩).1 =
          .error (.raised (.nonObjectLoad "x" "undefined")) ∧
        (AtSite.keyedCall .undefined key [] ⟨b, session.engine⟩).1 =
          .error (.raised (.nonObjectCall "x" "undefined")) := by
  intro wrapper charAt key session h
  exact ⟨.run (.initial {}) ⟨trivial, (fun e => by cases e), (fun e => by cases e), trivial, trivial,
    trivial, trivial, trivial, trivial⟩, by decide +kernel⟩

end Speculation
