import Speculation.Proofs.Cache.EndlessCalls

/-!
# Delegation in sessions

Nothing but `setCallHandler` changes what objects pass calls on to (`Heap.operation_relays`), unless a
function of the host does it. So delegation ends in a session whose new call handlers close no cycle, those
of the host included, and an operation changes this exactly if it closes one (`call_delegation_ends`). Then
every call arrives at a value that passes nothing on, and ends whenever the host function does that it
arrives at; so does a call through a site, which may call getters as well.

Nothing keeps a program from closing a cycle, and an object may even be its own call handler. A call of
such an object is passed on forever (`call_delegation_endless`).
-/

namespace Speculation

open Speculation.Computation

/-- The operation sets a call handler that closes a cycle. -/
def Operation.ClosesCycle (h : Heap) : Operation → Prop
  | .onHeap op => op.ClosesCycle h
  | _ => False

/-! ### Sessions -/

namespace Session

variable {rules : Rules} {s : Session}

/-- No operation closes a cycle of call handlers, one after the other. -/
def ClosesNoCycle (s : Session) : List Operation → Prop
  | [] => True
  | op :: ops => ¬ op.ClosesCycle s.engine.heap ∧ (s.perform op).ClosesNoCycle ops

/-- Where delegation ends, it still does after an operation exactly if that closes no cycle. -/
theorem Sound.perform_delegationEnds_iff (ss : s.Sound rules)
    (host : s.engine.heap.host.ClosesNoCycle rules) (op : Operation) (allowed : s.Allowed rules op)
    (ends : s.engine.heap.DelegationEnds) :
    (s.perform op).engine.heap.DelegationEnds ↔ ¬ op.ClosesCycle s.engine.heap := by
  by_cases onHeap : ∃ o, op = .onHeap o
  · obtain ⟨o, rfl⟩ := onHeap
    exact Heap.operation_delegationEnds_iff ss.engine.heap o allowed ends
  · have keeps : Heap.KeepsEnding rules s.engine.heap (s.perform op).engine.heap :=
      ss.perform_rel (Heap.accessClosed_keepsEnding rules) op (fun o e => absurd ⟨o, e⟩ onHeap)
        fun _ o _ => o.stores_anything
    -- No other operation closes a cycle, by definition.
    refine iff_of_true (keeps.ends host ends) fun closes => ?_
    cases op with
    | onHeap o => exact onHeap ⟨o, rfl⟩
    | _ => exact closes

/-- Delegation ends after every run in which no handler closes a cycle. -/
theorem Sound.run_delegationEnds (ss : s.Sound rules)
    (host : s.engine.heap.host.ClosesNoCycle rules) {ops : List Operation}
    (allowed : s.AllowedRun rules ops) (acyclic : s.ClosesNoCycle ops)
    (ends : s.engine.heap.DelegationEnds) : (s.run ops).engine.heap.DelegationEnds := by
  induction ops generalizing s with
  | nil => exact ends
  | cons op ops ih =>
    have same := (ss.perform_leads op allowed.1).host
    exact ih (ss.perform op allowed.1) (same ▸ host) allowed.2 acyclic.2
      ((ss.perform_delegationEnds_iff host op allowed.1 ends).mpr acyclic.1)

end Session

/-! ### Calls through sites -/

/-- What a call through a site leads to: all calls that are made arrive, and it ends whenever the host
functions do at which they arrive. -/
structure AtSite.Ends (s : AtSite) (a : AtSite.Action Value) : Prop where
  arrive : ∀ c ∈ s.engine.heap.callsSince (a s).2.engine.heap, ∃ target receiver,
    (c.heap s.engine.heap.host).Arrives c.callee c.receiver target receiver
  ends : (∀ c ∈ s.engine.heap.callsSince (a s).2.engine.heap, c.HostEnds s.engine.heap.host) →
    ¬ IsEndless (a s)

/-- An action that ends with the hosts it calls does so from a heap in which delegation ends. -/
theorem AtSite.EndsWithHosts.ends {rules : Rules} {s : AtSite} {a : AtSite.Action Value}
    (e : EndsWithHosts rules s a) (k : Across rules (Heap.KeepsEnding rules) s a)
    (host : s.engine.heap.host.ClosesNoCycle rules) (ends : s.engine.heap.DelegationEnds) :
    s.Ends a where
  arrive c hc := (k.heap.calls host ends c hc).arrives c.callee c.receiver
  ends hosts endless := by
    obtain ⟨c, hc, goes⟩ := e host ends endless
    exact goes (hosts c hc)

/-- **Call delegation ends unless a call handler closes a cycle.** In every session in which no new call
handler closed a cycle, whether the program set it or a function of the host, every call arrives at a value
that does not pass it on, after at most as many steps as there are cells, and fares like a call of that
value. A call through any site ends whenever the host functions do that it arrives at. The next operation
keeps this if it closes no cycle either, and otherwise some call never arrives. -/
theorem call_delegation_ends {rules : Rules} {config : Config} {around : Surroundings}
    (lawful : around.host.Lawful rules) (tame : around.host.ClosesNoCycle rules) {ops : List Operation}
    (allowed : (Session.ofConfig config around).AllowedRun rules ops)
    (acyclic : (Session.ofConfig config around).ClosesNoCycle ops) :
    let session := (Session.ofConfig config around).run ops
    let h := session.engine.heap
    (∀ callee receiver, ∃ target receiver', h.Arrives callee receiver target receiver' ∧
      ∀ args, h.FaresLike callee receiver args target receiver') ∧
    (∀ site ∈ session.sites, ∀ receiver args,
      let s : AtSite := ⟨site, session.engine⟩
      (∀ name, s.Ends (AtSite.call receiver name args)) ∧
      ∀ key, s.Ends (AtSite.keyedCall receiver key args)) ∧
    ∀ op, session.Allowed rules op →
      ((session.perform op).engine.heap.DelegationEnds ↔ ¬ op.ClosesCycle h) := by
  intro session h
  have sound : session.Sound rules :=
    (Session.Reachable.run (.start config around lawful) allowed).sound
  -- The host is the one the session began with, so what it was said to do it still does.
  have host : h.host.ClosesNoCycle rules :=
    Session.host_run (s := session) rfl lawful allowed ▸ tame
  have ends : h.DelegationEnds :=
    (Session.sound_ofConfig lawful config).run_delegationEnds tame allowed acyclic
      Heap.delegationEnds_initial
  refine ⟨fun callee receiver => ?_, fun site mem receiver args => ?_, fun op allowed =>
    sound.perform_delegationEnds_iff host op allowed ends⟩
  · obtain ⟨target, receiver', arrives⟩ := ends.arrives callee receiver
    exact ⟨target, receiver', arrives, arrives.faresLike⟩
  · have ss := sound.atSite mem
    have c := Heap.accessClosed_keepsEnding rules
    exact ⟨fun name => (AtSite.call_endsWithHosts ss receiver name args).ends
        (AtSite.call_across c ss receiver name args) host ends,
      fun key => (AtSite.keyedCall_endsWithHosts ss receiver key args).ends
        (AtSite.keyedCall_across c ss receiver key args) host ends⟩

/-- An object that passes calls on to another one, which passes them on to a host function that returns
the second object. A handler for the function would not matter, but the first object must not become the
handler of the second one. -/
theorem call_delegation_ends_chain :
    let first : Value := .object ⟨10⟩
    let second : Value := .object ⟨11⟩
    let around : Surroundings := { host := .answering second }
    let ops : List Operation := [
      .onHeap .object, .onHeap .object, .onHeap (.hostFunction "f" 0 (.provided 0)),
      .onHeap (.setCallHandler ⟨11⟩ ⟨13⟩), .onHeap (.setCallHandler ⟨10⟩ ⟨11⟩),
      .access (.setNamed first ⟨"m"⟩ first false), .newSite .call {}]
    let session := (Session.ofConfig {} around).run ops
    let h := session.engine.heap
    (∃ target receiver, h.Arrives first .null target receiver ∧
      ∀ args, h.FaresLike first .null args target receiver) ∧
    (Heap.call first .null [] h).1.toOption = some second ∧
    (∃ site ∈ session.sites,
      (AtSite.call first ⟨"m"⟩ [] ⟨site, session.engine⟩).1.toOption = some second ∧
      AtSite.Ends ⟨site, session.engine⟩ (AtSite.call first ⟨"m"⟩ [])) ∧
    (session.perform (.onHeap (.setCallHandler ⟨13⟩ ⟨10⟩))).engine.heap.DelegationEnds ∧
    ¬ (session.perform (.onHeap (.setCallHandler ⟨11⟩ ⟨10⟩))).engine.heap.DelegationEnds := by
  intro first second around ops session h
  have lawful : around.host.Lawful {} := Host.answering_does _ _ _
  have tame : around.host.ClosesNoCycle {} := Host.answering_does _ _ _
  have allowed : (Session.ofConfig {} around).AllowedRun {} ops :=
    ⟨trivial, trivial, trivial, trivial, trivial, trivial, trivial, trivial⟩
  have acyclic : (Session.ofConfig {} around).ClosesNoCycle ops :=
    ⟨id, id, id, Heap.not_closesCycle (k := 1) (by decide +kernel) (by decide +kernel),
      Heap.not_closesCycle (k := 2) (by decide +kernel) (by decide +kernel), id, id, trivial⟩
  obtain ⟨arrives, sites, next⟩ := call_delegation_ends lawful tame allowed acyclic
  have called : ∃ site ∈ session.sites,
      (AtSite.call first ⟨"m"⟩ [] ⟨site, session.engine⟩).1.toOption = some second := by decide +kernel
  obtain ⟨site, mem, called⟩ := called
  have function : (h.object? ⟨13⟩).all fun o => o.function?.isSome := by decide +kernel
  have plain : ((h.object? ⟨11⟩).filter fun o => o.function?.isNone).isSome := by decide +kernel
  have follows : follow h.delegate? 1 first = some second := by decide +kernel
  refine ⟨arrives first .null, by decide +kernel, ⟨site, mem, called, (sites site mem first []).1 ⟨"m"⟩⟩,
    (next (.onHeap (.setCallHandler ⟨13⟩ ⟨10⟩)) trivial).mpr ?_,
    fun ends => (next (.onHeap (.setCallHandler ⟨11⟩ ⟨10⟩)) trivial).mp ends ?_⟩
  -- A handler on a function is never asked for, so no cycle is closed there.
  · rintro ⟨⟨o, ho, none⟩, -⟩
    rw [show h.object? ⟨13⟩ = some o from ho] at function
    simp [none] at function
  · obtain ⟨o, ho⟩ := Option.isSome_iff_exists.mp plain
    obtain ⟨ho, none⟩ := Option.filter_eq_some_iff.mp ho
    exact ⟨⟨o, ho, Option.isNone_iff_eq_none.mp none⟩, 1, follows⟩

/-- An object may become its own call handler, and counts as callable. A call of it is passed on to the
object forever. -/
theorem call_delegation_endless :
    let object : Value := .object ⟨10⟩
    let session := (Session.ofConfig {}).run [.onHeap .object, .onHeap (.setCallHandler ⟨10⟩ ⟨10⟩)]
    let h := session.engine.heap
    session.Reachable {} ∧ h.isCallable object ∧
      (∀ n, follow h.delegate? n object = some object) ∧
      ∀ depth receiver args, IsEndless (Heap.invoke depth object receiver args h) := by
  intro object session h
  have reachable : session.Reachable {} := .run (.initial {}) ⟨trivial, trivial, trivial⟩
  have delegate : h.delegate? object = some object := by decide +kernel
  have callable : h.isCallable object := by decide +kernel
  clear_value h
  refine ⟨reachable, callable, fun n => ?_, fun depth receiver args => ?_⟩
  · induction n with
    | zero => rfl
    | succ n ih => rw [follow, delegate, Option.bind_some, ih]
  · refine ⟨.endlessCall, ?_, .inl rfl⟩
    induction depth generalizing receiver with
    | zero => rfl
    | succ depth ih =>
      rw [Heap.invoke_succ, delegate]
      exact ih object

end Speculation
