import Speculation.Proofs.Cache.Callee
import Speculation.Proofs.Heap.Arrival

/-!
# Calls through sites that end

On its way to the function that it calls, a site looks into caches, may run a getter, and keeps its books.
Only what it calls can go on forever: if a call through a site does, then one of the calls that were made
meanwhile arrived at a function of the host that does (`AtSite.call_endsWithHosts`,
`AtSite.keyedCall_endsWithHosts`). Upkeep neither calls anything nor sets a call handler, so delegation ends
in whatever these calls found (`Heap.accessClosed_keepsEnding`).
-/

namespace Speculation

open Speculation.Computation

namespace Heap

variable {rules : Rules} {h : Heap} {receiver : Value} {α β : Type}

/-- What stubs and upkeep write is no call handler. -/
theorem accessClosed_keepsEnding (rules : Rules) :
    AccessClosed rules (KeepsEnding rules) fun _ => True where
  toElementClosed := elementClosed_keepsEnding rules
  bare ob e log := by
    have relays : Relays rules _ _ :=
      ⟨ob.leads_of_bare e log, .of_cells (by simpa using congrArg (·.cells) e)⟩
    exact relays.keepsEnding (Prod.ext (host_of_bare e) log)
  elementsTransition {h s k} ob hs w le :=
    Relays.keepsEnding
      ⟨(elementsTransition_settles ob hs w le).leads, .of_cells (cells_elementsTransition _ _)⟩
      (outside_elementsTransition h s k)
  data l same := Relays.keepsEnding ⟨l, .modifyObject fun o => (same o).callHandler⟩ rfl
  newField _ _ _ _ l := Relays.keepsEnding ⟨l, .modifyObject fun _ => rfl⟩ rfl
  put ob _ ho within widens fits :=
    Relays.keepsEnding ⟨(accessClosed_leads rules).put ob trivial ho within widens fits,
      .modifyObject fun _ => rfl⟩ rfl

/-! ### Finding a function -/

theorem halts_elementNamed (receiver : Value) (name : Name) : Halts (elementNamed receiver name) := by
  unfold elementNamed
  cases name.arrayIndex? with
  | some i =>
    dsimp only
    rw [map_eq_pure_bind]
    exact (halts_getElement receiver i).bind fun _ => halts_pure _
  | none => exact halts_pure _

theorem halts_requireCallable (receiver f : Value) (text : Heap → String) :
    Halts (requireCallable receiver f text) :=
  halts_get.bind fun _ => .ite (halts_pure _) (halts_raise _)

/-- Whether an action ends is told by what it does in that heap. -/
theorem endsWithHosts_congr {a b : Action α} (e : a h = b h) :
    EndsWithHosts rules h a ↔ EndsWithHosts rules h b := by
  rw [EndsWithHosts, EndsWithHosts, e]

/-- A last step that calls nothing. -/
theorem EndsWithHosts.bind_halts {a : Action α} {f : α → Action β} (ha : EndsWithHosts rules h a)
    (k : KeepsEnding rules h (a h).2) (halts : ∀ x, Halts (f x)) : EndsWithHosts rules h (a >>= f) :=
  ha.bind k fun x _ _ _ => endsWithHosts_of_halts (halts x)

section Callee

variable (ob : h.Obeys rules)

include ob

theorem endsWithHosts_getByKey (receiver : Value) (key : Key) :
    EndsWithHosts rules h (getByKey receiver key) := by
  cases key with
  | named name => exact endsWithHosts_getNamed ob receiver name
  | computed key => exact endsWithHosts_getKeyed ob receiver key

theorem endsWithHosts_calleeByKey (receiver : Value) (key : Key) :
    EndsWithHosts rules h (calleeByKey receiver key) :=
  (endsWithHosts_getByKey ob receiver key).bind_halts
    ((accessClosed_keepsEnding rules).getByKey ob receiver key) fun _ =>
      halts_get.bind fun _ => halts_pure _

/-- A stub for calls ends with the hosts that it calls. -/
theorem endsWithHosts_runCall (spec : StubSpec) (receiver : Value) (key : Key) (args : List Value) :
    EndsWithHosts rules h (runCall spec receiver key args) := by
  by_cases special : spec.handler = .generic
  · have read : runCall spec receiver key args = calleeByKey receiver key := by
      simp only [runCall, special]
    rw [read]
    exact endsWithHosts_calleeByKey ob receiver key
  · rcases runCall_cases special args with ⟨outcome, quiet⟩ | ⟨at', n, -, -, -, read⟩
    · exact (endsWithHosts_congr (b := pure outcome) quiet).mpr
        (endsWithHosts_of_halts (halts_pure _))
    · refine (endsWithHosts_congr read).mpr ?_
      exact (endsWithHosts_getProperty ob receiver n).bind_halts
        ((accessClosed_keepsEnding rules).getProperty ob receiver n) fun _ =>
          halts_get.bind fun _ => halts_pure _

/-- What a site does with its stub ends with the hosts that it calls. -/
theorem endsWithHosts_callBy (stub : Stub) (receiver : Value) (key : Key) (args : List Value)
    (found : Option StubSpec) : EndsWithHosts rules h (callBy stub receiver key args found) := by
  have first : EndsWithHosts rules h (runFound receiver key args found) ∧
      KeepsEnding rules h (runFound receiver key args found h).2 := by
    cases found with
    | none => exact ⟨endsWithHosts_of_halts (halts_pure _), ob.relays.keepsEnding rfl⟩
    | some spec =>
      exact ⟨endsWithHosts_runCall ob spec receiver key args,
        (accessClosed_keepsEnding rules).runCall ob receiver key args⟩
  refine first.1.bind first.2 fun outcome g _ ob' => ?_
  cases outcome with
  | hit f => exact endsWithHosts_of_halts (halts_pure _)
  | _ =>
    rw [afterCall_of_miss (by simp)]
    split
    · split
      · exact endsWithHosts_of_halts (halts_pure _)
      · exact endsWithHosts_calleeByKey ob' receiver key
    · exact endsWithHosts_of_halts (halts_pure _)

theorem endsWithHosts_method (receiver : Value) (name : Name) :
    EndsWithHosts rules h (method receiver name) := by
  unfold method
  rw [endsWithHosts_get]
  split
  · exact endsWithHosts_of_halts (halts_raise _)
  · unfold readMethod
    split
    · exact endsWithHosts_of_halts (halts_raise _)
    · exact (endsWithHosts_readLookup ob receiver _ name).bind_halts
        ((accessClosed_keepsEnding rules).readLookup ob receiver _ name) fun f =>
          halts_requireCallable receiver f _

/-- Resolving a name ends with the hosts that it calls. -/
theorem endsWithHosts_namedCallee (receiver : Value) (name : Name) :
    EndsWithHosts rules h (namedCallee receiver name) := by
  unfold namedCallee
  rw [endsWithHosts_get]
  split
  · exact endsWithHosts_of_halts (halts_raise _)
  · refine (endsWithHosts_of_halts (halts_elementNamed receiver name)).bind
      ((accessClosed_keepsEnding rules).elementNamed ob receiver name) fun element g _ ob' => ?_
    unfold elementOrMethod
    rw [endsWithHosts_get]
    cases element.filter g.isCallable with
    | some f => exact endsWithHosts_of_halts (halts_pure f)
    | none => exact endsWithHosts_method ob' receiver name

/-- Resolving a key ends with the hosts that it calls. -/
theorem endsWithHosts_keyedCallee (receiver key : Value) :
    EndsWithHosts rules h (keyedCallee receiver key) := by
  unfold keyedCallee
  rw [endsWithHosts_get]
  cases (Key.computed key).name? h with
  | some name => exact endsWithHosts_namedCallee ob receiver name
  | none =>
    dsimp only
    split
    · exact endsWithHosts_of_halts (halts_raise _)
    · exact (endsWithHosts_getKeyed ob receiver key).bind_halts
        ((accessClosed_keepsEnding rules).getKeyed ob receiver key) fun f =>
          halts_requireCallable receiver f _

end Callee

end Heap

namespace AtSite

variable {rules : Rules} {s t : AtSite} {α β : Type}

/-! ### Sites -/

/-- Where delegation ends, the action at the site ends whenever the host functions do that it calls. -/
def EndsWithHosts (rules : Rules) (s : AtSite) (a : Action α) : Prop :=
  s.engine.heap.host.ClosesNoCycle rules → s.engine.heap.DelegationEnds → IsEndless (a s) →
    ∃ c ∈ s.engine.heap.callsSince (a s).2.engine.heap, ¬ c.HostEnds s.engine.heap.host

theorem endsWithHosts_onHeap {a : Heap.Action α} (e : Heap.EndsWithHosts rules s.engine.heap a) :
    EndsWithHosts rules s (onHeap a) := e

theorem endsWithHosts_pure (x : α) : EndsWithHosts rules s (pure x) :=
  fun _ _ endless => absurd endless (halts_pure x s)

/-- The rule for sequences. -/
theorem EndsWithHosts.bind {a : Action α} {f : α → Action β} (ha : EndsWithHosts rules s a)
    (k : Across rules (Heap.KeepsEnding rules) s a)
    (hf : ∀ x t, a s = (.ok x, t) → t.Sound rules → EndsWithHosts rules t (f x)) :
    EndsWithHosts rules s (a >>= f) := by
  intro host ends endless
  obtain ⟨sound, k⟩ := k
  rcases e : a s with ⟨fault | x, t⟩
  · rw [bind_error e] at endless ⊢
    have first := ha host ends
    rw [e] at first
    exact first (by obtain ⟨x, ex, hx⟩ := endless; cases ex; exact ⟨fault, rfl, hx⟩)
  · rw [bind_ok e] at endless ⊢
    rw [e] at sound k
    have later := hf x t e sound (k.leads.host ▸ host) (k.ends host ends) endless
    rw [k.leads.host] at later
    obtain ⟨c, mem, endless⟩ := later
    exact ⟨c, List.drop_subset_drop_left _ k.leads.log.length_le mem, endless⟩

/-- An action that does what one of the heap does ends like that, since upkeep calls nothing. -/
theorem Performs.endsWithHosts {a : Action α} {b : Heap.Action α} (p : Performs rules s a b)
    (ss : s.Sound rules) (hb : ∀ g, g.Obeys rules → Heap.EndsWithHosts rules g b) :
    EndsWithHosts rules s a := by
  intro host ends endless
  obtain ⟨g, before, result, after⟩ := p.run
  have k := (Heap.accessClosed_keepsEnding rules).bare ss.engine.heap before.bare before.log
  have endless : IsEndless (b g) := by
    obtain ⟨e, fault, forever⟩ := endless
    exact ⟨e, result.symm.trans fault, forever⟩
  obtain ⟨c, mem, goes⟩ := hb g k.leads.obeys (k.leads.host ▸ host) (k.ends host ends) endless
  refine ⟨c, ?_, k.leads.host ▸ goes⟩
  rwa [Heap.callsSince, after.log, ← before.log]

section Calls

variable (ss : s.Sound rules)

include ss

/-- The part of a call before a miss ends with the hosts that it calls. -/
theorem dispatchCall_endsWithHosts (receiver : Value) (key : Key) (args : List Value) :
    EndsWithHosts rules s (dispatchCall receiver key args) := by
  obtain ⟨found, t, consulted, kept, -, heap, -⟩ := consult_kept ss receiver key
  have run : dispatchCall receiver key args s =
      onHeap (Heap.callBy s.site.target receiver key args found) t := by
    rw [dispatchCall_eq]
    exact bind_ok consulted
  have ends := endsWithHosts_onHeap (s := t)
    (Heap.endsWithHosts_callBy kept.sound.engine.heap s.site.target receiver key args found)
  rwa [EndsWithHosts, ← run, heap] at ends

/-- A call by name ends with the hosts that it calls. -/
theorem call_endsWithHosts (receiver : Value) (name : Name) (args : List Value) :
    EndsWithHosts rules s (call receiver name args) := by
  have c := Heap.accessClosed_keepsEnding rules
  have invoke {t : AtSite} (ts : t.Sound rules) (f : Value) :
      EndsWithHosts rules t (onHeap (Heap.call f receiver args)) :=
    endsWithHosts_onHeap (Heap.endsWithHosts_call ts.engine.heap f receiver args)
  unfold call
  refine (dispatchCall_endsWithHosts ss receiver (.named name) args).bind
    (dispatchCall_across c ss receiver (.named name) args) fun outcome t _ ts => ?_
  cases outcome with
  | hit f => exact (endsWithHosts_pure f).bind (across_pure c ts) fun f u _ us => invoke us f
  | _ =>
    have resolve := (resolveCall_performs ts receiver name args).endsWithHosts ts fun g ob =>
      Heap.endsWithHosts_namedCallee ob receiver name
    exact resolve.bind (resolveCall_across c ts receiver name args) fun f u _ us => invoke us f

/-- A call by key ends with the hosts that it calls. -/
theorem keyedCall_endsWithHosts (receiver key : Value) (args : List Value) :
    EndsWithHosts rules s (keyedCall receiver key args) := by
  have c := Heap.accessClosed_keepsEnding rules
  have invoke {t : AtSite} (ts : t.Sound rules) (f : Value) :
      EndsWithHosts rules t (onHeap (Heap.call f receiver args)) :=
    endsWithHosts_onHeap (Heap.endsWithHosts_call ts.engine.heap f receiver args)
  unfold keyedCall
  refine (dispatchCall_endsWithHosts ss receiver (.computed key) args).bind
    (dispatchCall_across c ss receiver (.computed key) args) fun outcome t _ ts => ?_
  cases outcome with
  | hit f => exact (endsWithHosts_pure f).bind (across_pure c ts) fun f u _ us => invoke us f
  | _ =>
    have resolve := (resolveKeyedCall_performs ts receiver key args).endsWithHosts ts fun g ob =>
      Heap.endsWithHosts_keyedCallee ob receiver key
    exact resolve.bind (resolveKeyedCall_across c ts receiver key args) fun f u _ us => invoke us f

end Calls

end AtSite

end Speculation
