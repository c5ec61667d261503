import Speculation.Proofs.Heap.Delegation

/-!
# Calls that end

A call is passed on from handler to handler, until it arrives at a value that passes nothing on. Where
delegation ends, it arrives after at most as many steps as there are cells. So the bound of `call` cuts
off exactly the calls that are passed on forever (`call_eq_endlessCall_iff`), and a call that arrives is
one of its target: it is refused, or it runs a function, and then it ends if that does
(`Arrives.faresLike`).

Reading a property may call a getter. Such an action `EndsWithHosts`: if it goes on forever, one of the
calls that it made arrived at a function of the host that does.
-/

namespace Speculation

/-- The fault stands for a computation that goes on forever. -/
def Fault.Endless (e : Fault) : Prop := e = .endlessCall ∨ e = .endlessHost

namespace Computation

variable {σ α β : Type} {a : ExceptT Fault (StateM σ) α} {f : α → ExceptT Fault (StateM σ) β} {s : σ}

/-- The computation did not come to an end. -/
def IsEndless (r : Except Fault α × σ) : Prop := ∃ e, r.1 = .error e ∧ e.Endless

/-- The computation comes to an end in every state. -/
def Halts (a : ExceptT Fault (StateM σ) α) : Prop := ∀ s, ¬ IsEndless (a s)

/-- A sequence goes on forever if one of its parts does. -/
theorem isEndless_bind : IsEndless ((a >>= f) s) ↔
    IsEndless (a s) ∨ ∃ x t, a s = (.ok x, t) ∧ IsEndless (f x t) := by
  rcases e : a s with ⟨fault | x, t⟩
  · rw [bind_error e]
    constructor
    · rintro ⟨_, ⟨⟩, endless⟩
      exact .inl ⟨fault, rfl, endless⟩
    · rintro (⟨_, ⟨⟩, endless⟩ | ⟨_, _, ⟨⟩, _⟩)
      exact ⟨fault, rfl, endless⟩
  · rw [bind_ok e]
    constructor
    · exact fun endless => .inr ⟨x, t, rfl, endless⟩
    · rintro (⟨_, ⟨⟩, _⟩ | ⟨_, _, ⟨⟩, endless⟩)
      exact endless

theorem halts_pure (x : α) : Halts (pure x : ExceptT Fault (StateM σ) α) := by
  rintro s ⟨_, ⟨⟩, _⟩

theorem halts_throw {e : Fault} (other : ¬ e.Endless) :
    Halts (throw e : ExceptT Fault (StateM σ) α) := by
  rintro s ⟨_, ⟨⟩, endless⟩
  exact other endless

theorem halts_get : Halts (get : ExceptT Fault (StateM σ) σ) := by
  rintro s ⟨_, ⟨⟩, _⟩

theorem halts_set (t : σ) : Halts (set t : ExceptT Fault (StateM σ) PUnit) := by
  rintro s ⟨_, ⟨⟩, _⟩

theorem halts_modify (g : σ → σ) : Halts (modify g : ExceptT Fault (StateM σ) PUnit) := by
  rintro s ⟨_, ⟨⟩, _⟩

theorem Halts.bind (ha : Halts a) (hf : ∀ x, Halts (f x)) : Halts (a >>= f) := by
  intro s endless
  rcases isEndless_bind.mp endless with endless | ⟨x, t, -, endless⟩
  · exact ha s endless
  · exact hf x t endless

theorem Halts.ite {p : Prop} [Decidable p] {b : ExceptT Fault (StateM σ) α} (ha : Halts a)
    (hb : Halts b) : Halts (if p then a else b) := by
  split
  · exact ha
  · exact hb

end Computation

open Speculation.Computation

variable {rules : Rules} {h h' : Heap} {callee receiver target receiver' : Value}
  {args : List Value} {α β : Type}

namespace Heap

/-! ### Actions that call nothing -/

theorem halts_raise (e : Exception) : Halts (raise e : Action α) := halts_throw (by simp [Fault.Endless])

theorem halts_allocate (c : Cell) : Halts (allocate c) :=
  halts_get.bind fun _ =>
    .ite ((halts_set _).bind fun _ => halts_pure _) (halts_throw (by simp [Fault.Endless]))

theorem halts_newString (s : String) : Halts (newString s) :=
  (halts_allocate _).bind fun _ => halts_pure _

theorem halts_boxNumber (d : Double) : Halts (boxNumber d) :=
  (halts_allocate _).bind fun _ => halts_pure _

theorem halts_thisString (method : String) (receiver : Value) : Halts (thisString method receiver) :=
  halts_get.bind fun h => by
    split
    · exact halts_pure _
    · split
      · exact halts_pure _
      · exact halts_raise _

theorem halts_getElement (receiver : Value) (index : Nat) : Halts (getElement receiver index) :=
  halts_get.bind fun h => by
    cases (h.indexedString? receiver).bind fun s => (Text.units s)[index]? with
    | some u => exact halts_newString _
    | none => exact halts_pure _

theorem halts_nameOfKey (key : Value) : Halts (nameOfKey key) :=
  halts_get.bind fun _ => (halts_modify _).bind fun _ => halts_pure _

/-! ### Functions of the host -/

/-- The host function that a call of a value runs. -/
def host? (h : Heap) (v : Value) : Option HostFunction := (h.functionData? v).bind (·.host)

/-- Of the functions that can be called, only those that the host provides may go on forever. -/
theorem runHost_isEndless_iff (f : HostFunction) (receiver : Value) (args : List Value) (h : Heap) :
    IsEndless (runHost f receiver args h) ↔
      ∃ i, f = .provided i ∧ IsEndless (h.host.run i receiver args h.toMemory) := by
  have halts {f : HostFunction} (ends : Halts (runHost f receiver args)) (other : ∀ i, f ≠ .provided i) :
      IsEndless (runHost f receiver args h) ↔
        ∃ i, f = .provided i ∧ IsEndless (h.host.run i receiver args h.toMemory) :=
    iff_of_false (ends h) fun ⟨i, e, _⟩ => other i e
  cases f with
  | provided i =>
    simp only [runHost, IsEndless, HostFunction.provided.injEq, exists_eq_left']
    cases (h.host.run i receiver args h.toMemory).1 with
    | ok v => simp [Except.mapError]
    | error e => cases e <;> simp [Except.mapError, Fault.inHost, Fault.Endless]
  | charAt =>
    refine halts ((halts_thisString _ _).bind fun s => halts_get.bind fun g => ?_) (by simp)
    cases g.position? args (Text.units s).length with
    | some i => exact halts_newString _
    | none => exact halts_newString _
  | charCodeAt =>
    refine halts ((halts_thisString _ _).bind fun s => halts_get.bind fun g => ?_) (by simp)
    cases g.position? args (Text.units s).length with
    | some i => exact halts_pure _
    | none => exact halts_boxNumber _

/-- Functions of the host are not cut off by the bound of calls. -/
theorem runHost_ne_endlessCall (f : HostFunction) (receiver : Value) (args : List Value) (h : Heap) :
    (runHost f receiver args h).1 ≠ .error .endlessCall := by
  intro cut
  obtain ⟨i, rfl, -⟩ := (runHost_isEndless_iff f receiver args h).mp ⟨_, cut, .inl rfl⟩
  simp only [runHost] at cut
  cases e : (h.host.run i receiver args h.toMemory).1 with
  | ok v =>
    rw [e] at cut
    cases cut
  | error x =>
    rw [e] at cut
    cases x <;> cases cut

/-! ### What is called -/

/-- A value that is no function refuses the call. -/
theorem enter_of_notFunction (none : h.functionData? callee = none) (receiver : Value)
    (args : List Value) : enter callee receiver args h =
      (.error (.raised (.notCallable (h.describe callee))), h) := by
  simp only [enter, Computation.get_bind, none]
  rfl

/-- A function that the host does not provide refuses the call. -/
theorem enter_of_interpreted {data : FunctionData} (function : h.functionData? callee = some data)
    (none : data.host = none) (receiver : Value) (args : List Value) :
    enter callee receiver args h =
      (.error (.refused (.interpretedFunction (h.sharedInfo data.shared).name)), h) := by
  simp only [enter, Computation.get_bind, function, none]
  rfl

/-- A function of the host is run. -/
theorem enter_of_host? {f : HostFunction} (runs : h.host? callee = some f) (receiver : Value)
    (args : List Value) : enter callee receiver args h = runHost f receiver args h := by
  obtain ⟨data, function, host⟩ := Option.bind_eq_some_iff.mp runs
  simp only [enter, Computation.get_bind, function, host]

/-- Entering a function goes on forever if it is one of the host that does. -/
theorem enter_isEndless_iff (callee receiver : Value) (args : List Value) (h : Heap) :
    IsEndless (enter callee receiver args h) ↔
      ∃ i, h.host? callee = some (.provided i) ∧ IsEndless (h.host.run i receiver args h.toMemory) := by
  cases runs : h.host? callee with
  | some f =>
    rw [enter_of_host? runs, runHost_isEndless_iff]
    simp only [Option.some.injEq]
  | none =>
    refine iff_of_false ?_ (by simp)
    cases function : h.functionData? callee with
    | none =>
      rw [enter_of_notFunction function]
      exact halts_raise _ h
    | some data =>
      rw [enter_of_interpreted function (by simpa [host?, function] using runs)]
      exact halts_throw (by simp [Fault.Endless]) h

/-- Entering a function is not cut off. -/
theorem enter_ne_endlessCall (callee receiver : Value) (args : List Value) (h : Heap) :
    (enter callee receiver args h).1 ≠ .error .endlessCall := by
  simp only [enter, Computation.get_bind]
  cases h.functionData? callee with
  | none => simp [raise]
  | some data =>
    dsimp only
    cases data.host with
    | some f => exact runHost_ne_endlessCall f receiver args h
    | none => simp

/-! ### Where calls arrive -/

/-- The call that an object passes on: it calls what it delegates to, for itself. -/
def passOn? (h : Heap) (p : Value × Value) : Option (Value × Value) :=
  (h.delegate? p.1).map fun d => (d, p.1)

/-- A call is passed on until it is a call of the target. -/
def Arrives (h : Heap) (callee receiver target receiver' : Value) : Prop :=
  (∃ n ≤ h.cells.size, follow h.passOn? n (callee, receiver) = some (target, receiver')) ∧
    h.delegate? target = none

/-- What a call is passed on to is the delegate of the one before. -/
theorem follow_passOn? (n : Nat) (callee receiver : Value) :
    (follow h.passOn? n (callee, receiver)).map Prod.fst = follow h.delegate? n callee := by
  induction n generalizing callee receiver with
  | zero => rfl
  | succ n ih =>
    rw [follow, follow, passOn?]
    cases h.delegate? callee with
    | none => rfl
    | some d => exact ih d callee

/-- A call arrives where its path ends. -/
theorem arrives_of_pathEnds (ends : PathEnds h.delegate? callee) (receiver : Value) :
    ∃ target receiver', h.Arrives callee receiver target receiver' := by
  obtain ⟨n, bound, target, path, last⟩ := ends.within fun _ _ _ => mem_references_of_delegate?
  rw [← follow_passOn? n callee receiver] at path
  obtain ⟨⟨_, receiver'⟩, arrived, rfl⟩ := Option.map_eq_some_iff.mp path
  exact ⟨_, receiver', ⟨n, bound.trans h.card_references_le, arrived⟩, last⟩

/-- Where delegation ends, every call arrives. -/
theorem DelegationEnds.arrives (ends : h.DelegationEnds) (callee receiver : Value) :
    ∃ target receiver', h.Arrives callee receiver target receiver' :=
  arrives_of_pathEnds (ends callee) receiver

/-- A call is passed on, or enters. -/
theorem invoke_succ (depth : Nat) (callee receiver : Value) (args : List Value) (h : Heap) :
    invoke (depth + 1) callee receiver args h =
      match h.delegate? callee with
      | some d => invoke depth d callee args h
      | none => enter callee receiver args h := by
  simp only [invoke, Computation.get_bind]
  cases h.delegate? callee <;> rfl

/-- A call that was passed on is one of the value that it was passed to. -/
theorem invoke_of_passOn {n : Nat} (depth : Nat)
    (path : follow h.passOn? n (callee, receiver) = some (target, receiver')) :
    invoke (depth + n) callee receiver args h = invoke depth target receiver' args h := by
  induction n generalizing callee receiver with
  | zero =>
    cases path
    rfl
  | succ n ih =>
    rw [follow, passOn?] at path
    rw [← Nat.add_assoc, invoke_succ]
    cases delegate : h.delegate? callee with
    | none => simp [delegate] at path
    | some d =>
      rw [delegate] at path
      exact ih path

/-- A call that arrives is a call of the target. -/
theorem Arrives.call_eq (a : h.Arrives callee receiver target receiver') (args : List Value) :
    call callee receiver args h = enter target receiver' args (h.noteCall callee receiver args) := by
  obtain ⟨⟨n, bound, path⟩, last⟩ := a
  have depth : h.cells.size + 1 = h.cells.size - n + 1 + n := by omega
  rw [call_apply, depth, invoke_of_passOn (h := h.noteCall callee receiver args) _ path, invoke_succ]
  simp only [show (h.noteCall callee receiver args).delegate? target = none from last]

/-! ### The bound of calls -/

/-- A call that is passed on too often is cut off. -/
theorem invoke_of_long {depth : Nat} (long : (follow h.delegate? depth callee).isSome) :
    invoke depth callee receiver args h = (.error .endlessCall, h) := by
  induction depth generalizing callee receiver with
  | zero => rfl
  | succ depth ih =>
    rw [follow] at long
    rw [invoke_succ]
    cases delegate : h.delegate? callee with
    | none => simp [delegate] at long
    | some d =>
      rw [delegate] at long
      exact ih long

/-- **The bound of calls cuts off exactly the calls that are passed on forever.** -/
theorem call_eq_endlessCall_iff (callee receiver : Value) (args : List Value) (h : Heap) :
    (call callee receiver args h).1 = .error .endlessCall ↔ ¬ PathEnds h.delegate? callee := by
  constructor
  · intro cut ends
    obtain ⟨target, receiver', arrives⟩ := arrives_of_pathEnds ends receiver
    rw [arrives.call_eq] at cut
    exact enter_ne_endlessCall _ _ _ _ cut
  · intro forever
    rw [call_apply]
    exact congrArg Prod.fst (invoke_of_long (h := h.noteCall callee receiver args)
      (not_pathEnds_iff.mp forever _))

/-- A call that fares like one of the target: it is refused where the target runs no host function, and
otherwise does what that does. It goes on forever only if this is a function of the host that does. -/
structure FaresLike (h : Heap) (callee receiver : Value) (args : List Value)
    (target receiver' : Value) : Prop where
  notCallable : h.functionData? target = none → call callee receiver args h =
    (.error (.raised (.notCallable (h.describe target))), h.noteCall callee receiver args)
  interpreted : ∀ data, h.functionData? target = some data → data.host = none →
    call callee receiver args h =
      (.error (.refused (.interpretedFunction (h.sharedInfo data.shared).name)),
        h.noteCall callee receiver args)
  result : ∀ f, h.host? target = some f →
    call callee receiver args h = runHost f receiver' args (h.noteCall callee receiver args)
  endless : IsEndless (call callee receiver args h) ↔ ∃ i, h.host? target = some (.provided i) ∧
    IsEndless (h.host.run i receiver' args h.toMemory)

/-- **A call ends whenever the host function does that it arrives at.** -/
theorem Arrives.faresLike (a : h.Arrives callee receiver target receiver') (args : List Value) :
    h.FaresLike callee receiver args target receiver' := by
  have same := a.call_eq args
  -- What is called does not depend on the note.
  let noted := h.noteCall callee receiver args
  exact {
    notCallable := fun none => same.trans (enter_of_notFunction (h := noted) none receiver' args)
    interpreted := fun _ function none =>
      same.trans (enter_of_interpreted (h := noted) function none receiver' args)
    result := fun _ runs => same.trans (enter_of_host? (h := noted) runs receiver' args)
    endless := by
      rw [same]
      exact enter_isEndless_iff target receiver' args noted }

end Heap

/-! ### Actions that make calls -/

/-- The host function ends at which the call arrives. -/
def Invocation.HostEnds (c : Invocation) (host : Host) : Prop :=
  ∀ target receiver i, (c.heap host).Arrives c.callee c.receiver target receiver →
    (c.heap host).host? target = some (.provided i) →
    ¬ IsEndless (host.run i receiver c.args c.memory)

namespace Heap

/-- Where delegation ends, the action ends whenever the host functions do that it calls. -/
def EndsWithHosts (rules : Rules) (h : Heap) (a : Action α) : Prop :=
  h.host.ClosesNoCycle rules → h.DelegationEnds → IsEndless (a h) →
    ∃ c ∈ h.callsSince (a h).2, ¬ c.HostEnds h.host

theorem endsWithHosts_of_halts {a : Action α} (halts : Halts a) : EndsWithHosts rules h a :=
  fun _ _ endless => absurd endless (halts h)

/-- The rule for sequences. -/
theorem EndsWithHosts.bind {a : Action α} {f : α → Action β} (ha : EndsWithHosts rules h a)
    (k : KeepsEnding rules h (a h).2)
    (hf : ∀ x h', a h = (.ok x, h') → h'.Obeys rules → EndsWithHosts rules h' (f x)) :
    EndsWithHosts rules h (a >>= f) := by
  intro host ends endless
  rcases e : a h with ⟨fault | x, g⟩
  · rw [bind_error e] at endless ⊢
    have first := ha host ends
    rw [e] at first
    exact first (by obtain ⟨x, ex, hx⟩ := endless; cases ex; exact ⟨fault, rfl, hx⟩)
  · rw [bind_ok e] at endless ⊢
    rw [e] at k
    have later := hf x g e k.leads.obeys (k.leads.host ▸ host) (k.ends host ends) endless
    rw [k.leads.host] at later
    obtain ⟨c, mem, endless⟩ := later
    exact ⟨c, List.drop_subset_drop_left _ k.leads.log.length_le mem, endless⟩

theorem endsWithHosts_get {f : Heap → Action α} :
    EndsWithHosts rules h (get >>= f) ↔ EndsWithHosts rules h (f h) := Iff.rfl

variable (ob : h.Obeys rules)

include ob

/-- A call ends with the hosts that it arrives at. -/
theorem endsWithHosts_call (callee receiver : Value) (args : List Value) :
    EndsWithHosts rules h (call callee receiver args) := by
  intro _ ends endless
  have noted := noteCall_leads ob callee receiver args
  have leads := (callClosed_leads rules).invoke (h.cells.size + 1) callee receiver args noted.obeys
  have mem : (⟨h.toMemory, callee, receiver, args⟩ : Invocation) ∈
      h.callsSince (call callee receiver args h).2 := by
    have noting : h.callsSince (h.noteCall callee receiver args) =
        [⟨h.toMemory, callee, receiver, args⟩] := callsSince_of_append rfl
    rw [call_apply, noted.callsSince_trans leads, noting]
    exact List.mem_append_left _ (List.mem_singleton_self _)
  refine ⟨_, mem, fun hosts => ?_⟩
  obtain ⟨target, receiver', arrives⟩ := ends.arrives callee receiver
  obtain ⟨i, runs, endless⟩ := (arrives.faresLike args).endless.mp endless
  exact hosts target receiver' i arrives runs endless

theorem endsWithHosts_callGetter (getter receiver : Value) :
    EndsWithHosts rules h (callGetter getter receiver) := by
  unfold callGetter
  rw [endsWithHosts_get]
  split
  · exact endsWithHosts_call ob getter receiver []
  · exact endsWithHosts_of_halts (halts_pure _)

theorem endsWithHosts_readReal (receiver : Value) (found : Lookup) (name : Name) :
    EndsWithHosts rules h (readReal receiver found name) := by
  cases found with
  | property holder kind a =>
    cases kind with
    | accessor getter _ => exact endsWithHosts_callGetter ob getter receiver
    | constant v => exact endsWithHosts_of_halts (halts_pure v)
    | _ => exact endsWithHosts_of_halts (halts_get.bind fun _ => halts_pure _)
  | _ => exact endsWithHosts_of_halts (halts_pure _)

theorem endsWithHosts_readLookup (receiver : Value) (found : Lookup) (name : Name) :
    EndsWithHosts rules h (readLookup receiver found name) := by
  cases found with
  | interceptor holder =>
    unfold readLookup
    rw [endsWithHosts_get]
    cases h.interceptorValue? holder name with
    | some v => exact endsWithHosts_of_halts (halts_pure v)
    | none => exact endsWithHosts_get.mpr (endsWithHosts_readReal ob receiver _ name)
  | notFound => exact endsWithHosts_readReal ob receiver .notFound name
  | property holder kind a => exact endsWithHosts_readReal ob receiver (.property holder kind a) name
  | transition holder t d => exact endsWithHosts_readReal ob receiver (.transition holder t d) name

/-- Reading a property ends with the getter that it calls. -/
theorem endsWithHosts_getProperty (receiver : Value) (name : Name) :
    EndsWithHosts rules h (getProperty receiver name) := by
  unfold getProperty
  rw [endsWithHosts_get]
  cases h.intrinsic? receiver name with
  | some v => exact endsWithHosts_of_halts (halts_pure v)
  | none => exact endsWithHosts_get.mpr (endsWithHosts_readLookup ob receiver _ name)

theorem endsWithHosts_getNamed (receiver : Value) (name : Name) :
    EndsWithHosts rules h (getNamed receiver name) := by
  unfold getNamed
  split
  · exact endsWithHosts_of_halts (halts_get.bind fun _ => halts_raise _)
  · exact endsWithHosts_getProperty ob receiver name

theorem endsWithHosts_getKeyed (receiver key : Value) :
    EndsWithHosts rules h (getKeyed receiver key) := by
  unfold getKeyed
  rw [endsWithHosts_get]
  split
  · exact endsWithHosts_of_halts (halts_raise _)
  · cases h.arrayIndex? key with
    | some i => exact endsWithHosts_of_halts (halts_getElement receiver i)
    | none =>
      refine (endsWithHosts_of_halts (halts_nameOfKey key)).bind
        ((storeClosed_keepsEnding rules).nameOfKey ob key) fun n _ _ ob' => ?_
      exact endsWithHosts_getProperty ob' receiver n

end Heap

end Speculation
