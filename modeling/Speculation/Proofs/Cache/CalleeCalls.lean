import Speculation.Proofs.Cache.Callee
import Speculation.Proofs.Heap.Delegation

/-!
# The calls of a keyed call

A keyed call finds a function before it calls it. By the general rules (`Heap.keyedCallee`) this calls
at most one getter, which `Heap.calleeCalls` tells, and the function comes after it
(`Heap.log_keyedCall`).
-/

namespace Speculation

namespace Heap

variable {h g : Heap} {receiver key f : Value} {name : Name} {args : List Value}

/-- The calls that it takes to read `receiver[key]`. -/
def keyedCalls (h : Heap) (receiver key : Value) : List Invocation :=
  if receiver.isNullish || (h.arrayIndex? key).isSome then []
  else
    let name : Name := ⟨h.toText key⟩
    let h := h.intern name
    h.getterCalls receiver (h.propertyGetter? receiver name)

/-- The calls that it takes to find what `receiver.name(…)` calls. An element comes first if it can be
called, without a getter. -/
def namedCalleeCalls (h : Heap) (receiver : Value) (name : Name) : List Invocation :=
  if receiver.isNullish then []
  else
    match elementNamed receiver name h with
    | (.ok element, h) =>
      if (element.filter h.isCallable).isSome then []
      else h.getterCalls receiver (h.getter? name (h.lookup receiver name))
    | (.error _, _) => []

/-- The calls that it takes to find what `receiver[key](…)` calls. -/
def calleeCalls (h : Heap) (receiver key : Value) : List Invocation :=
  match (Key.computed key).name? h with
  | some name => h.namedCalleeCalls receiver name
  | none => h.keyedCalls receiver key

/-- `receiver[key](args)` by the general rules. -/
def keyedCall (receiver key : Value) (args : List Value) : Action Value := do
  let f ← keyedCallee receiver key
  call f receiver args

/-- The calls of `receiver[key](args)` by the general rules: the getter of the property, if it has
one, and what was found. -/
def keyedCallCalls (h : Heap) (receiver key : Value) (args : List Value) : List Invocation :=
  h.calleeCalls receiver key ++
    match keyedCallee receiver key h with
    | (.ok f, g) => [⟨g.toMemory, f, receiver, args⟩]
    | (.error _, _) => []

/-! ### What is listed on the way -/

theorem callsNothing_raise {α : Type} (e : Exception) : CallsNothing (raise e : Action α) :=
  callsNothing_throw _

theorem callsNothing_requireCallable (receiver f : Value) (text : Heap → String) :
    CallsNothing (requireCallable receiver f text) :=
  callsNothing_get fun h => by
    split
    · exact callsNothing_pure _
    · exact callsNothing_raise _

theorem callsNothing_elementNamed (receiver : Value) (name : Name) :
    CallsNothing (elementNamed receiver name) := by
  unfold elementNamed
  split
  · rw [map_eq_pure_bind]
    exact (callsNothing_getElement receiver _).bind fun _ => callsNothing_pure _
  · exact callsNothing_pure _

/-- The calls before a last step that calls nothing. -/
theorem log_bind {α β : Type} {a : Action α} {next : α → Action β}
    (silent : ∀ x, CallsNothing (next x)) (h : Heap) :
    ((a >>= next) h).2.invocations = (a h).2.invocations := by
  rcases e : a h with ⟨fault | x, g⟩
  · rw [Computation.bind_error e]
  · rw [Computation.bind_ok e]
    exact silent x g

/-- Reading by a key calls the getter, if there is one, and nothing else. -/
theorem log_getKeyed (receiver key : Value) (h : Heap) :
    (getKeyed receiver key h).2.invocations = h.invocations ++ h.keyedCalls receiver key := by
  simp only [getKeyed, Computation.get_bind, keyedCalls]
  cases receiver.isNullish with
  | true => exact (List.append_nil _).symm
  | false =>
    cases h.arrayIndex? key with
    | some i => exact (callsNothing_getElement receiver i h).trans (List.append_nil _).symm
    | none =>
      have spelled : nameOfKey key h = (.ok ⟨h.toText key⟩, h.intern ⟨h.toText key⟩) := rfl
      have same : (h.intern ⟨h.toText key⟩).invocations = h.invocations :=
        log_of_outside (h.outside_intern _)
      rw [if_neg Bool.false_ne_true]
      dsimp only
      rw [Computation.bind_ok spelled, log_getProperty, same]
      rfl

theorem log_readMethod (receiver : Value) (found : Lookup) (name : Name) (h : Heap) :
    (h.readMethod receiver found name h).2.invocations =
      h.invocations ++ h.getterCalls receiver (h.getter? name found) := by
  unfold readMethod
  by_cases silent : h.answersNothing found name
  · rw [if_pos silent]
    -- An interceptor without an answer, which hides nothing, leads to no getter.
    have none : h.getter? name found = none := by
      cases found with
      | interceptor holder =>
        simp only [answersNothing, Bool.and_eq_true, Option.isNone_iff_eq_none,
          Bool.not_eq_true'] at silent
        cases hr : h.lookupReal holder name with
        | notFound => simp only [getter?, silent.1, hr]; rfl
        | _ => simp [hr, Lookup.isFound] at silent
      | _ => cases silent
    rw [none]
    exact (List.append_nil _).symm
  · rw [if_neg silent, log_bind fun f => callsNothing_requireCallable receiver f _]
    exact log_readLookup receiver found name h

/-- Reading a method calls its getter, if it has one, and nothing else. -/
theorem log_method (receiver : Value) (name : Name) (h : Heap) :
    (method receiver name h).2.invocations =
      h.invocations ++ h.getterCalls receiver (h.getter? name (h.lookup receiver name)) := by
  simp only [method, Computation.get_bind]
  split
  · rename_i missing
    cases hl : h.lookup receiver name with
    | notFound => exact (List.append_nil _).symm
    | _ => simp [hl, Lookup.isFound] at missing
  · exact log_readMethod receiver _ name h

/-- Resolving a name calls what `namedCalleeCalls` lists. -/
theorem log_namedCallee (receiver : Value) (name : Name) (h : Heap) :
    (namedCallee receiver name h).2.invocations =
      h.invocations ++ h.namedCalleeCalls receiver name := by
  simp only [namedCallee, Computation.get_bind, namedCalleeCalls]
  split
  · exact (List.append_nil _).symm
  · have silent := callsNothing_elementNamed receiver name h
    rcases e : elementNamed receiver name h with ⟨fault | element, g⟩
    all_goals rw [e] at silent
    · rw [Computation.bind_error e]
      exact silent.trans (List.append_nil _).symm
    · rw [Computation.bind_ok e, elementOrMethod, Computation.get_bind, ← silent]
      dsimp only
      cases element.filter g.isCallable with
      | some f => exact (List.append_nil _).symm
      | none => exact log_method receiver name g

/-- Resolving a key calls what `calleeCalls` lists. -/
theorem log_keyedCallee (receiver key : Value) (h : Heap) :
    (keyedCallee receiver key h).2.invocations = h.invocations ++ h.calleeCalls receiver key := by
  simp only [keyedCallee, Computation.get_bind, calleeCalls]
  cases (Key.computed key).name? h with
  | some n => exact log_namedCallee receiver n h
  | none =>
    dsimp only
    split
    · rename_i nullish
      simp only [keyedCalls, nullish, Bool.true_or, if_true]
      exact (List.append_nil _).symm
    · rw [log_bind fun f => callsNothing_requireCallable receiver f _]
      exact log_getKeyed receiver key h

/-- **A keyed call by the general rules calls a getter at most, and then what was found.** -/
theorem log_keyedCall (receiver key : Value) (args : List Value) (h : Heap) :
    (keyedCall receiver key args h).2.invocations =
      h.invocations ++ h.keyedCallCalls receiver key args := by
  have way := log_keyedCallee receiver key h
  rw [keyedCall, keyedCallCalls, ← List.append_assoc, ← way]
  rcases e : keyedCallee receiver key h with ⟨fault | f, g⟩
  · rw [Computation.bind_error e]
    exact (List.append_nil _).symm
  · rw [Computation.bind_ok e]
    exact log_call f receiver args g

/-- The calls since, without the stubs that they found, are told by the bare heap. -/
theorem callsSince_of_log {calls : List Invocation}
    (log : g.bare.invocations = (h.invocations ++ calls).map Invocation.bare) :
    (h.callsSince g).map Invocation.bare = calls.map Invocation.bare := by
  have bare : g.invocations.map Invocation.bare = (h.invocations ++ calls).map Invocation.bare := log
  rw [callsSince, List.map_drop, bare, ← List.map_drop, List.drop_left]

end Heap

end Speculation
