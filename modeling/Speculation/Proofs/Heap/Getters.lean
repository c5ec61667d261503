import Speculation.Proofs.Heap.Bare

/-!
# Getters of properties

Reading a property calls one function at most, its getter, and `propertyGetter?` tells which. Where there is
none, a read gives a value and leaves the heap as it is (`getProperty_quiet`); otherwise to read is to
call it (`getProperty_getter`). So a read lists the call of its getter, and nothing else
(`log_getProperty`). The lengths and the `prototype` of functions, which no shape describes, have no
getter, and no such value is a function.
-/

namespace Speculation

namespace Heap

variable {rules : Rules} {h : Heap} {name : Name} {receiver : Value} {found : Lookup}

/-- What no shape describes is no function. -/
theorem Obeys.isFunction_intrinsic? (ob : h.Obeys rules) {receiver v : Value}
    (e : h.intrinsic? receiver name = some v) : h.isFunction v = false := by
  unfold intrinsic? at e
  split at e
  · obtain ⟨n, -, rfl⟩ := Option.map_eq_some_iff.1 e
    rfl
  · split at e
    · obtain ⟨d, hd, rfl⟩ := Option.map_eq_some_iff.1 e
      obtain ⟨o, ho, hf⟩ := Option.bind_eq_some_iff.1 hd
      obtain ⟨id, -, ho⟩ := Option.bind_eq_some_iff.1 ho
      have hc : o.objectClass = .function d := by
        unfold JsObject.function? at hf
        split at hf
        · cases hf
          assumption
        · cases hf
      obtain ⟨p, x, hp, hx, plain⟩ := (ob.object ho).function hc
      rw [hp, isFunction_object hx, plain]
      rfl
    · cases e

/-! ### The getter that a read calls -/

/-- The getter that is called to read a real property. -/
def realGetter? (h : Heap) : Lookup → Option Value
  | .property _ (.accessor getter _) _ => if h.isCallable getter then some getter else none
  | _ => none

/-- The getter that is called to read what a lookup found. -/
def getter? (h : Heap) (name : Name) : Lookup → Option Value
  | .interceptor holder =>
    if (h.interceptorValue? holder name).isSome then none
    else h.realGetter? (h.lookupReal holder name)
  | found => h.realGetter? found

/-- The getter that is called to read a named property. -/
def propertyGetter? (h : Heap) (receiver : Value) (name : Name) : Option Value :=
  if (h.intrinsic? receiver name).isSome then none else h.getter? name (h.lookup receiver name)

@[simp] theorem getter?_bare (h : Heap) (name : Name) (found : Lookup) :
    h.bare.getter? name found = h.getter? name found := by
  cases found with
  | interceptor holder =>
    simp only [getter?, lookupReal_bare]
    rfl
  | _ => rfl

@[simp] theorem propertyGetter?_bare (h : Heap) (receiver : Value) (name : Name) :
    h.bare.propertyGetter? receiver name = h.propertyGetter? receiver name := by
  simp only [propertyGetter?, intrinsic?_bare, lookup_bare, getter?_bare]

/-! ### Reading without a getter -/

theorem readReal_quiet (quiet : h.realGetter? found = none) (receiver : Value) (name : Name) :
    ∃ v, readReal receiver found name h = (.ok v, h) := by
  unfold readReal
  split
  · split
    · exact ⟨_, rfl⟩
    · exact ⟨_, rfl⟩
    · exact ⟨_, rfl⟩
    · simp only [realGetter?, ite_eq_right_iff, reduceCtorEq, imp_false] at quiet
      exact ⟨.undefined, by simp [callGetter, quiet]⟩
  · exact ⟨_, rfl⟩

theorem readLookup_quiet (quiet : h.getter? name found = none) (receiver : Value) :
    ∃ v, readLookup receiver found name h = (.ok v, h) := by
  cases found with
  | interceptor holder =>
    simp only [readLookup, Computation.get_bind]
    cases hv : h.interceptorValue? holder name with
    | some v => exact ⟨v, rfl⟩
    | none =>
      simp only [getter?, hv, Option.isSome_none, Bool.false_eq_true, if_false] at quiet
      exact readReal_quiet quiet receiver name
  | property holder kind a => exact readReal_quiet quiet receiver name
  | notFound | transition => exact ⟨_, rfl⟩

theorem getProperty_quiet (quiet : h.propertyGetter? receiver name = none) :
    ∃ v, getProperty receiver name h = (.ok v, h) := by
  simp only [getProperty, Computation.get_bind]
  cases hi : h.intrinsic? receiver name with
  | some v => exact ⟨v, rfl⟩
  | none =>
    simp only [propertyGetter?, hi, Option.isSome_none, Bool.false_eq_true, if_false] at quiet
    exact readLookup_quiet quiet receiver

/-! ### Reading with a getter -/

/-- Reading an accessor calls its getter. -/
theorem readReal_getter {getter : Value} (e : h.realGetter? found = some getter) (receiver : Value)
    (name : Name) : readReal receiver found name h = call getter receiver [] h := by
  unfold realGetter? at e
  split at e
  · split at e
    · rename_i callable
      obtain rfl := Option.some.inj e
      simp [readReal, callGetter, callable]
    · cases e
  · cases e

/-- Reading what was found calls the getter, if there is one. -/
theorem readLookup_getter {getter : Value} (e : h.getter? name found = some getter)
    (receiver : Value) : readLookup receiver found name h = call getter receiver [] h := by
  cases found with
  | interceptor holder =>
    simp only [getter?] at e
    simp only [readLookup, Computation.get_bind]
    cases hv : h.interceptorValue? holder name with
    | some v => simp [hv] at e
    | none =>
      simp only [hv, Option.isSome_none, Bool.false_eq_true, if_false] at e
      exact readReal_getter e receiver name
  | property holder kind a => exact readReal_getter e receiver name
  | notFound | transition => cases e

/-- Reading a property calls its getter, if it has one. -/
theorem getProperty_getter {getter : Value} (e : h.propertyGetter? receiver name = some getter) :
    getProperty receiver name h = call getter receiver [] h := by
  simp only [propertyGetter?] at e
  simp only [getProperty, Computation.get_bind]
  cases hi : h.intrinsic? receiver name with
  | some v => simp [hi] at e
  | none =>
    simp only [hi, Option.isSome_none, Bool.false_eq_true, if_false] at e
    exact readLookup_getter e receiver

/-! ### Actions that call nothing -/

section CallsNothing

variable {α β : Type} {a : Action α}

/-- The action adds nothing to the list of calls. -/
def CallsNothing (a : Action α) : Prop := ∀ h, (a h).2.invocations = h.invocations

theorem callsNothing_pure (x : α) : CallsNothing (pure x) := fun _ => rfl

theorem callsNothing_throw (e : Fault) : CallsNothing (throw e : Action α) := fun _ => rfl

theorem CallsNothing.bind {f : α → Action β} (ha : CallsNothing a) (hf : ∀ x, CallsNothing (f x)) :
    CallsNothing (a >>= f) := fun h =>
  Computation.bind_rel (R := fun h g : Heap => g.invocations = h.invocations)
    (fun first second => second.trans first) (ha h) fun x _ => hf x _

theorem callsNothing_get {f : Heap → Action β} (hf : ∀ h, CallsNothing (f h)) :
    CallsNothing (get >>= f) := fun h => hf h h

theorem callsNothing_newString (text : String) : CallsNothing (newString text) := by
  refine CallsNothing.bind (fun h => ?_) fun _ => callsNothing_pure _
  simp only [allocate, Computation.get_bind]
  split <;> rfl

theorem callsNothing_boxNumber (d : Double) : CallsNothing (boxNumber d) := by
  refine CallsNothing.bind (fun h => ?_) fun _ => callsNothing_pure _
  simp only [allocate, Computation.get_bind]
  split <;> rfl

theorem callsNothing_getElement (receiver : Value) (index : Nat) :
    CallsNothing (getElement receiver index) :=
  callsNothing_get fun h => by
    cases (h.indexedString? receiver).bind fun s => (Text.units s)[index]? with
    | some u => exact callsNothing_newString _
    | none => exact callsNothing_pure _

theorem callsNothing_thisString (method : String) (receiver : Value) :
    CallsNothing (thisString method receiver) :=
  callsNothing_get fun h => by
    split
    · exact callsNothing_pure _
    · split
      · exact callsNothing_pure _
      · exact callsNothing_throw _

/-- What a host function calls in turn is its own affair. -/
theorem callsNothing_runHost (f : HostFunction) (receiver : Value) (args : List Value) :
    CallsNothing (runHost f receiver args) := by
  cases f with
  | provided i => exact fun _ => rfl
  | charAt =>
    refine (callsNothing_thisString _ _).bind fun s => callsNothing_get fun h => ?_
    cases h.position? args (Text.units s).length with
    | some i => exact callsNothing_newString _
    | none => exact callsNothing_newString _
  | charCodeAt =>
    refine (callsNothing_thisString _ _).bind fun s => callsNothing_get fun h => ?_
    cases h.position? args (Text.units s).length with
    | some i => exact callsNothing_pure _
    | none => exact callsNothing_boxNumber _

theorem callsNothing_enter (callee receiver : Value) (args : List Value) :
    CallsNothing (enter callee receiver args) :=
  callsNothing_get fun h => by
    cases h.functionData? callee with
    | none => exact callsNothing_throw _
    | some data =>
      dsimp only
      cases data.host with
      | some f => exact callsNothing_runHost f receiver args
      | none => exact callsNothing_throw _

theorem callsNothing_invoke (depth : Nat) (callee receiver : Value) (args : List Value) :
    CallsNothing (invoke depth callee receiver args) := by
  induction depth generalizing callee receiver args with
  | zero => exact callsNothing_throw _
  | succ depth ih =>
    refine callsNothing_get fun h => ?_
    cases h.delegate? callee with
    | some d => exact ih d callee args
    | none => exact callsNothing_enter callee receiver args

end CallsNothing

/-! ### The calls of a read -/

/-- A call lists itself. -/
theorem log_call (f receiver : Value) (args : List Value) (h : Heap) :
    (call f receiver args h).2.invocations = h.invocations ++ [⟨h.toMemory, f, receiver, args⟩] := by
  rw [call_apply]
  exact callsNothing_invoke _ f receiver args _

/-- The call of a getter. -/
def getterCalls (h : Heap) (receiver : Value) (getter : Option Value) : List Invocation :=
  getter.toList.map fun f => ⟨h.toMemory, f, receiver, []⟩

@[simp] theorem getterCalls_none : h.getterCalls receiver none = [] := rfl

/-- Without a getter nothing is called. -/
theorem getterCalls_eq_nil {getter : Option Value} :
    h.getterCalls receiver getter = [] ↔ getter = none := by
  cases getter <;> simp [getterCalls]

/-- Reading what was found adds the call of its getter to the list. -/
theorem log_readLookup (receiver : Value) (found : Lookup) (name : Name) (h : Heap) :
    (readLookup receiver found name h).2.invocations =
      h.invocations ++ h.getterCalls receiver (h.getter? name found) := by
  cases e : h.getter? name found with
  | none =>
    obtain ⟨v, quiet⟩ := readLookup_quiet e receiver
    rw [quiet, getterCalls_none, List.append_nil]
  | some getter => rw [readLookup_getter e receiver, log_call]; rfl

/-- Reading a property adds the call of its getter to the list. -/
theorem log_getProperty (receiver : Value) (name : Name) (h : Heap) :
    (getProperty receiver name h).2.invocations =
      h.invocations ++ h.getterCalls receiver (h.propertyGetter? receiver name) := by
  cases e : h.propertyGetter? receiver name with
  | none =>
    obtain ⟨v, quiet⟩ := getProperty_quiet e
    rw [quiet, getterCalls_none, List.append_nil]
  | some getter => rw [getProperty_getter e, log_call]; rfl

/-- A read that calls nothing leaves the heap as it is. -/
theorem getProperty_of_silent {v : Value} {g : Heap} (read : getProperty receiver name h = (.ok v, g))
    (silent : g.invocations = h.invocations) : g = h := by
  have log := log_getProperty receiver name h
  rw [read, silent, List.self_eq_append_right, getterCalls_eq_nil] at log
  obtain ⟨w, quiet⟩ := getProperty_quiet log
  cases read.symm.trans quiet
  rfl

end Heap

end Speculation
