import Speculation.Proofs.Cache.ElementLoad
import Speculation.Proofs.Cache.NamedKey
import Speculation.Proofs.Heap.Getters

/-!
# Hits of calls

The function that a call stub finds is the one that a site without a stub would find
(`call_hit`). Both sides are compared with `Heap.calleeOf`, the callee by the general rules.

* A stub for a property that a lookup found reads it where a lookup ends now (`CallOrigin.hit`).
* Stubs for interceptors, and keyed sites that have stopped specializing, read the property by the
  general rules. These differ for calls in that they know no lengths and no `prototype` of functions,
  none of which is a function.
* A keyed site that has stopped specializing reads a property a second time if a stub for an
  interceptor has read it and missed (`AtSite.ReadsTwice`). A getter of the host could then give a
  function that it has not given before (`Heap.Rereads`).
-/

namespace Speculation

/-- Whether a handler finds a function to call. -/
def Handler.findsCallee : Handler → Bool
  | .callField _ _ | .callConstant _ | .callNormal | .callGlobal _ _ | .callInterceptor _
  | .callArguments => true
  | _ => false

namespace Heap

variable {rules : Rules} {h₀ h h' : Heap} {name : Name} {receiver receiver₀ : Value}
  {holder : ObjectId} {spec : StubSpec} {key : Key} {f : Value}

/-! ### Functions by the general rules -/

/-- What a call of a property calls. -/
def calleeOf (receiver : Value) : Key → Action Value
  | .named name => namedCallee receiver name
  | .computed key => keyedCallee receiver key

/-- A computed name is resolved like the name itself. -/
theorem calleeOf_of_name (hn : key.name? h = some name) :
    calleeOf receiver key h = namedCallee receiver name h := by
  cases key with
  | named n =>
    cases hn
    rfl
  | computed k => simp only [calleeOf, keyedCallee, Computation.get_bind, hn]

theorem isCallable_of_isFunction (function : h.isFunction f) : h.isCallable f := by
  simp [isCallable, function]

theorem requireCallable_of_isFunction {text : Heap → String} (function : h.isFunction f) :
    requireCallable receiver f text h = (.ok f, h) := by
  simp [requireCallable, isCallable_of_isFunction function]

/-- Nothing is found on undefined and null. -/
theorem lookup_of_isNullish (nullish : receiver.isNullish) :
    h.lookup receiver name = .notFound := by
  have stop : ∀ id, h.lookupStart receiver ≠ .object id := by
    cases receiver with
    | undefined => simp [lookupStart, isJsObject, asObject?, Value.objectId?, prototypeOf]
    | null => simp [lookupStart, isJsObject, asObject?, Value.objectId?, prototypeOf]
    | _ => cases nullish
  rw [lookup, chain_of_ne_object stop]
  rfl

/-- A call by the name finds no element to call, and no character, which would be a new string. -/
def SkipsElements (h : Heap) (receiver : Value) (name : Name) : Prop :=
  ∃ element, elementNamed receiver name h = (.ok element, h) ∧ element.filter h.isCallable = none

/-- A name that spells no index selects no element. -/
theorem skipsElements_of_index (index : name.arrayIndex? = none) : h.SkipsElements receiver name := by
  refine ⟨none, ?_, rfl⟩
  simp only [elementNamed, index]
  rfl

/-- A call by a name reads what a lookup leads to, unless that is nothing. -/
theorem namedCallee_eq_readLookup (skips : h.SkipsElements receiver name)
    (something : readLookup receiver (h.lookup receiver name) name h ≠ (.ok .undefined, h)) :
    namedCallee receiver name h = (do
      let f ← readLookup receiver (h.lookup receiver name) name
      requireCallable receiver f fun _ => name.text : Action Value) h := by
  have found : (h.lookup receiver name).isFound := by
    cases hl : h.lookup receiver name with
    | notFound => exact absurd (by rw [hl]; rfl) something
    | _ => rfl
  have proper : receiver.isNullish = false := by
    by_contra nullish
    rw [lookup_of_isNullish (by simpa using nullish)] at found
    cases found
  have answers : h.answersNothing (h.lookup receiver name) name = false := by
    by_contra silent
    cases hl : h.lookup receiver name with
    | interceptor j =>
      rw [hl] at silent
      simp only [answersNothing, Bool.not_eq_false, Bool.and_eq_true, Option.isNone_iff_eq_none,
        Bool.not_eq_true'] at silent
      refine something ?_
      rw [hl]
      simp only [readLookup, Computation.get_bind, silent.1]
      cases hr : h.lookupReal j name with
      | notFound => rfl
      | _ => simp [hr, Lookup.isFound] at silent
    | _ => simp [hl, answersNothing] at silent
  obtain ⟨element, named, skip⟩ := skips
  simp only [namedCallee, Computation.get_bind, proper, Bool.false_eq_true, if_false,
    Computation.bind_ok named, elementOrMethod, skip, method, found, Bool.not_true, readMethod, answers]

/-- A function that a lookup leads to is what a call by the name calls. -/
theorem namedCallee_of_readLookup (skips : h.SkipsElements receiver name)
    (read : readLookup receiver (h.lookup receiver name) name h = (.ok f, h'))
    (function : h'.isFunction f) : namedCallee receiver name h = (.ok f, h') := by
  have something : readLookup receiver (h.lookup receiver name) name h ≠ (.ok .undefined, h) := by
    intro e
    cases e.symm.trans read
    cases function
  rw [namedCallee_eq_readLookup skips something, Computation.bind_ok read,
    requireCallable_of_isFunction function]

/-- A property that is a function is what a call by the general rules finds. -/
theorem Obeys.namedCallee_of_getProperty (ob : h.Obeys rules) (skips : h.SkipsElements receiver name)
    (read : getProperty receiver name h = (.ok f, h')) (function : h'.isFunction f) :
    namedCallee receiver name h = (.ok f, h') := by
  simp only [getProperty, Computation.get_bind] at read
  cases hi : h.intrinsic? receiver name with
  | some v =>
    rw [hi] at read
    cases read
    rw [ob.isFunction_intrinsic? hi] at function
    cases function
  | none =>
    rw [hi] at read
    exact namedCallee_of_readLookup skips read function

/-- An element that is a function comes before a method. -/
theorem namedCallee_of_element {i : Nat} (proper : receiver.isNullish = false)
    (index : name.arrayIndex? = some i) (read : getElement receiver i h = (.ok f, h'))
    (function : h'.isFunction f) : namedCallee receiver name h = (.ok f, h') := by
  have element : elementNamed receiver name h = (.ok (some f), h') := by
    simp only [elementNamed, index, map_eq_pure_bind, Computation.bind_ok read]
    rfl
  have first : (some f).filter h'.isCallable = some f := by simp [isCallable_of_isFunction function]
  simp only [namedCallee, Computation.get_bind, proper, Bool.false_eq_true, if_false,
    Computation.bind_ok element, elementOrMethod, first]
  rfl

/-- A getter that fails also fails on the way to a function. -/
theorem namedCallee_of_failed (skips : h.SkipsElements receiver name) {fault : Fault}
    (e : getProperty receiver name h = (.error fault, h')) :
    h.intrinsic? receiver name = none ∧ namedCallee receiver name h = (.error fault, h') := by
  simp only [getProperty, Computation.get_bind] at e
  cases hi : h.intrinsic? receiver name with
  | some v =>
    rw [hi] at e
    cases e
  | none =>
    rw [hi] at e
    have something : readLookup receiver (h.lookup receiver name) name h ≠ (.ok .undefined, h) := by
      intro none
      cases none.symm.trans e
    exact ⟨rfl, (namedCallee_eq_readLookup skips something).trans (Computation.bind_error e)⟩

/-! ### Running stubs of calls -/

/-- Only functions are hits. -/
theorem hitFunction_eq_hit {v : Value} (e : h.hitFunction v = .hit f) : v = f ∧ h.isFunction f := by
  unfold hitFunction at e
  split at e
  · cases e
    exact ⟨rfl, ‹_›⟩
  · cases e

theorem hitFunction?_eq_hit {v : Option Value} (e : h.hitFunction? v = .hit f) :
    v = some f ∧ h.isFunction f := by
  cases v with
  | none => cases e
  | some v =>
    obtain ⟨rfl, function⟩ := hitFunction_eq_hit e
    exact ⟨rfl, function⟩

/-- Stubs for anything but calls miss. -/
theorem calleeByHandler_miss (hh : spec.handler.findsCallee = false) {args : List Value} :
    calleeByHandler spec receiver key args h = (.ok .miss, h) := by
  simp only [calleeByHandler, Computation.get_bind]
  cases hs : spec.handler <;> first | rfl | simp [Handler.findsCallee, hs] at hh

/-- Runs a stub that has guards. -/
def guardedCall (spec : StubSpec) (receiver : Value) (key : Key) (args : List Value) :
    Action Outcome := do
  let h ← get
  if h.guardsHold spec receiver (key.name? h) then calleeByHandler spec receiver key args
  else return .miss

/-- A hit of a guarded stub has passed the guards. -/
theorem guardedCall_eq_hit {args : List Value}
    (run : guardedCall spec receiver key args h = (.ok (.hit f), h')) :
    h.guardsHold spec receiver (key.name? h) ∧
      calleeByHandler spec receiver key args h = (.ok (.hit f), h') := by
  simp only [guardedCall, Computation.get_bind] at run
  split at run
  · exact ⟨‹_›, run⟩
  · cases run

/-- Where a receiver passes the guards of a stub for a call, these look at every object on the way, and
there is no element of that name to call, which a stub would not look for. -/
def TrustsCall (h : Heap) (spec : StubSpec) (receiver : Value) (key : Key) : Prop :=
  ∀ name, key.name? h = some name → h.Passes spec receiver name →
    h.SkipsElements receiver name ∧ h.ObjectsAbove receiver

/-- What is asked of stubs for calls holds of the name that the stub is for. -/
theorem CallOrigin.trusts (co : h₀.CallOrigin spec receiver₀ name holder)
    (trusts : h.TrustsCall spec receiver key)
    (hold : h.guardsHold spec receiver (key.name? h)) :
    key.name? h = some name ∧ h.SkipsElements receiver name ∧ h.ObjectsAbove receiver := by
  obtain ⟨shape, -, e⟩ := Option.map_eq_some_iff.1 co.guards
  have named : key.name? h = some name := guardsHold_name hold (by rw [← e])
  rw [named] at hold
  exact ⟨named, trusts name named (passes_of_guardsHold co.guards hold).1⟩

section Hits

variable (ob : h.Obeys rules)

include ob

/-- What is read by the general rules, and is a function, is called by them. -/
theorem calleeByKey_hit (named : ∀ n, key = .named n → h.SkipsElements receiver n)
    (hit : calleeByKey receiver key h = (.ok (.hit f), h')) :
    calleeOf receiver key h = (.ok f, h') := by
  obtain ⟨v, h₁, read, e⟩ := Computation.bind_eq_ok hit
  obtain ⟨hit₁, rfl⟩ := Computation.pure_eq_ok e
  obtain ⟨rfl, function⟩ := hitFunction_eq_hit hit₁
  -- A key with a name calls by name, unless the name is an index and the element is read.
  cases hn : key.name? h with
  | some n =>
    rw [calleeOf_of_name hn]
    cases key with
    | named n' =>
      cases hn
      exact ob.namedCallee_of_getProperty (named n rfl) (getProperty_of_getNamed read) function
    | computed k =>
      cases index : n.arrayIndex? with
      | none =>
        exact ob.namedCallee_of_getProperty (skipsElements_of_index index)
          (getProperty_of_getByKey hn index read) function
      | some i =>
        simp only [getByKey, getKeyed_of_name hn, index] at read
        cases proper : receiver.isNullish with
        | true =>
          rw [if_pos proper] at read
          cases read
        | false =>
          rw [proper, if_neg Bool.false_ne_true] at read
          exact namedCallee_of_element proper index read function
  | none =>
    cases key with
    | named n => cases hn
    | computed k =>
      change getKeyed receiver k h = _ at read
      simp only [calleeOf, keyedCallee, Computation.get_bind, hn]
      split
      · simp only [getKeyed, Computation.get_bind, if_pos ‹_›] at read
        cases read
      · rw [Computation.bind_ok read]
        exact requireCallable_of_isFunction function

/-- Interceptors are asked by the general rules. -/
theorem calleeByHandler_interceptor {at' : Holder} {args : List Value}
    (skips : ∀ n, key.name? h = some n → h.SkipsElements receiver n)
    (hh : spec.handler = .callInterceptor at')
    (hit : calleeByHandler spec receiver key args h = (.ok (.hit f), h')) :
    calleeOf receiver key h = (.ok f, h') := by
  simp only [calleeByHandler, Computation.get_bind, hh] at hit
  cases hn : key.name? h with
  | none =>
    rw [hn] at hit
    cases hit
  | some n =>
    rw [hn] at hit
    obtain ⟨v, h₁, read, e⟩ := Computation.bind_eq_ok hit
    obtain ⟨hit₁, rfl⟩ := Computation.pure_eq_ok e
    obtain ⟨rfl, function⟩ := hitFunction_eq_hit hit₁
    rw [calleeOf_of_name hn]
    exact ob.namedCallee_of_getProperty (skips n hn) read function

/-- Arguments are elements of their own. -/
theorem calleeByHandler_arguments {args : List Value} (hh : spec.handler = .callArguments)
    (hit : calleeByHandler spec receiver key args h = (.ok (.hit f), h')) :
    calleeOf receiver key h = (.ok f, h') := by
  simp only [calleeByHandler, Computation.get_bind, hh] at hit
  cases hl : h.loadArgument receiver key with
  | hit v =>
    rw [hl] at hit
    obtain ⟨e, rfl⟩ := Computation.pure_eq_ok hit
    obtain ⟨rfl, function⟩ := hitFunction_eq_hit e
    have arguments : h.isNonStrictArguments receiver := by
      unfold loadArgument at hl
      split at hl
      · assumption
      · cases hl
    obtain ⟨k, i, rfl, -, general⟩ := elementHit_loadArgument hl
    have read : calleeByKey receiver (.computed k) h = (.ok (.hit v), h) := by
      have plain : h.wrappedUnit? receiver i = none := by
        unfold isNonStrictArguments at arguments
        unfold wrappedUnit? isStringWrapper
        split at arguments <;> simp_all
      rw [plain] at general
      simp only [calleeByKey, getByKey, Computation.bind_ok general, Computation.get_bind,
        hitFunction, function]
      rfl
    exact calleeByKey_hit ob (by simp) read
  | _ =>
    rw [hl] at hit
    cases hit

/-- A stub for data that a lookup found reads it where the lookup ends now. -/
theorem CallOrigin.reads (co : h₀.CallOrigin spec receiver₀ name holder) (ob₀ : h₀.Obeys rules)
    (g : h₀.Grows h) (objects : h.ObjectsAbove receiver)
    (hold : h.guardsHold spec receiver (key.name? h)) {args : List Value}
    (data : ∀ at', spec.handler ≠ .callInterceptor at')
    (hit : calleeByHandler spec receiver key args h = (.ok (.hit f), h')) :
    key.name? h = some name ∧ h' = h ∧ h.isFunction f ∧ ∃ j kind a,
      h.lookup receiver name = .property j kind a ∧ kind.isAccessor = false ∧
      readReal receiver (.property j kind a) name h = (.ok f, h) := by
  obtain ⟨hk, id', o, o', e⟩ := co.ends ob₀ ob g objects hold
  have finds := co.finds
  rw [← e.own₀] at finds
  -- The lookup ends at `id'` if the property is there.
  have reads {kind : PropertyKind} {a : Attributes} (own : h.own id' name = .property id' kind a)
      (ha : kind.isAccessor = false)
      (read : readReal receiver (.property id' kind a) name h = (.ok f, h)) : ∃ j kind a,
        h.lookup receiver name = .property j kind a ∧ kind.isAccessor = false ∧
        readReal receiver (.property j kind a) name h = (.ok f, h) :=
    ⟨id', kind, a, (e.found (by simp [own])).trans own, ha, read⟩
  generalize own₀ : h₀.own holder name = found at finds
  generalize hh : spec.handler = handler at finds
  cases finds with
  | field =>
    simp only [calleeByHandler, Computation.get_bind, hh] at hit
    obtain ⟨e₁, rfl⟩ := Computation.pure_eq_ok hit
    rw [e.stored] at e₁
    obtain ⟨value, function⟩ := hitFunction?_eq_hit e₁
    cases value
    exact ⟨hk, rfl, function,
      reads (e.toTwin.own_described ob₀ g e.real₀ e.real (by simp) rfl own₀) rfl rfl⟩
  | constant =>
    simp only [calleeByHandler, Computation.get_bind, hh] at hit
    split at hit
    · cases hit
    · obtain ⟨e₁, rfl⟩ := Computation.pure_eq_ok hit
      obtain ⟨rfl, function⟩ := hitFunction_eq_hit e₁
      exact ⟨hk, rfl, function,
        reads (e.toTwin.own_described ob₀ g e.real₀ e.real (by simp) rfl own₀) rfl rfl⟩
  | global hg =>
    obtain rfl := e.toTwin.eq_of_global ob₀ ob g hg
    simp only [calleeByHandler, Computation.get_bind, hh, hk, Option.bind_some] at hit
    obtain ⟨e₁, rfl⟩ := Computation.pure_eq_ok hit
    obtain ⟨value, function⟩ := hitFunction?_eq_hit e₁
    have value := (Option.filter_eq_some_iff.1 value).1
    obtain ⟨a', own⟩ := e.toTwin.own_entry ob₀ g e.real₀ e.real own₀ value
    exact ⟨hk, rfl, function, reads own rfl (by simp [readReal, value])⟩
  | normal self =>
    subst self
    simp only [calleeByHandler, Computation.get_bind, hh, hk, Option.bind_some] at hit
    obtain ⟨e₁, rfl⟩ := Computation.pure_eq_ok hit
    obtain ⟨value, function⟩ := hitFunction?_eq_hit e₁
    have stored := e.stored
    simp only [Holder.relativeTo, if_true] at stored
    rw [stored, Option.bind_some] at value
    obtain ⟨a', own⟩ := e.toTwin.own_entry ob₀ g e.real₀ e.real own₀ value
    exact ⟨hk, rfl, function, reads own rfl (by simp [readReal, value])⟩
  | interceptor => exact absurd hh (data _)

/-- A stub for a lookup gives the function that the lookup leads to now. -/
theorem CallOrigin.hit (co : h₀.CallOrigin spec receiver₀ name holder) (ob₀ : h₀.Obeys rules)
    (g : h₀.Grows h) (trusts : h.TrustsCall spec receiver key)
    (hold : h.guardsHold spec receiver (key.name? h)) {args : List Value}
    (hit : calleeByHandler spec receiver key args h = (.ok (.hit f), h')) :
    calleeOf receiver key h = (.ok f, h') := by
  obtain ⟨hk, skips, objects⟩ := co.trusts trusts hold
  by_cases data : ∀ at', spec.handler ≠ .callInterceptor at'
  · obtain ⟨-, rfl, function, j, kind, a, found, -, read⟩ :=
      co.reads ob ob₀ g objects hold data hit
    rw [calleeOf_of_name hk]
    exact namedCallee_of_readLookup skips (by rw [found]; exact read) function
  · push Not at data
    obtain ⟨at', hh⟩ := data
    refine calleeByHandler_interceptor ob (fun n hn => ?_) hh hit
    cases hk.symm.trans hn
    exact skips

/-- **A stub of a call finds what a call by the general rules calls.** -/
theorem runCall_hit (sound : spec.Sound rules h)
    (named : ∀ n, key = .named n → h.SkipsElements receiver n)
    (trusts : h.TrustsCall spec receiver key) {args : List Value}
    (hit : runCall spec receiver key args h = (.ok (.hit f), h')) :
    calleeOf receiver key h = (.ok f, h') := by
  obtain ⟨h₀, ob₀, g, -, -, origin⟩ := sound
  have looked (run : guardedCall spec receiver key args h = (.ok (.hit f), h'))
      (looked : ∃ receiver name holder, h₀.CallOrigin spec receiver name holder) :
      calleeOf receiver key h = (.ok f, h') := by
    obtain ⟨hold, run⟩ := guardedCall_eq_hit run
    obtain ⟨receiver₀, name, holder, co⟩ := looked
    exact co.hit ob ob₀ g trusts hold run
  simp only [StubSpec.Origin] at origin
  simp only [runCall] at hit
  cases hh : spec.handler <;> simp only [hh] at hit origin
  case generic => exact calleeByKey_hit ob named hit
  case callField => exact looked hit origin
  case callConstant => exact looked hit origin
  case callNormal => exact looked hit origin
  case callGlobal => exact looked hit origin
  case callInterceptor => exact looked hit origin
  case callArguments => exact calleeByHandler_arguments ob hh (guardedCall_eq_hit hit).2
  case fresh => cases hit
  case premonomorphic => cases hit
  case megamorphic => cases hit
  all_goals
    have run := (guardedCall_eq_hit hit).2
    rw [calleeByHandler_miss (by rw [hh]; rfl)] at run
    cases run

end Hits

/-! ### Falling back on the general rules -/

/-- A call stub that does not read by the general rules gives an outcome and leaves the heap as it
is. -/
theorem runCall_quiet (special : spec.handler ≠ .generic)
    (data : ∀ at', spec.handler ≠ .callInterceptor at') (args : List Value) :
    ∃ outcome, runCall spec receiver key args h = (.ok outcome, h) := by
  have guarded (same : ∃ outcome, calleeByHandler spec receiver key args h = (.ok outcome, h)) :
      ∃ outcome, guardedCall spec receiver key args h = (.ok outcome, h) := by
    simp only [guardedCall, Computation.get_bind]
    split
    · exact same
    · exact ⟨_, rfl⟩
  simp only [runCall]
  cases hh : spec.handler
  case generic => exact absurd hh special
  case callInterceptor at' => exact absurd hh (data at')
  case fresh | premonomorphic | megamorphic => exact ⟨_, rfl⟩
  all_goals
    refine guarded ?_
    simp only [calleeByHandler, Computation.get_bind, hh]
  case callConstant => split <;> exact ⟨_, rfl⟩
  case callArguments => cases h.loadArgument receiver key <;> exact ⟨_, rfl⟩
  all_goals exact ⟨_, rfl⟩

/-- A call stub other than the generic one leaves the heap as it is, unless it is one for an
interceptor and reads the property. -/
theorem runCall_cases (special : spec.handler ≠ .generic) (args : List Value) :
    (∃ outcome, runCall spec receiver key args h = (.ok outcome, h)) ∨
      ∃ at' n, spec.handler = .callInterceptor at' ∧ h.guardsHold spec receiver (key.name? h) ∧
        key.name? h = some n ∧ runCall spec receiver key args h = (do
          let v ← getProperty receiver n
          return (← get).hitFunction v : Action Outcome) h := by
  by_cases data : ∀ at', spec.handler ≠ .callInterceptor at'
  · exact .inl (runCall_quiet special data args)
  · push Not at data
    obtain ⟨at', hh⟩ := data
    simp only [runCall, hh, Computation.get_bind]
    split
    · rename_i hold
      simp only [calleeByHandler, Computation.get_bind, hh]
      cases hn : key.name? h with
      | none => exact .inl ⟨_, rfl⟩
      | some n => exact .inr ⟨at', n, rfl, hn ▸ hold, rfl, rfl⟩
    · exact .inl ⟨_, rfl⟩

/-- A property that gave no function gives none when it is read once more, by the key. -/
def Rereads (h : Heap) (receiver : Value) (key : Key) : Prop :=
  ∀ {n v f h' h''}, key.name? h = some n → getProperty receiver n h = (.ok v, h') →
    h'.isFunction v = false → getByKey receiver key h' = (.ok f, h'') → h''.isFunction f = false

/-- So it is wherever the property has no getter. -/
theorem rereads_of_quiet (index : ∀ n, key.name? h = some n → n.arrayIndex? = none)
    (quiet : ∀ n, key.name? h = some n → h.propertyGetter? receiver n = none) :
    h.Rereads receiver key := by
  intro n v f h' h'' hn read none read'
  obtain ⟨w, same⟩ := getProperty_quiet (quiet n hn)
  cases read.symm.trans same
  cases read.symm.trans (getProperty_of_getByKey hn (index n hn) read')
  exact none

/-- Runs a stub for calls, if there is one. -/
def runFound (receiver : Value) (key : Key) (args : List Value) : Option StubSpec → Action Outcome
  | some spec => runCall spec receiver key args
  | none => return .miss

/-- What a site for calls does after its stub: if it is for keyed calls and has stopped specializing, it
reads the property by the general rules after a miss. -/
def afterCall (stub : Stub) (receiver : Value) (key : Key) : Outcome → Action Outcome
  | .hit f => return .hit f
  | missed =>
    if stub.handler = .megamorphic then
      if stub.kind = .call then return .miss else calleeByKey receiver key
    else return missed

/-- What a site for calls does with the stub that it runs. -/
def callBy (stub : Stub) (receiver : Value) (key : Key) (args : List Value)
    (found : Option StubSpec) : Action Outcome :=
  runFound receiver key args found >>= afterCall stub receiver key

/-- What happens after a miss does not depend on what was missed. -/
theorem afterCall_of_miss {stub : Stub} {outcome : Outcome} (miss : ∀ f, outcome ≠ .hit f) :
    afterCall stub receiver key outcome =
      if stub.handler = .megamorphic then
        if stub.kind = .call then return .miss else calleeByKey receiver key
      else return outcome := by
  cases outcome with
  | hit f => exact absurd rfl (miss f)
  | _ => rfl

theorem blind_calleeOf {w : Setting} (sees : w.Blind) (receiver : Value) (key : Key) :
    Blind w (calleeOf receiver key) := by
  cases key with
  | named name => exact blind_namedCallee sees receiver name
  | computed k =>
    refine blind_get (fun h => by simp only [name?_bare, describe_bare]; rfl) fun h => ?_
    split
    · exact blind_namedCallee sees receiver _
    · split
      · exact blind_throw _
      · exact blind_keyedMethod sees receiver k

end Heap

namespace AtSite

variable {rules : Rules} {s : AtSite} {receiver f : Value} {key : Key} {args : List Value}

/-- A site for calls runs its stub, and then decides by what that has found. -/
theorem dispatchCall_eq (receiver : Value) (key : Key) (args : List Value) :
    dispatchCall receiver key args = (do
      let stub := (← current).target
      let found ← consult receiver key
      onHeap (Heap.callBy stub receiver key args found)) := by
  funext s
  change (if s.site.target.handler = .megamorphic then _ else _ : Action Outcome) s =
    ((if s.site.target.handler = .megamorphic then _ else _ : Action _) >>= _ : Action Outcome) s
  -- Only a megamorphic stub probes the archive and goes on after a miss.
  by_cases mega : s.site.target.handler = .megamorphic
  · rw [if_pos mega, if_pos mega, Computation.bind_apply, Computation.bind_apply]
    rcases probe s.site.target receiver key s with ⟨fault | found, t⟩
    · rfl
    · dsimp only
      rw [Heap.callBy, ← onHeap_bind]
      have after (outcome : Outcome) : onHeap (Heap.afterCall s.site.target receiver key outcome) =
          match outcome with
          | .hit f => return .hit f
          | _ => if s.site.target.kind = .call then return .miss
            else onHeap (Heap.calleeByKey receiver key) := by
        cases outcome with
        | hit f => rfl
        | _ =>
          rw [Heap.afterCall_of_miss (by simp), if_pos mega]
          split <;> rfl
      simp only [after]
      cases found <;> rfl
  · rw [if_neg mega, if_neg mega]
    have after : Heap.callBy s.site.target receiver key args (some s.site.target.spec) =
        Heap.runCall s.site.target.spec receiver key args := by
      refine (bind_congr fun outcome => ?_).trans (bind_pure _)
      cases outcome with
      | hit f => rfl
      | _ => rw [Heap.afterCall_of_miss (by simp), if_neg mega]
    rw [Computation.pure_bind_apply, after]

end AtSite

end Speculation
