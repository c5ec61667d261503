import Speculation.Proofs.Cache.Session

/-!
# Hits of element loads

A stub for element loads reads the elements of its receiver, or the characters of a primitive
string, and leaves everything else to the general rules: holes, positions outside the elements and
keys that are no array indices are misses. So a hit gives what `getKeyed` gives, since the general
rules, too, come to the own elements of an object before those of its prototypes
(`chainElement_own`).

There is one exception. For a string wrapper the general rules ask the wrapped string first, and
only then the elements of the wrapper, whereas a stub reads the elements at once. The two differ
exactly where the wrapper has an element at a position of its string (`wrappedUnit?`).
-/

namespace Speculation

/-- Whether a handler reads elements or characters by position. -/
def Handler.loadsElements : Handler → Bool
  | .loadElement _ | .loadElementPolymorphic _ | .loadIndexedString | .loadNonStrictArguments => true
  | _ => false

namespace Heap

variable {h h' : Heap} {receiver v : Value} {key : Key} {o : JsObject} {i : Nat}

/-- The code unit that a string wrapper has at a position, in front of its own elements. -/
def wrappedUnit? (h : Heap) (receiver : Value) (i : Nat) : Option Nat :=
  if h.isStringWrapper receiver then
    (h.indexedString? receiver).bind fun s => (Text.units s)[i]?
  else none

/-! ### Keys -/

/-- A key that selects an element is a value, and an array index by the general rules. -/
theorem key_of_elementIndex? (hi : key.elementIndex? = some i) :
    ∃ k, key = .computed k ∧ h.arrayIndex? k = some i := by
  unfold Key.elementIndex? at hi
  split at hi
  · exact ⟨_, rfl, hi⟩
  · cases hi

/-! ### Objects -/

theorem string?_of_asObject? (ho : h.asObject? receiver = some o) : h.string? receiver = none := by
  obtain ⟨id, hid, hx⟩ := Option.bind_eq_some_iff.1 ho
  simp [string?, get?, hid, object?_eq_some.1 hx]

/-- Only the characters of wrapped strings stand in front of the elements of an object. -/
theorem indexedUnit?_of_asObject? (ho : h.asObject? receiver = some o) :
    ((h.indexedString? receiver).bind fun s => (Text.units s)[i]?) = h.wrappedUnit? receiver i := by
  unfold wrappedUnit?
  split
  · rfl
  · rename_i hw
    have none : h.indexedString? receiver = none := by
      unfold indexedString?
      split
      · rename_i inner hc
        simp [isStringWrapper, hc] at hw
      · exact string?_of_asObject? ho
    simp [none]

/-- The own elements of an object come first along its chain. -/
theorem chainElement_own (ho : h.asObject? receiver = some o) (hv : o.elements[i]? = some v)
    (full : v.isHole = false) : h.chainElement receiver i = v := by
  obtain ⟨id, hid, hx⟩ := Option.bind_eq_some_iff.1 ho
  obtain rfl : receiver = .object id := by
    cases receiver <;> simp [Value.objectId?] at hid
    rw [hid]
  have js : h.isJsObject (.object id) := by simp [isJsObject, ho]
  have own : h.ownElement? id i = some v := by simp [ownElement?, hx, hv, full]
  simp [chainElement, lookupStart, js, chain, chainWithin, hx, own]

/-- What the general rules give where an object has an own element. -/
theorem getKeyed_own {k : Value} (ho : h.asObject? receiver = some o)
    (hk : h.arrayIndex? k = some i) (hv : o.elements[i]? = some v) (full : v.isHole = false) :
    getKeyed receiver k h = match h.wrappedUnit? receiver i with
      | none => (.ok v, h)
      | some u => newString (Text.textOfUnit u) h := by
  have nullish : receiver.isNullish = false := by
    cases receiver <;> first | rfl | simp [asObject?, Value.objectId?] at ho
  simp only [getKeyed, Computation.get_bind, nullish, Bool.false_eq_true, if_false, hk, getElement,
    indexedUnit?_of_asObject? ho, chainElement_own ho hv full]
  cases h.wrappedUnit? receiver i <;> rfl

/-! ### Hits -/

/-- What the general rules give where a stub loads the element `v` and leaves the heap `h'`: the
same, but the character at a position of a wrapped string, where the stub reads an element. -/
def ElementHit (h : Heap) (receiver : Value) (key : Key) (v : Value) (h' : Heap) : Prop :=
  ∃ k i, key = .computed k ∧ h.arrayIndex? k = some i ∧
    match h.wrappedUnit? receiver i with
    | none => getKeyed receiver k h = (.ok v, h')
    | some u => h' = h ∧ (h.asObject? receiver).bind (·.elements[i]?) = some v ∧
        getKeyed receiver k h = newString (Text.textOfUnit u) h

/-- An element that an object has is the one that the general rules find. -/
theorem elementHit_own (hi : key.elementIndex? = some i) (ho : h.asObject? receiver = some o)
    (hv : o.elements[i]? = some v) (full : v.isHole = false) : h.ElementHit receiver key v h := by
  obtain ⟨k, rfl, hk⟩ := key_of_elementIndex? (h := h) hi
  have general := getKeyed_own ho hk hv full
  refine ⟨k, i, rfl, hk, ?_⟩
  cases hw : h.wrappedUnit? receiver i with
  | none => simpa only [hw] using general
  | some u => exact ⟨rfl, by simp [ho, hv], by simpa only [hw] using general⟩

/-- A hit for an element is what the general rules find. -/
theorem elementHit_loadElement (hit : h.loadElement receiver key = .hit v) :
    h.ElementHit receiver key v h := by
  unfold loadElement at hit
  split at hit
  · cases hit
  · rename_i hi
    split at hit
    · cases hit
    · rename_i ho
      split at hit
      · rename_i hv
        split at hit
        · cases hit
        · rename_i full
          cases hit
          exact elementHit_own hi ho hv (by simpa using full)
      · cases hit

/-- A hit for an argument is what the general rules find. -/
theorem elementHit_loadArgument (hit : h.loadArgument receiver key = .hit v) :
    h.ElementHit receiver key v h := by
  unfold loadArgument at hit
  split at hit
  · split at hit
    · rename_i hi ho
      unfold Outcome.ofOption at hit
      split at hit
      · rename_i hv
        cases hit
        obtain ⟨hv, full⟩ := Option.filter_eq_some_iff.1 hv
        exact elementHit_own hi ho hv (by simpa using full)
      · cases hit
    · cases hit
  · cases hit

theorem string?_eq_some {s : String} (hs : h.string? receiver = some s) :
    ∃ id, receiver = .object id ∧ h.object? id = none := by
  unfold string? at hs
  split at hs
  · rename_i hg
    obtain ⟨id, hid, hc⟩ := Option.bind_eq_some_iff.1 hg
    cases receiver <;> simp [Value.objectId?] at hid
    exact ⟨id, by rw [hid], by simp [object?, hc]⟩
  · cases hs

/-- The characters of a primitive string are its elements by the general rules, too. -/
theorem elementHit_loadCharacter (hit : loadCharacter receiver key h = (.ok (.hit v), h')) :
    h.ElementHit receiver key v h' := by
  cases hi : key.elementIndex? with
  | none =>
    simp only [loadCharacter, Computation.get_bind, hi] at hit
    cases hit
  | some i =>
    cases hs : h.string? receiver with
    | none =>
      simp only [loadCharacter, Computation.get_bind, hi, hs] at hit
      cases hit
    | some s =>
      simp only [loadCharacter, Computation.get_bind, hi, hs] at hit
      cases hu : (Text.units s)[i]? with
      | none =>
        simp only [hu] at hit
        cases hit
      | some u =>
        simp only [hu] at hit
        obtain ⟨w, h₁, made, e⟩ := Computation.bind_eq_ok hit
        cases e
        obtain ⟨k, rfl, hk⟩ := key_of_elementIndex? (h := h) hi
        obtain ⟨id, rfl, primitive⟩ := string?_eq_some hs
        have noClass : h.classOf? (.object id) = none := by
          simp [classOf?, asObject?, Value.objectId?, primitive]
        have unit : ((h.indexedString? (.object id)).bind fun s => (Text.units s)[i]?) = some u := by
          simp [indexedString?, noClass, hs, hu]
        refine ⟨k, i, rfl, hk, ?_⟩
        have plain : h.wrappedUnit? (.object id) i = none := by
          simp [wrappedUnit?, isStringWrapper, noClass]
        simp only [plain, getKeyed, Computation.get_bind, Value.isNullish, Bool.false_eq_true,
          if_false, hk, getElement, unit, made]

end Heap

open Heap in
/-- **A hit of an element load gives what the general rules give**, with the same heap afterwards,
except at the positions of a wrapped string. There a stub gives the element of the wrapper, and the
general rules give the character. -/
theorem element_load_hit {h h' : Heap} {spec : StubSpec} (elements : spec.handler.loadsElements)
    {receiver v : Value} {key : Key} (hit : runLoad spec receiver key h = (.ok (.hit v), h')) :
    h.ElementHit receiver key v h' := by
  -- A hit behind guards is a hit of the handler.
  have guarded (special : runLoad spec receiver key = do
      if (← get).guardsHold spec receiver (key.name? (← get)) then loadByHandler spec receiver key
      else return .miss) : loadByHandler spec receiver key h = (.ok (.hit v), h') := by
    rw [special] at hit
    simp only [Computation.get_bind] at hit
    split at hit
    · exact hit
    · cases hit
  unfold runLoad at guarded
  cases hh : spec.handler with
  | loadElement kind =>
    have run := guarded (by simp only [hh])
    simp only [loadByHandler, Computation.get_bind, hh] at run
    obtain ⟨own, rfl⟩ := Computation.pure_eq_ok run
    exact elementHit_loadElement own
  | loadElementPolymorphic targets =>
    have run := guarded (by simp only [hh])
    simp only [loadByHandler, Computation.get_bind, hh] at run
    cases ht : h.targetFor? spec.receiverShapes targets receiver with
    | none =>
      rw [ht] at run
      cases run
    | some target =>
      rw [ht] at run
      cases target with
      | elements kind =>
        obtain ⟨own, rfl⟩ := Computation.pure_eq_ok run
        exact elementHit_loadElement own
      | string => exact elementHit_loadCharacter run
  | loadIndexedString =>
    have run := guarded (by simp only [hh])
    simp only [loadByHandler, Computation.get_bind, hh] at run
    exact elementHit_loadCharacter run
  | loadNonStrictArguments =>
    have run := guarded (by simp only [hh])
    simp only [loadByHandler, Computation.get_bind, hh] at run
    obtain ⟨own, rfl⟩ := Computation.pure_eq_ok run
    exact elementHit_loadArgument own
  | _ => simp [Handler.loadsElements, hh] at elements

/-- The second element of an array, by the stub that a load of the first one made. -/
theorem element_load_hit_array :
    let array : Value := .object ⟨10⟩
    let session := (Session.ofConfig {}).run [
      .onHeap (.array [.smi 7, .smi 8]), .newSite .keyedLoad {},
      .atSite 0 (.keyedLoad array (.smi 0))]
    let h := session.engine.heap
    ∃ site ∈ session.sites,
      Heap.runLoad site.target.spec array (.computed (.smi 1)) h = (.ok (.hit (.smi 8)), h) ∧
        Heap.getKeyed array (.smi 1) h = (.ok (.smi 8), h) := by
  intro array session h
  have made : session.sites ≠ [] := by decide +kernel
  let site := session.sites.head made
  have special : ∀ site ∈ session.sites, site.target.spec.handler.loadsElements := by decide +kernel
  have hit : Heap.runLoad site.target.spec array (.computed (.smi 1)) h =
      (.ok (.hit (.smi 8)), h) := by rfl
  refine ⟨site, List.head_mem made, hit, ?_⟩
  obtain ⟨k, i, e, hi, general⟩ := element_load_hit (special site (List.head_mem made)) hit
  cases e
  rw [show h.wrappedUnit? array i = none by
    unfold Heap.wrappedUnit?; rw [if_neg (by decide +kernel)]] at general
  exact general

/-- An element of a string wrapper at a position of its string. -/
theorem element_load_wrapper_differs :
    let wrapper : Value := .object ⟨11⟩
    let session := (Session.ofConfig {}).run [
      .onHeap (.string "abc"), .onHeap (.stringWrapper (.object ⟨10⟩)),
      .onHeap (.setElement wrapper 0 (.smi 5)), .newSite .keyedLoad {},
      .atSite 0 (.keyedLoad wrapper (.smi 0))]
    let h := session.engine.heap
    session.Reachable { stringWrappers := true } ∧
      ∃ site ∈ session.sites, site.target.spec.handler.loadsElements ∧
        (Heap.runLoad site.target.spec wrapper (.computed (.smi 0)) h).1.toOption =
          some (.hit (.smi 5)) ∧
        ((Heap.getKeyed wrapper (.smi 0) h).1.toOption.bind
          (Heap.getKeyed wrapper (.smi 0) h).2.string?) = some "a" := by
  intro wrapper session h
  refine ⟨.run (.initial {}) ⟨trivial, fun _ => by decide +kernel, trivial, trivial, trivial,
    trivial⟩, by decide +kernel⟩

end Speculation
