import Speculation.Proofs.Cache.CalleeCalls

/-!
# Reading a property twice

A site that has stopped specializing reads the property in its stub. If that is no function, then the
miss reads it once more. `Heap.ReadsOnce` lists what makes the second look harmless, so that it finds
the same by the same calls (`Heap.ReadsOnce.sameCallee`). Otherwise:

* A getter that gives no function runs twice.
* The first look may turn the key into a name, for which the miss has other error messages.
* `undefined` and `null` fail in the stub already, with the message for a load.
-/

namespace Speculation

namespace Heap

variable {rules : Rules} {h g h' : Heap} {receiver key v : Value} {name : Name}

/-! ### Looking twice -/

/-- Two ways to a function that cannot be told apart, except for stubs: the same result by the same
calls, and the same objects if it is a function. -/
structure Alike (r r' : Except Fault Value × Heap) : Prop where
  result : r.1 = r'.1
  log : r.2.bare.invocations = r'.2.bare.invocations
  objects : ∀ f, r.1 = .ok f → r.2.bare = r'.2.bare

theorem Alike.of_bare {r r' : Except Fault Value × Heap} (result : r.1 = r'.1)
    (objects : r.2.bare = r'.2.bare) : Alike r r' :=
  ⟨result, by rw [objects], fun _ _ => objects⟩

theorem Alike.refl (r : Except Fault Value × Heap) : Alike r r := .of_bare rfl rfl

theorem Alike.trans {r r' r'' : Except Fault Value × Heap} (a : Alike r r') (b : Alike r' r'') :
    Alike r r'' where
  result := a.result.trans b.result
  log := a.log.trans b.log
  objects f e := (a.objects f e).trans (b.objects f (a.result.symm.trans e))

/-- What is found to call, and how, does not change from one heap to another. -/
structure SameCallee (h g : Heap) (receiver key : Value) : Prop where
  name : (Key.computed key).name? g = (Key.computed key).name? h
  alike : Alike (keyedCallee receiver key g) (keyedCallee receiver key h)

theorem SameCallee.refl (h : Heap) (receiver key : Value) : SameCallee h h receiver key :=
  ⟨rfl, .refl _⟩

/-- The function that a key which is no name leads to. -/
theorem keyedCallee_of_no_name (hn : (Key.computed key).name? h = none)
    (proper : receiver.isNullish = false) :
    keyedCallee receiver key h = (do
      let f ← getKeyed receiver key
      requireCallable receiver f fun h => h.toText key : Action Value) h := by
  simp only [keyedCallee, Computation.get_bind, hn, proper, Bool.false_eq_true, if_false]

/-- A key that selects no element is read as a name, which is in use from then on. -/
theorem getKeyed_other (proper : receiver.isNullish = false) (other : h.arrayIndex? key = none) :
    getKeyed receiver key h =
      getProperty receiver ⟨h.toText key⟩ (h.intern ⟨h.toText key⟩) := by
  have spelled : nameOfKey key h = (.ok ⟨h.toText key⟩, h.intern ⟨h.toText key⟩) := rfl
  simp only [getKeyed, Computation.get_bind, proper, Bool.false_eq_true, if_false, other]
  exact Computation.bind_ok spelled

/-- Nothing is called of `undefined` and `null`. -/
theorem keyedCallee_of_isNullish (nullish : receiver.isNullish) :
    keyedCallee receiver key h =
      (.error (.raised (.nonObjectCall (h.toText key) (h.describe receiver))), h) := by
  simp only [keyedCallee, Computation.get_bind]
  cases hn : (Key.computed key).name? h with
  | none => simp [nullish, raise]
  | some n => simp [namedCallee, nullish, raise, toText_of_name hn]

/-! The text of a key may become a name. -/

section Intern

theorem toText_intern (n : Name) (v : Value) : (h.intern n).toText v = h.toText v := by
  unfold intern
  split <;> rfl

theorem arrayIndex?_intern (n : Name) (v : Value) : (h.intern n).arrayIndex? v = h.arrayIndex? v := by
  unfold intern
  split <;> rfl

/-- A name is entered once. -/
theorem intern_intern (n : Name) : (h.intern n).intern n = h.intern n := by
  have known : (h.intern n).names.contains n := by
    by_cases known : h.names.contains n
    · rwa [intern, if_pos known]
    · rw [intern, if_neg known]
      simp
  rw [intern, if_pos known]

/-- The text of a key is interned when it is read, which makes no difference the next time. -/
theorem SameCallee.intern (hn : (Key.computed key).name? h = none)
    (proper : receiver.isNullish = false) (other : h.arrayIndex? key = none)
    (named : (Key.computed key).name? (h.intern ⟨h.toText key⟩) = none) :
    SameCallee h (h.intern ⟨h.toText key⟩) receiver key := by
  have read : getKeyed receiver key (h.intern ⟨h.toText key⟩) = getKeyed receiver key h := by
    rw [getKeyed_other proper other, getKeyed_other proper (by rwa [arrayIndex?_intern]),
      toText_intern, intern_intern]
  have same : keyedCallee receiver key (h.intern ⟨h.toText key⟩) = keyedCallee receiver key h := by
    rw [keyedCallee_of_no_name named proper, keyedCallee_of_no_name hn proper,
      Computation.bind_apply, Computation.bind_apply, read]
  exact ⟨named.trans hn.symm, same ▸ .refl _⟩

end Intern

/-! The characters of a string are new strings. -/

/-- A new string is one more cell where allocation is allowed. -/
theorem newString_of_allowed (allowed : h.allocationAllowed) (text : String) :
    newString text h = (.ok (.object ⟨h.cells.size⟩),
      { h with cells := h.cells.push (.string text false) }) := by
  have made : allocate (.string text false) h = (.ok ⟨h.cells.size⟩,
      { h with cells := h.cells.push (.string text false) }) := by
    simp only [allocate, Computation.get_bind, allowed, if_true]
    rfl
  exact Computation.bind_ok made

/-- A new string that could be made is one more cell. -/
theorem newString_eq_ok {text : String} (e : newString text h = (.ok v, g)) :
    h.allocationAllowed ∧ g = { h with cells := h.cells.push (.string text false) } := by
  by_cases allowed : h.allocationAllowed
  · rw [newString_of_allowed allowed] at e
    cases e
    exact ⟨allowed, rfl⟩
  · obtain ⟨id, h₁, made, -⟩ := Computation.bind_eq_ok e
    simp only [allocate, Computation.get_bind, if_neg allowed] at made
    cases made

section Characters

variable {c : Cell} {i : Nat}

theorem get?_push (hv : h.get? v = some c) (new : Cell) :
    ({ h with cells := h.cells.push new } : Heap).get? v = some c := by
  obtain ⟨id, hid, hc⟩ := Option.bind_eq_some_iff.1 hv
  have hlt := (Array.getElem?_eq_some_iff.1 hc).1
  refine Option.bind_eq_some_iff.2 ⟨id, hid, ?_⟩
  simp only [cell?] at hc ⊢
  rw [Array.getElem?_push_lt hlt, ← hc, Array.getElem?_eq_getElem hlt]

/-- A key that selects an element is a small integer, or there is a number or a string for it. -/
theorem known_of_arrayIndex? (hi : h.arrayIndex? key = some i) :
    (∃ j, key = .smi j) ∨ ∃ c, h.get? key = some c := by
  unfold arrayIndex? at hi
  split at hi
  · exact .inl ⟨_, rfl⟩
  · split at hi
    · exact .inr ⟨_, ‹_›⟩
    · exact .inr ⟨_, ‹_›⟩
    · cases hi

theorem string?_push {text : String} (hs : h.string? v = some text) (new : Cell) :
    ({ h with cells := h.cells.push new } : Heap).string? v = some text := by
  unfold string? at hs ⊢
  split at hs
  · rename_i hv
    rwa [get?_push hv]
  · cases hs

/-- A string that has characters stays the same, and so does what it is called. -/
theorem indexedString?_push {text : String} (hs : h.indexedString? receiver = some text)
    (new : Cell) :
    ({ h with cells := h.cells.push new } : Heap).indexedString? receiver = some text ∧
      ({ h with cells := h.cells.push new } : Heap).describe receiver = h.describe receiver := by
  cases receiver with
  | object id =>
    cases hc : h.cell? id with
    | none =>
      simp [indexedString?, classOf?, asObject?, Value.objectId?, object?, string?, get?, hc] at hs
    | some c =>
      have hc' : ({ h with cells := h.cells.push new } : Heap).cell? id = some c :=
        get?_push (v := .object id) hc new
      -- A cell more does not change those there were.
      have same : ({ h with cells := h.cells.push new } : Heap).classOf? (.object id) =
          h.classOf? (.object id) := by
        simp only [classOf?, asObject?, Value.objectId?, Option.bind_some, object?, hc, hc']
      refine ⟨?_, ?_⟩
      · unfold indexedString? at hs ⊢
        rw [same]
        split at hs
        · exact string?_push hs new
        · exact string?_push hs new
      · simp only [describe, hc, hc']
        rfl
  | _ => cases hs

/-- A key that selects an element keeps its meaning. -/
theorem key_push (hi : h.arrayIndex? key = some i) (new : Cell) :
    ({ h with cells := h.cells.push new } : Heap).arrayIndex? key = some i ∧
      ({ h with cells := h.cells.push new } : Heap).toText key = h.toText key ∧
      (Key.computed key).name? { h with cells := h.cells.push new } = (Key.computed key).name? h := by
  rcases known_of_arrayIndex? hi with ⟨j, rfl⟩ | ⟨c, hc⟩
  · exact ⟨hi, rfl, rfl⟩
  · have hc' := get?_push hc new
    refine ⟨?_, ?_, ?_⟩
    · rw [← hi]
      unfold arrayIndex?
      rw [hc, hc']
    · simp only [toText, hc, hc']
    · simp only [Key.name?, isInternalized, string?, hc, hc']

/-- A character is no function. -/
theorem keyedCallee_character {text : String} {u : Nat} (allowed : h.allocationAllowed)
    (hn : (Key.computed key).name? h = none) (proper : receiver.isNullish = false)
    (hi : h.arrayIndex? key = some i) (hs : h.indexedString? receiver = some text)
    (hu : (Text.units text)[i]? = some u) : keyedCallee receiver key h =
      (.error (.raised (.propertyNotFunction (h.toText key) (h.describe receiver))),
        { h with cells := h.cells.push (.string (Text.textOfUnit u) false) }) := by
  have read : getKeyed receiver key h = (.ok (.object ⟨h.cells.size⟩),
      { h with cells := h.cells.push (.string (Text.textOfUnit u) false) }) := by
    simp only [getKeyed, Computation.get_bind, proper, Bool.false_eq_true, if_false, hi, getElement,
      hs, Option.bind_some, hu, newString_of_allowed allowed]
  have primitive : ({ h with cells := h.cells.push (.string (Text.textOfUnit u) false) } :
      Heap).isCallable (.object ⟨h.cells.size⟩) = false := by
    simp [isCallable, isFunction, delegate?, classOf?, asObject?, Value.objectId?, object?, cell?]
  rw [keyedCallee_of_no_name hn proper, Computation.bind_ok read]
  simp only [requireCallable, Computation.get_bind, primitive, Bool.false_eq_true, if_false,
    (key_push hi _).2.1, (indexedString?_push hs _).2]
  rfl

/-- To read a character again gives another string, which is no function either. -/
theorem SameCallee.character {text : String} {u : Nat} (hn : (Key.computed key).name? h = none)
    (proper : receiver.isNullish = false) (hi : h.arrayIndex? key = some i)
    (hs : h.indexedString? receiver = some text) (hu : (Text.units text)[i]? = some u)
    (e : newString (Text.textOfUnit u) h = (.ok v, g)) : SameCallee h g receiver key := by
  obtain ⟨allowed, rfl⟩ := newString_eq_ok e
  obtain ⟨hi', text', name'⟩ := key_push hi (.string (Text.textOfUnit u) false)
  obtain ⟨hs', receiver'⟩ := indexedString?_push hs (.string (Text.textOfUnit u) false)
  have first := keyedCallee_character allowed hn proper hi hs hu
  have second := keyedCallee_character (h := { h with
    cells := h.cells.push (.string (Text.textOfUnit u) false) }) allowed (name'.trans hn) proper hi'
    hs' hu
  rw [text', receiver'] at second
  refine ⟨name', ?_⟩
  rw [first, second]
  exact ⟨rfl, rfl, fun f e => by cases e⟩

end Characters

/-! ### Properties that can be read again -/

/-- Reads what is behind a key: the property with this name, if the key is a name as it stands. -/
def readBehind (receiver key : Value) : Action Value := do
  match (Key.computed key).name? (← get) with
  | some n => getProperty receiver n
  | none => getKeyed receiver key

/-- A property that may be read a second time if it was no function the first time. -/
structure ReadsOnce (h : Heap) (receiver key : Value) : Prop where
  proper : receiver.isNullish = false
  /-- A key that is no name as it stands does not become one when it is read. -/
  name : h.arrayIndex? key = none →
    (Key.computed key).name? (h.intern ⟨h.toText key⟩) = (Key.computed key).name? h
  /-- A getter that does not fail gives a function. -/
  getter : ∀ {v g}, readBehind receiver key h = (.ok v, g) → g.invocations ≠ h.invocations →
    g.isFunction v
  /-- A name does not select a character of a string, which would be a new string each time. -/
  character : ∀ {n i}, (Key.computed key).name? h = some n → n.arrayIndex? = some i →
    (h.indexedString? receiver).bind (fun s => (Text.units s)[i]?) = none

namespace ReadsOnce

variable (once : h.ReadsOnce receiver key)

include once

/-- A read that is repeated has called nothing before. -/
theorem silent (read : readBehind receiver key h = (.ok v, g)) (none : g.isFunction v = false) :
    g.invocations = h.invocations := by
  by_contra calls
  rw [once.getter read calls] at none
  cases none

/-- A property with a name that is no function calls nothing, and leaves the heap as it is. -/
theorem getProperty (hn : (Key.computed key).name? h = some name)
    (read : Heap.getProperty receiver name h = (.ok v, g)) (none : g.isFunction v = false) : g = h := by
  have behind : readBehind receiver key h = (.ok v, g) := by
    simp only [readBehind, Computation.get_bind, hn, read]
  exact getProperty_of_silent read (once.silent behind none)

/-- **A property that is no function can be read again.** -/
theorem sameCallee (read : getKeyed receiver key h = (.ok v, g)) (none : g.isFunction v = false) :
    SameCallee h g receiver key := by
  -- A key with a name leaves the heap alone. One without is interned by the first look, or names
  -- a character that the look makes a string of.
  cases hn : (Key.computed key).name? h with
  | some n =>
    simp only [getKeyed_of_name hn, once.proper, Bool.false_eq_true, if_false] at read
    cases index : n.arrayIndex? with
    | none =>
      rw [index] at read
      rw [once.getProperty hn read none]
      exact .refl ..
    | some i =>
      simp only [index, getElement, Computation.get_bind, once.character hn index] at read
      cases read
      exact .refl ..
  | none =>
    have behind : readBehind receiver key h = (.ok v, g) := by
      simp only [readBehind, Computation.get_bind, hn, read]
    have silent := once.silent behind none
    cases hi : h.arrayIndex? key with
    | none =>
      rw [getKeyed_other once.proper hi] at read
      have same := getProperty_of_silent read
        (silent.trans (log_of_outside (h.outside_intern _)).symm)
      rw [same]
      exact .intern hn once.proper hi ((once.name hi).trans hn)
    | some i =>
      simp only [getKeyed, Computation.get_bind, once.proper, Bool.false_eq_true, if_false, hi,
        getElement] at read
      cases hu : (h.indexedString? receiver).bind fun s => (Text.units s)[i]? with
      | some u =>
        rw [hu] at read
        obtain ⟨text, hs, hu⟩ := Option.bind_eq_some_iff.1 hu
        exact .character hn once.proper hi hs hu read
      | none =>
        rw [hu] at read
        cases read
        exact .refl ..

end ReadsOnce

end Heap

end Speculation
