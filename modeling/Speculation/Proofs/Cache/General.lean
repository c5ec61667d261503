import Speculation.Proofs.Cache.Accesses

/-!
# The general rules for a miss

What a miss of a named load or store and of a call does to the heap, apart from caches: `namedLoad`,
`namedStore`, `namedCallee` and `keyedCallee`, none of which depends on the site. They read the heap, but not
the stubs of its shapes, and are blind if the host is. Relations that hold across calls and stores hold
across them.
-/

namespace Speculation

namespace Heap

variable {h : Heap} {w : Setting}

@[simp] theorem name?_bare (h : Heap) (key : Key) : key.name? h.bare = key.name? h := rfl

/-! ### Named loads by the general rules -/

/-- What a named load does in a heap: nothing has properties but objects, strings and numbers;
properties that no shape describes come first, then elements, then what a lookup finds. -/
def namedLoad (h : Heap) (receiver : Value) (name : Name) : Action Value :=
  if receiver.isNullish then raise (.nonObjectLoad name.text (h.describe receiver))
  else
    match h.intrinsicLoad? receiver name with
    | some v => pure v
    | none =>
      match name.arrayIndex? with
      | some i => getElement receiver i
      | none =>
        if !(h.lookup receiver name).isFound && h.isGlobalObject receiver then
          raise (.notDefined name.text)
        else readLookup receiver (h.lookup receiver name) name

@[simp] theorem intrinsicLoad?_bare (h : Heap) (receiver : Value) (name : Name) :
    h.bare.intrinsicLoad? receiver name = h.intrinsicLoad? receiver name := rfl

@[simp] theorem isGlobalProxy_bare (h : Heap) (v : Value) :
    h.bare.isGlobalProxy v = h.isGlobalProxy v := rfl

@[simp] theorem isFast_bare (h : Heap) (id : ObjectId) : h.bare.isFast id = h.isFast id := by
  simp only [isFast, object?_bare, shapeOf_bare]
  rfl

@[simp] theorem lookupForStore_bare (h : Heap) (id : ObjectId) (name : Name) :
    h.bare.lookupForStore id name = h.lookupForStore id name := by
  have transition : h.bare.lookupTransition id name = h.lookupTransition id name := by
    simp only [lookupTransition, object?_bare, shapeOf_bare, Shape.transitions_bare, shape_bare,
      Shape.lastAdded?_bare]
  have cacheable : ∀ found, h.bare.isCacheableStore id found = h.isCacheableStore id found := by
    intro found
    cases found <;> simp [isCacheableStore]
  simp only [lookupForStore, own_bare, transition, cacheable, lookup_bare, ownReal_bare]

theorem blind_namedLoad (sees : w.Blind) (h : Heap) (receiver : Value) (name : Name) :
    Blind w (h.namedLoad receiver name) := by
  unfold namedLoad
  split
  · exact blind_throw _
  · split
    · exact blind_pure _
    · split
      · exact blind_getElement receiver _
      · split
        · exact blind_throw _
        · exact blind_readLookup sees receiver _ name

/-! ### Named stores by the general rules -/

/-- Whether a store to an object would make a new global variable. -/
def isUndeclared (h : Heap) (id : ObjectId) (name : Name) : Bool :=
  h.isGlobalObject (.object id) && !(h.lookupForStore id name).1 &&
    !(h.lookupForStore id name).2.isFound

/-- What a named store does in a heap: only objects have properties, array indices select elements,
and strict code may not make global variables. -/
def namedStore (h : Heap) (receiver : Value) (name : Name) (v : Value) (strict : Bool) :
    Action Value :=
  if receiver.isNullish then raise (.nonObjectStore name.text (h.describe receiver))
  else if strict && h.isString receiver && decide (name = .length) then
    raise (.readOnly name.text (h.describe receiver))
  else
    match h.holderId? receiver .receiver with
    | none => pure v
    | some id =>
      match name.arrayIndex? with
      | some i => setElement receiver i v
      | none =>
        if strict && h.isUndeclared id name then raise (.notDefined name.text)
        else setProperty receiver name v strict

section Undeclared

variable {id : ObjectId} {name : Name} {v : Value}

/-- Only global objects miss a declaration. -/
theorem isUndeclared_of_other (other : h.isGlobalObject (.object id) = false) :
    h.isUndeclared id name = false := by
  simp [isUndeclared, other]

/-- A store that a stub can be made for is declared. -/
theorem isUndeclared_of_cacheable (cacheable : (h.lookupForStore id name).1 = true) :
    h.isUndeclared id name = false := by
  simp [isUndeclared, cacheable]

theorem isGlobalObject_of_isArray (array : h.isArray v) : h.isGlobalObject v = false := by
  unfold isArray at array
  unfold isGlobalObject
  split at array
  · rename_i hc
    rw [hc]
  · cases array

theorem isGlobalObject_of_isGlobalProxy (proxy : h.isGlobalProxy v) :
    h.isGlobalObject v = false := by
  unfold isGlobalProxy at proxy
  unfold isGlobalObject
  split at proxy
  · rename_i hc
    rw [hc]
  · cases proxy

end Undeclared

theorem blind_namedStore (sees : w.Blind) (h : Heap) (receiver : Value) (name : Name) (v : Value)
    (strict : Bool) : Blind w (h.namedStore receiver name v strict) := by
  unfold namedStore
  split
  · exact blind_throw _
  · split
    · exact blind_throw _
    · split
      · exact blind_pure v
      · split
        · exact blind_setElement receiver _ v
        · split
          · exact blind_throw _
          · exact blind_setProperty sees receiver name v strict

/-! ### Calls by the general rules -/

/-- A value that was found to call, or the exception for one that cannot be called. -/
def requireCallable (receiver f : Value) (text : Heap → String) : Action Value := do
  let h ← get
  if h.isCallable f then return f else raise (.propertyNotFunction (text h) (h.describe receiver))

/-- Reads the method that a lookup found. -/
def readMethod (h : Heap) (receiver : Value) (found : Lookup) (name : Name) : Action Value := do
  if h.answersNothing found name then raise (h.missingMethod receiver name)
  else
    let f ← readLookup receiver found name
    requireCallable receiver f fun _ => name.text

/-- The method that a lookup leads to. -/
def method (receiver : Value) (name : Name) : Action Value := do
  let h ← get
  if !(h.lookup receiver name).isFound then raise (h.missingMethod receiver name)
  else h.readMethod receiver (h.lookup receiver name) name

/-- The element that a name selects, if it spells an array index. -/
def elementNamed (receiver : Value) (name : Name) : Action (Option Value) :=
  match name.arrayIndex? with
  | some i => some <$> getElement receiver i
  | none => pure none

/-- An element that can be called comes before a method. -/
def elementOrMethod (receiver : Value) (name : Name) (element : Option Value) : Action Value := do
  match element.filter (← get).isCallable with
  | some f => return f
  | none => method receiver name

/-- What a call of a named property calls. -/
def namedCallee (receiver : Value) (name : Name) : Action Value := do
  let h ← get
  if receiver.isNullish then raise (.nonObjectCall name.text (h.describe receiver))
  else
    let element ← elementNamed receiver name
    elementOrMethod receiver name element

/-- Reads a method by any value as a key. -/
def keyedMethod (receiver key : Value) : Action Value := do
  let f ← getKeyed receiver key
  requireCallable receiver f fun h => h.toText key

/-- What a call of a property with a computed key calls. -/
def keyedCallee (receiver key : Value) : Action Value := do
  let h ← get
  match (Key.computed key).name? h with
  | some name => namedCallee receiver name
  | none =>
    if receiver.isNullish then raise (.nonObjectCall (h.toText key) (h.describe receiver))
    else
      let f ← getKeyed receiver key
      requireCallable receiver f fun h => h.toText key

theorem blind_requireCallable (receiver f : Value) {text : Heap → String}
    (same : ∀ h : Heap, text h.bare = text h) : Blind w (requireCallable receiver f text) := by
  refine blind_get (fun h => by rw [isCallable_bare, same, describe_bare]) fun h => ?_
  split
  · exact blind_pure f
  · exact blind_throw _

@[simp] theorem missingMethod_bare (receiver : Value) (name : Name) :
    h.bare.missingMethod receiver name = h.missingMethod receiver name := rfl

@[simp] theorem answersNothing_bare (found : Lookup) (name : Name) :
    h.bare.answersNothing found name = h.answersNothing found name := by
  cases found with
  | interceptor holder =>
    simp only [answersNothing, lookupReal_bare]
    rfl
  | _ => rfl

@[simp] theorem readMethod_bare (receiver : Value) (found : Lookup) (name : Name) :
    h.bare.readMethod receiver found name = h.readMethod receiver found name := by
  simp only [readMethod, answersNothing_bare, missingMethod_bare]

theorem blind_readMethod (sees : w.Blind) (h : Heap) (receiver : Value) (found : Lookup)
    (name : Name) : Blind w (h.readMethod receiver found name) := by
  unfold readMethod
  split
  · exact blind_throw _
  · exact (blind_readLookup sees receiver found name).bind fun f =>
      blind_requireCallable receiver f fun _ => rfl

theorem blind_method (sees : w.Blind) (receiver : Value) (name : Name) :
    Blind w (method receiver name) := by
  refine blind_get (fun h => ?_) fun h => ?_
  · simp only [lookup_bare, readMethod_bare, missingMethod_bare]
  · split
    · exact blind_throw _
    · exact blind_readMethod sees h receiver _ name

theorem blind_elementOrMethod (sees : w.Blind) (receiver : Value) (name : Name)
    (element : Option Value) : Blind w (elementOrMethod receiver name element) := by
  refine blind_get (fun h => rfl) fun h => ?_
  split
  · exact blind_pure _
  · exact blind_method sees receiver name

theorem blind_elementNamed (receiver : Value) (name : Name) :
    Blind w (elementNamed receiver name) := by
  unfold elementNamed
  split
  · exact (blind_getElement receiver _).bind fun _ => blind_pure _
  · exact blind_pure none

theorem blind_namedCallee (sees : w.Blind) (receiver : Value) (name : Name) :
    Blind w (namedCallee receiver name) := by
  refine blind_get (fun h => by rw [describe_bare]) fun h => ?_
  split
  · exact blind_throw _
  · exact (blind_elementNamed receiver name).bind fun element =>
      blind_elementOrMethod sees receiver name element

theorem blind_keyedMethod (sees : w.Blind) (receiver key : Value) :
    Blind w (keyedMethod receiver key) :=
  (blind_getKeyed sees receiver key).bind fun f => blind_requireCallable receiver f fun _ => rfl

/-! ### Relations across the general rules -/

section Closed

variable {rules : Rules} {R : Heap → Heap → Prop} (ob : h.Obeys rules)

include ob

theorem CallClosed.namedLoad (c : CallClosed rules R) (g : Heap) (receiver : Value) (name : Name) :
    R h (g.namedLoad receiver name h).2 := by
  unfold Heap.namedLoad
  split
  · exact c.refl ob
  · cases g.intrinsicLoad? receiver name with
    | some v => exact c.refl ob
    | none =>
      cases name.arrayIndex? with
      | some i => exact c.getElement ob receiver i
      | none =>
        dsimp only
        split
        · exact c.refl ob
        · exact c.readLookup ob receiver _ name

theorem ElementClosed.namedStore (c : ElementClosed rules R) (g : Heap) (receiver : Value)
    (name : Name) (v : Value) (strict : Bool) : R h (g.namedStore receiver name v strict h).2 := by
  unfold Heap.namedStore
  split
  · exact c.refl ob
  · split
    · exact c.refl ob
    · cases g.holderId? receiver .receiver with
      | none => exact c.refl ob
      | some id =>
        cases name.arrayIndex? with
        | some i => exact c.setElement ob receiver i v
        | none =>
          dsimp only
          split
          · exact c.refl ob
          · exact c.setProperty ob receiver name v strict

variable (c : CallClosed rules R)

include c

theorem CallClosed.requireCallable (receiver f : Value) (text : Heap → String) :
    R h (requireCallable receiver f text h).2 := by
  simp only [Heap.requireCallable, Computation.get_bind]
  split <;> exact c.refl ob

theorem CallClosed.readMethod (g : Heap) (receiver : Value) (found : Lookup) (name : Name) :
    R h (g.readMethod receiver found name h).2 := by
  unfold Heap.readMethod
  split
  · exact c.refl ob
  · have a := c.readLookup ob receiver found name
    exact Computation.bind_rel c.trans a fun f _ =>
      c.requireCallable (c.leads a).obeys receiver f _

theorem CallClosed.elementOrMethod (receiver : Value) (name : Name) (element : Option Value) :
    R h (elementOrMethod receiver name element h).2 := by
  simp only [Heap.elementOrMethod, Computation.get_bind]
  cases element.filter h.isCallable with
  | some f => exact c.refl ob
  | none =>
    simp only [Heap.method, Computation.get_bind]
    split
    · exact c.refl ob
    · exact c.readMethod ob h receiver _ name

theorem CallClosed.elementNamed (receiver : Value) (name : Name) :
    R h (elementNamed receiver name h).2 := by
  unfold Heap.elementNamed
  cases name.arrayIndex? with
  | none => exact c.refl ob
  | some i => exact c.bind_pure (c.getElement ob receiver i) fun _ _ => rfl

theorem CallClosed.namedCallee (receiver : Value) (name : Name) :
    R h (namedCallee receiver name h).2 := by
  simp only [Heap.namedCallee, Computation.get_bind]
  split
  · exact c.refl ob
  · have a := c.elementNamed ob receiver name
    exact Computation.bind_rel c.trans a fun element _ =>
      c.elementOrMethod (c.leads a).obeys receiver name element

theorem CallClosed.keyedMethod (receiver key : Value) :
    R h (keyedMethod receiver key h).2 := by
  have a := c.getKeyed ob receiver key
  exact Computation.bind_rel c.trans a fun f _ =>
    c.requireCallable (c.leads a).obeys receiver f _

theorem CallClosed.keyedCallee (receiver key : Value) :
    R h (keyedCallee receiver key h).2 := by
  simp only [Heap.keyedCallee, Computation.get_bind]
  cases (Key.computed key).name? h with
  | some name => exact c.namedCallee ob receiver name
  | none =>
    dsimp only
    split
    · exact c.refl ob
    · exact c.keyedMethod ob receiver key

end Closed

end Heap

end Speculation
