import Speculation.Heap.Access
import Speculation.Proofs.Heap.Operations

/-!
# Calls keep heaps well formed

Getters and setters call functions, and what these do is up to the host. `StoreClosed` collects what a
relation between heaps has to satisfy so that it holds across every store, whatever calls setters;
`CallClosed` adds what host functions do and the note that is taken of every call, and with it the
relation holds across every call, by induction on the number of handlers (`CallClosed.invoke`).
`ElementClosed` adds stores of elements.

A function of the host only performs operations of the heap, so a relation that every allowed
operation keeps is one that it keeps (`StoreClosed.callClosed`); where more is known of the host, the
operations need to keep the relation only as far as that goes (`StoreClosed.under`).

Growth is the first such relation (`elementClosed_leads`); with it, every way to read or write a
property leads from a well-formed heap to a well-formed one.
-/

namespace Speculation

namespace Heap

variable {rules : Rules} {h h' : Heap} {id : ObjectId} {name : Name}

/-- A call is listed, and then passed on along handlers for as many steps as there are cells. -/
theorem call_apply (callee receiver : Value) (args : List Value) (h : Heap) :
    call callee receiver args h =
      invoke (h.cells.size + 1) callee receiver args (h.noteCall callee receiver args) := rfl

/-! ### The route of a store -/

/-- What a store of a named property does. -/
inductive StoreRoute where
  /-- Primitive values have no properties of their own. -/
  | ignored
  | arrayLength (id : ObjectId)
  | setter (id : ObjectId) (setter : Value)
  | refused
  | write (id : ObjectId) (kind : PropertyKind)
  | add (id : ObjectId)
deriving DecidableEq, Repr

/-- The route that a store takes, which is decided before anything is written. -/
def storeRoute (h : Heap) (receiver : Value) (name : Name) : StoreRoute :=
  match receiver.objectId?.filter fun _ => h.isJsObject receiver with
  | none => .ignored
  | some id =>
    let id := h.resolveProxy id
    if name = .length && h.isArray (.object id) then .arrayLength id
    else
      match h.lookupReal id name with
      | .property holder kind attributes =>
        match kind with
        | .accessor _ setter => if h.isCallable setter then .setter id setter else .refused
        | _ =>
          if attributes.readOnly then .refused
          else if holder = id then .write id kind
          else .add id
      | _ => .add id

/-- A store follows its route. -/
theorem setPropertyWith_apply (call : Caller) (receiver : Value) (name : Name) (v : Value)
    (strict : Bool) (h : Heap) :
    setPropertyWith call receiver name v strict h =
      (match h.storeRoute receiver name with
      | .ignored => pure v
      | .arrayLength id => do
        runExcept fun h => h.storeArrayLength id v
        pure v
      | .setter id setter => do
        let _ ← call setter (.object id) [v]
        pure v
      | .refused => refuseStore receiver name v strict
      | .write id kind => do
        set (h.writeOwn id name kind v)
        pure v
      | .add id => do
        set (h.addProperty id name v {})
        pure v : Action Value) h := by
  simp only [setPropertyWith, storeRoute, Computation.get_bind]
  -- The route follows the branches of the store, one for one.
  cases receiver.objectId?.filter fun _ => h.isJsObject receiver with
  | none => rfl
  | some j =>
    dsimp only
    split
    · rfl
    · cases h.lookupReal (h.resolveProxy j) name with
      | property holder kind a =>
        cases kind with
        | accessor g s => by_cases hs : h.isCallable s <;> simp [hs]
        | _ => by_cases ha : a.readOnly <;> by_cases hj : holder = h.resolveProxy j <;> simp [ha, hj]
      | _ => rfl

/-- An object to which a store adds a property: it does not own the name, and what it inherits, if
anything, has no setter. -/
structure StoreAdds (h : Heap) (id : ObjectId) (name : Name) : Prop where
  real : h.resolveProxy id = id
  absent : h.ownReal id name = .notFound
  array : ¬ (name = .length ∧ h.isArray (.object id))
  data : ∀ {holder k a}, h.lookupReal id name = .property holder k a → k.isAccessor = false

/-- Where a route ends, and why. -/
theorem Obeys.storeRoute_spec (ob : h.Obeys rules) (receiver : Value) (name : Name) :
    match h.storeRoute receiver name with
    | .arrayLength id => name = .length ∧ h.isArray (.object id)
    | .write id kind => h.resolveProxy id = id ∧
      ∃ a, h.ownReal id name = .property id kind a ∧ a.readOnly = false
    | .add id => h.StoreAdds id name
    | _ => True := by
  unfold storeRoute
  cases receiver.objectId?.filter fun _ => h.isJsObject receiver with
  | none => trivial
  | some j =>
    have hr := ob.resolveProxy_resolveProxy j
    dsimp only
    generalize h.resolveProxy j = id at hr ⊢
    -- An array's length leaves before the lookup.
    by_cases harr : name = .length ∧ h.isArray (.object id)
    · simp [harr]
    have harr' : (decide (name = .length) && h.isArray (.object id)) = false := by
      simpa [Bool.and_eq_false_iff] using harr
    simp only [harr', Bool.false_eq_true, if_false]
    have add (hne : ∀ k a, h.lookupReal id name ≠ .property id k a)
        (data : ∀ {holder k a}, h.lookupReal id name = .property holder k a →
          k.isAccessor = false) : h.StoreAdds id name :=
      ⟨hr, ownReal_notFound_of_lookupReal hr hne, harr, data⟩
    -- A data property is written where the object owns it; where it is inherited, or there is
    -- none, one is added.
    cases e : h.lookupReal id name with
    | property holder kind a =>
      cases kind with
      | accessor g s => by_cases hs : h.isCallable s <;> simp [hs]
      | _ =>
        by_cases ha : a.readOnly
        · simp [ha]
        · by_cases hj : holder = id
          · subst hj
            simp only [ha, Bool.false_eq_true, if_false, if_true]
            exact ⟨hr, a, ob.ownReal_of_lookupReal e, by simpa using ha⟩
          · simp only [ha, hj, Bool.false_eq_true, if_false]
            refine add (fun k b e' => ?_) fun {_ _ _} e' => ?_
            · cases e.symm.trans e'
              exact hj rfl
            · cases e.symm.trans e'
              rfl
    | _ => exact add (by simp [e]) (by simp [e])

theorem thisString_snd (method : String) (receiver : Value) (h : Heap) :
    (thisString method receiver h).2 = h := by
  simp only [thisString, Computation.get_bind]
  cases h.string? receiver with
  | some s => rfl
  | none =>
    rcases h.classOf? receiver with _ | c
    · rfl
    · cases c <;> rfl

/-! ### Relations across calls -/

variable {R : Heap → Heap → Prop}

/-- A relation between well-formed heaps that holds across every step of a store. -/
structure StoreClosed (rules : Rules) (R : Heap → Heap → Prop) : Prop where
  leads : ∀ {h h'}, R h h' → Leads rules h h'
  refl : ∀ {h : Heap}, h.Obeys rules → R h h
  trans : ∀ {h h' h''}, R h h' → R h' h'' → R h h''
  intern : ∀ {h : Heap} (n : Name), h.Obeys rules → R h (h.intern n)
  /-- A number or a string. -/
  push : ∀ {h : Heap} {c : Cell}, h.Obeys rules → (∀ o, c ≠ .object o) →
    R h { h with cells := h.cells.push c }
  arrayLength : ∀ {h h' : Heap} {id : ObjectId} {v : Value}, h.Obeys rules →
    h.isArray (.object id) → h.storeArrayLength id v = .ok h' → R h h'
  write : ∀ {h : Heap} {id : ObjectId} {name : Name} {kind : PropertyKind} {a : Attributes}
    (v : Value), h.Obeys rules → h.resolveProxy id = id →
    h.ownReal id name = .property id kind a → a.readOnly = false →
    R h (h.writeOwn id name kind v)
  add : ∀ {h : Heap} {id : ObjectId} {name : Name} (v : Value), h.Obeys rules →
    h.StoreAdds id name → R h (h.addProperty id name v {})

namespace StoreClosed

variable (c : StoreClosed rules R)

include c

theorem allocate (ob : h.Obeys rules) (cell : Cell) (hc : ∀ o, cell ≠ .object o) :
    R h (allocate cell h).2 := by
  simp only [Heap.allocate, Computation.get_bind]
  split
  · exact c.push ob hc
  · exact c.refl ob

theorem newString (ob : h.Obeys rules) (s : String) : R h (newString s h).2 := by
  have a := c.allocate ob (.string s false) (by simp)
  unfold Heap.newString
  exact Computation.bind_rel c.trans a fun _ _ => c.refl (c.leads a).obeys

theorem boxNumber (ob : h.Obeys rules) (d : Double) : R h (boxNumber d h).2 := by
  have a := c.allocate ob (.number d) (by simp)
  unfold Heap.boxNumber
  exact Computation.bind_rel c.trans a fun _ _ => c.refl (c.leads a).obeys

theorem newNumber (ob : h.Obeys rules) (d : Double) : R h (newNumber d h).2 := by
  unfold Heap.newNumber
  cases smiOfNumber? d with
  | some v => exact c.refl ob
  | none => exact c.boxNumber ob d

/-- A caller across which the relation holds. -/
def Respects (rules : Rules) (R : Heap → Heap → Prop) (call : Caller) : Prop :=
  ∀ {h : Heap} (callee receiver : Value) (args : List Value), h.Obeys rules →
    R h (call callee receiver args h).2

theorem refuseStore (ob : h.Obeys rules) (receiver : Value) (name : Name) (v : Value)
    (strict : Bool) : R h (refuseStore receiver name v strict h).2 := by
  unfold Heap.refuseStore
  cases strict <;> exact c.refl ob

theorem runExcept (ob : h.Obeys rules) {f : Heap → Except Exception Heap}
    (hf : ∀ h', f h = .ok h' → R h h') : R h (runExcept f h).2 := by
  simp only [Heap.runExcept, Computation.get_bind]
  cases e : f h with
  | ok h' => exact hf h' e
  | error x => exact c.refl ob

/-- A store writes, adds, resizes or calls a setter. -/
theorem setPropertyWith {call : Caller} (hc : Respects rules R call) (ob : h.Obeys rules)
    (receiver : Value) (name : Name) (v : Value) (strict : Bool) :
    R h (setPropertyWith call receiver name v strict h).2 := by
  rw [setPropertyWith_apply]
  have spec := ob.storeRoute_spec receiver name
  cases e : h.storeRoute receiver name with
  | ignored => exact c.refl ob
  | arrayLength id =>
    rw [e] at spec
    have a := c.runExcept (f := fun h => h.storeArrayLength id v) ob
      fun h' e => c.arrayLength ob spec.2 e
    exact Computation.bind_rel c.trans a fun _ _ => c.refl (c.leads a).obeys
  | setter id setter =>
    have a := hc setter (.object id) [v] ob
    exact Computation.bind_rel c.trans a fun _ _ => c.refl (c.leads a).obeys
  | refused => exact c.refuseStore ob receiver name v strict
  | write id kind =>
    rw [e] at spec
    obtain ⟨hr, a, ho, ha⟩ := spec
    exact c.write v ob hr ho ha
  | add id =>
    rw [e] at spec
    exact c.add v ob spec

/-- A caller that calls nothing. -/
theorem callNothing : Respects rules R callNothing := fun _ _ _ ob => c.refl ob

theorem getElement (ob : h.Obeys rules) (receiver : Value) (index : Nat) :
    R h (getElement receiver index h).2 := by
  simp only [Heap.getElement, Computation.get_bind]
  cases (h.indexedString? receiver).bind fun s => (Text.units s)[index]? with
  | some u => exact c.newString ob _
  | none => exact c.refl ob

/-- A store of an element refuses or stores it. -/
theorem setElement (ob : h.Obeys rules) {index : Nat} {v : Value}
    (element : ∀ {h' id}, h.storeElement id index v = .ok h' → R h h') (receiver : Value) :
    R h (setElement receiver index v h).2 := by
  simp only [Heap.setElement, Computation.get_bind]
  cases receiver.objectId?.filter fun _ => h.isJsObject receiver with
  | none => exact c.refl ob
  | some id =>
    have a := c.runExcept ob (f := fun h => h.storeElement (h.resolveProxy id) index v)
      fun _ e => element e
    exact Computation.bind_rel c.trans a fun _ _ => c.refl (c.leads a).obeys

theorem nameOfKey (ob : h.Obeys rules) (key : Value) : R h (nameOfKey key h).2 := by
  simp only [Heap.nameOfKey, Computation.get_bind, Computation.modify_bind, Computation.pure_apply]
  exact c.intern _ ob

end StoreClosed

/-- A relation that also holds across what host functions do. -/
structure CallClosed (rules : Rules) (R : Heap → Heap → Prop) : Prop
    extends StoreClosed rules R where
  note : ∀ {h : Heap} (callee receiver : Value) (args : List Value), h.Obeys rules →
    R h (h.noteCall callee receiver args)
  host : ∀ {h : Heap} (i : Nat) (receiver : Value) (args : List Value), h.Obeys rules →
    R h (runHost (.provided i) receiver args h).2

/-- What allowed operations keep, host functions keep. -/
theorem StoreClosed.callClosed (c : StoreClosed rules R)
    (note : ∀ {h : Heap} (callee receiver : Value) (args : List Value), h.Obeys rules →
      R h (h.noteCall callee receiver args))
    (operations : ∀ {h : Heap} (op : HeapOperation), h.Obeys rules → op.Allowed rules h →
      R h (op.perform h)) : CallClosed rules R where
  toStoreClosed := c
  note := note
  host {h} i receiver args ob := by
    refine (ob.host h rfl ob.toWellFormed i receiver args).rel (c.refl ob) fun op r ok => ?_
    exact c.trans r (operations op (c.leads r).obeys ok.1)

namespace CallClosed

variable (c : CallClosed rules R)

include c

/-- A function of the host changes the heap by operations. -/
theorem runHost (ob : h.Obeys rules) (f : HostFunction) (receiver : Value) (args : List Value) :
    R h (runHost f receiver args h).2 := by
  cases f with
  | provided i => exact c.host i receiver args ob
  | charAt =>
    refine Computation.bind_rel c.trans (by rw [thisString_snd]; exact c.refl ob) fun s _ => ?_
    rw [thisString_snd, Computation.get_bind]
    cases h.position? args (Text.units s).length with
    | some i => exact c.newString ob _
    | none => exact c.newString ob _
  | charCodeAt =>
    refine Computation.bind_rel c.trans (by rw [thisString_snd]; exact c.refl ob) fun s _ => ?_
    rw [thisString_snd, Computation.get_bind]
    cases h.position? args (Text.units s).length with
    | some i => exact c.refl ob
    | none => exact c.boxNumber ob _

/-- Entering a function changes the heap by operations. -/
theorem enter : StoreClosed.Respects rules R enter := by
  intro h callee receiver args ob
  simp only [Heap.enter, Computation.get_bind]
  cases h.functionData? callee with
  | none => exact c.refl ob
  | some data =>
    dsimp only
    cases data.host with
    | some f => exact c.runHost ob f receiver args
    | none => exact c.refl ob

/-- The relation holds across any number of handlers. -/
theorem invoke (depth : Nat) : StoreClosed.Respects rules R (invoke depth) := by
  induction depth with
  | zero => exact fun _ _ _ ob => c.refl ob
  | succ depth ih =>
    intro h callee receiver args ob
    simp only [Heap.invoke, Computation.get_bind]
    cases h.delegate? callee with
    | some d => exact ih d callee args ob
    | none => exact c.enter callee receiver args ob

/-- A call changes the heap by operations. -/
theorem call : StoreClosed.Respects rules R call := by
  intro h callee receiver args ob
  rw [call_apply]
  have noted := c.note callee receiver args ob
  exact c.trans noted (c.invoke _ callee receiver args (c.leads noted).obeys)

/-- A store changes the heap by stores and calls. -/
theorem setProperty (ob : h.Obeys rules) (receiver : Value) (name : Name) (v : Value)
    (strict : Bool) : R h (setProperty receiver name v strict h).2 :=
  c.setPropertyWith c.call ob receiver name v strict

theorem callGetter (ob : h.Obeys rules) (getter receiver : Value) :
    R h (callGetter getter receiver h).2 := by
  simp only [Heap.callGetter, Computation.get_bind]
  split
  · exact c.call getter receiver [] ob
  · exact c.refl ob

theorem readReal (ob : h.Obeys rules) (receiver : Value) (found : Lookup) (name : Name) :
    R h (readReal receiver found name h).2 := by
  cases found with
  | property holder kind a =>
    cases kind with
    | accessor g s => exact c.callGetter ob g receiver
    | _ => exact c.refl ob
  | _ => exact c.refl ob

theorem readLookup (ob : h.Obeys rules) (receiver : Value) (found : Lookup) (name : Name) :
    R h (readLookup receiver found name h).2 := by
  cases found with
  | interceptor holder =>
    simp only [Heap.readLookup, Computation.get_bind]
    cases h.interceptorValue? holder name with
    | some v => exact c.refl ob
    | none => exact c.readReal ob receiver _ name
  | _ => exact c.readReal ob receiver _ name

/-- A read changes the heap by the calls of a getter. -/
theorem getProperty (ob : h.Obeys rules) (receiver : Value) (name : Name) :
    R h (getProperty receiver name h).2 := by
  simp only [Heap.getProperty, Computation.get_bind]
  cases h.intrinsic? receiver name with
  | some v => exact c.refl ob
  | none => exact c.readLookup ob receiver _ name

theorem getNamed (ob : h.Obeys rules) (receiver : Value) (name : Name) :
    R h (getNamed receiver name h).2 := by
  unfold Heap.getNamed
  split
  · exact c.refl ob
  · exact c.getProperty ob receiver name

theorem getKeyed (ob : h.Obeys rules) (receiver key : Value) : R h (getKeyed receiver key h).2 := by
  simp only [Heap.getKeyed, Computation.get_bind]
  split
  · exact c.refl ob
  · cases h.arrayIndex? key with
    | some i => exact c.getElement ob receiver i
    | none =>
      have a := c.nameOfKey ob key
      exact Computation.bind_rel c.trans a fun n _ => c.getProperty (c.leads a).obeys receiver n

end CallClosed

/-- A relation that also holds across stores of elements. -/
structure ElementClosed (rules : Rules) (R : Heap → Heap → Prop) : Prop
    extends CallClosed rules R where
  element : ∀ {h h' : Heap} {id : ObjectId} {index : Nat} {v : Value}, h.Obeys rules →
    h.storeElement id index v = .ok h' → R h h'

namespace ElementClosed

variable (c : ElementClosed rules R)

include c

theorem setElement (ob : h.Obeys rules) (receiver : Value) (index : Nat) (v : Value) :
    R h (setElement receiver index v h).2 :=
  c.toStoreClosed.setElement ob (c.element ob) receiver

theorem setNamed (ob : h.Obeys rules) (receiver : Value) (name : Name) (v : Value)
    (strict : Bool) : R h (setNamed receiver name v strict h).2 := by
  unfold Heap.setNamed
  split
  · exact c.refl ob
  · cases name.arrayIndex? with
    | some i => exact c.setElement ob receiver i v
    | none => exact c.setProperty ob receiver name v strict

theorem setKeyed (ob : h.Obeys rules) (receiver key v : Value) (strict : Bool) :
    R h (setKeyed receiver key v strict h).2 := by
  simp only [Heap.setKeyed, Computation.get_bind]
  split
  · exact c.refl ob
  · cases h.arrayIndex? key with
    | some i => exact c.setElement ob receiver i v
    | none =>
      have a := c.nameOfKey ob key
      exact Computation.bind_rel c.trans a fun n _ =>
        c.setProperty (c.leads a).obeys receiver n v strict

/-- The relation holds across every access. -/
theorem access (ob : h.Obeys rules) (op : Access) : R h (op.perform h) := by
  cases op with
  | getProperty r n => exact c.getProperty ob r n
  | setProperty r n v strict => exact c.setProperty ob r n v strict
  | getElement r i => exact c.getElement ob r i
  | getNamed r n => exact c.getNamed ob r n
  | setNamed r n v strict => exact c.setNamed ob r n v strict
  | getKeyed r k => exact c.getKeyed ob r k
  | setKeyed r k v strict => exact c.setKeyed ob r k v strict
  | call f r args => exact c.call f r args ob

end ElementClosed

/-! ### Growth across the steps of a store -/

theorem writeOwn_leads (ob : h.Obeys rules) (hr : h.resolveProxy id = id) {kind : PropertyKind}
    {a : Attributes} (ho : h.ownReal id name = .property id kind a) (v : Value) :
    Leads rules h (h.writeOwn id name kind v) := by
  cases kind with
  | field i => exact setField_leads ob i v
  | normal => exact setDictionaryValue_leads ob name v
  | constant k =>
    refine constantToField_leads ob v fun o hobj => ?_
    rw [ownReal_eq hr hobj, Lookup.ofOwned_eq_property] at ho
    exact ⟨_, k, Shape.descriptor?_of_owned? ho.2 (by simp), rfl⟩
  | accessor g s => exact ob.leads

theorem storeClosed_leads (rules : Rules) : StoreClosed rules (Leads rules) where
  leads l := l
  refl := Obeys.leads
  trans := Leads.trans
  intern n ob := intern_leads ob n
  push ob hc := ob.leads_push _ fun o e => absurd e (hc o)
  arrayLength ob _ e := storeArrayLength_leads ob e
  write v ob hr ho _ := writeOwn_leads ob hr ho v
  add v ob adds := addProperty_leads ob (mayAdd_of_ownReal adds.real adds.absent adds.array) v {}

theorem setArrayLength_leads (ob : h.Obeys rules) (id : ObjectId) (v : Value) :
    Leads rules h (setArrayLength id v h).2 :=
  (storeClosed_leads rules).runExcept ob fun _ e => storeArrayLength_leads ob e

theorem setElement_leads (ob : h.Obeys rules) (receiver : Value) (index : Nat) (v : Value) :
    Leads rules h (setElement receiver index v h).2 :=
  (storeClosed_leads rules).setElement ob (storeElement_leads ob) receiver

/-- Every operation that the rules allow leads to a well-formed heap. -/
theorem operation_leads (ob : h.Obeys rules) (op : HeapOperation)
    (allowed : op.Allowed rules h) : Leads rules h (op.perform h) := by
  cases op with
  | intern n => exact intern_leads ob n
  | number d => exact newNumber_leads ob d
  | boxedNumber d => exact boxNumber_leads ob d
  | string s => exact newString_leads ob s
  | internalize s => exact internalize_leads ob s
  | object => exact newObject_leads ob
  | objectWithPrototype p => exact newObjectWithPrototype_leads ob allowed
  | array vs => exact newArray_leads ob vs
  | arguments f vs strict => exact newArguments_leads ob f vs strict
  | stringWrapper v => exact newStringWrapper_leads ob allowed
  | shared n k c => exact newShared_leads ob n k c
  | closure s => exact newFunction_leads ob s
  | hostFunction n k f => exact newHostFunction_leads ob n k f
  | addProperty id n v a => exact addProperty_leads ob allowed v a
  | addConstant id n v a => exact addConstant_leads ob allowed v a
  | addAccessor id n g s => exact addAccessor_leads ob allowed g s
  | setField id i v => exact setField_leads ob i v
  | setDictionaryValue id n v => exact setDictionaryValue_leads ob n v
  | normalize id => exact normalize_leads ob id
  | delete id n => exact delete_leads ob id n
  | setInterceptor id vs => exact setInterceptor_leads ob vs
  | setCallHandler id f => exact setCallHandler_leads ob f
  | setGlobal n v a =>
    -- The global object is neither fast nor an array.
    obtain ⟨o, ho, hc, hd⟩ := ob.globalObject
    refine putEntry_leads ob ⟨fun _ o' ho' hf => ?_, fun _ _ o' ho' hk => ?_⟩ (fun o' ho' => ?_) _
    · obtain rfl := Option.some.inj (ho.symm.trans ho')
      simp [hd] at hf
    · obtain rfl := Option.some.inj (ho.symm.trans ho')
      simp [hc] at hk
    · obtain rfl := Option.some.inj (ho.symm.trans ho')
      exact hd
  | setContext id v => exact modifyFunction_leads ob fun _ => rfl
  | setCode id c => exact modifyFunction_leads ob fun _ => rfl
  | modifyShared s f => exact modifyShared_leads ob s f
  | elementsShape s k => exact (elementsTransition_spec ob allowed.1 allowed.2).leads
  | generalizeElements id k => exact generalizeElements_leads ob id k
  | setArrayLength id v => exact setArrayLength_leads ob id v
  | scopes n => exact ob.leads_of_eq rfl rfl rfl rfl
  | setElement r i v => exact setElement_leads ob r i v
  | store r n v strict =>
    have c := storeClosed_leads rules
    exact c.setPropertyWith c.callNothing ob r n v strict

theorem noteCall_leads (ob : h.Obeys rules) (callee receiver : Value) (args : List Value) :
    Leads rules h (h.noteCall callee receiver args) :=
  ⟨⟨ob.of_eq rfl rfl rfl, ob.host⟩, .of_eq rfl rfl, rfl, List.prefix_append _ _⟩

theorem callClosed_leads (rules : Rules) : CallClosed rules (Leads rules) :=
  (storeClosed_leads rules).callClosed (fun f r args ob => noteCall_leads ob f r args)
    fun op ob allowed => operation_leads ob op allowed

theorem elementClosed_leads (rules : Rules) : ElementClosed rules (Leads rules) where
  toCallClosed := callClosed_leads rules
  element ob e := storeElement_leads ob e

/-! ### What is known of the host -/

/-- Growth, and more as long as the host only performs operations of some sort. -/
def Under (rules : Rules) (P : Heap → HeapOperation → Prop) (R : Heap → Heap → Prop)
    (h h' : Heap) : Prop :=
  Leads rules h h' ∧ (h.host.Does rules P → R h h')

namespace StoreClosed

variable {P : Heap → HeapOperation → Prop} (c : StoreClosed rules R)

include c

/-- What holds whatever the host does. -/
theorem always (r : R h h') : Under rules P R h h' := ⟨c.leads r, fun _ => r⟩

/-- Only the operations that the host performs have to keep the relation. -/
theorem under
    (note : ∀ {h : Heap} (callee receiver : Value) (args : List Value), h.Obeys rules →
      R h (h.noteCall callee receiver args))
    (operations : ∀ {h : Heap} (op : HeapOperation), h.Obeys rules → op.Allowed rules h → P h op →
      R h (op.perform h)) : CallClosed rules (Under rules P R) where
  leads r := r.1
  refl ob := c.always (c.refl ob)
  trans r r' := ⟨r.1.trans r'.1, fun does => c.trans (r.2 does) (r'.2 (r.1.host ▸ does))⟩
  intern n ob := c.always (c.intern n ob)
  push ob hc := c.always (c.push ob hc)
  arrayLength ob array e := c.always (c.arrayLength ob array e)
  write v ob hr ho ha := c.always (c.write v ob hr ho ha)
  add v ob adds := c.always (c.add v ob adds)
  note callee receiver args ob := c.always (note callee receiver args ob)
  host {h} i receiver args ob := by
    refine ⟨(callClosed_leads rules).host i receiver args ob, fun does => ?_⟩
    refine (does h rfl ob.toWellFormed i receiver args).rel (c.refl ob) fun op r ok => ?_
    exact c.trans r (operations op (c.leads r).obeys ok.1 ok.2)

end StoreClosed

/-! ### Objects, numbers and strings -/

theorem cells_elementsTransition (s : ShapeId) (kind : ElementsKind) :
    (h.elementsTransition s kind).2.cells = h.cells := by
  unfold elementsTransition
  split
  · rfl
  · split <;> rfl

theorem cells_transitionTarget (s : ShapeId) (d : Descriptor) :
    (h.transitionTarget s d).2.cells = h.cells := by
  unfold transitionTarget
  split
  · split <;> rfl
  · rfl

/-! ### Growth across accesses -/

section Access

variable (ob : h.Obeys rules)

include ob

theorem setProperty_leads (receiver : Value) (name : Name) (v : Value) (strict : Bool) :
    Leads rules h (setProperty receiver name v strict h).2 :=
  (callClosed_leads rules).setProperty ob receiver name v strict

theorem readLookup_leads (receiver : Value) (found : Lookup) (name : Name) :
    Leads rules h (readLookup receiver found name h).2 :=
  (callClosed_leads rules).readLookup ob receiver found name

theorem getElement_leads (receiver : Value) (index : Nat) :
    Leads rules h (getElement receiver index h).2 :=
  (storeClosed_leads rules).getElement ob receiver index

end Access

end Heap

end Speculation
