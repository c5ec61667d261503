import Mathlib.Data.Finset.Image
import Speculation.Proofs.Heap.Elements
import Speculation.Proofs.Iteration

/-!
# Passing calls on

An object that is no function passes a call on to its call handler, and the handler may pass it on in
turn. In `h.DelegationEnds`, every call arrives at a value that passes nothing on. It does so after at most
as many steps as there are cells, since nothing but an object passes a call on.

Only `setCallHandler` changes what objects pass calls on to, and it may close a cycle: delegation still
ends afterwards exactly if the new handler did not pass calls on to the object
(`delegationEnds_setCallHandler_iff`). All other operations keep it as it is (`operation_relays`).

Functions of the host may set call handlers as well. If none of them closes a cycle, delegation ends
wherever accesses lead, and also in what every call on the way found (`elementClosed_keepsEnding`).
-/

namespace Speculation

variable {rules : Rules} {h h' h'' : Heap} {id handler : ObjectId} {o : JsObject} {v w : Value}

namespace Heap

/-- An object that is no function passes calls on to its handler. -/
theorem delegate?_object (ho : h.object? id = some o) :
    h.delegate? (.object id) = if o.function?.isSome then none else o.callHandler.map Value.object := by
  simp only [delegate?, asObject?, Value.objectId?, Option.bind_some, ho]

/-- Only objects pass calls on. -/
theorem exists_object_of_delegate? (hw : h.delegate? v = some w) :
    ∃ id o, v = .object id ∧ h.object? id = some o := by
  cases v with
  | object id =>
    cases ho : h.object? id with
    | none => simp [delegate?, asObject?, Value.objectId?, ho] at hw
    | some o => exact ⟨id, o, rfl, ho⟩
  | _ => cases hw

/-! ### Delegation that ends -/

/-- However a call is passed on, it arrives at a value that does not pass it on. -/
def DelegationEnds (h : Heap) : Prop := ∀ v, PathEnds h.delegate? v

/-- The references to what is in the heap. -/
def references (h : Heap) : Finset Value :=
  (Finset.range h.cells.size).image fun i => .object ⟨i⟩

theorem card_references_le (h : Heap) : h.references.card ≤ h.cells.size :=
  Finset.card_image_le.trans (Finset.card_range _).le

theorem mem_references_of_lt (hi : id.index < h.cells.size) : .object id ∈ h.references :=
  Finset.mem_image.mpr ⟨id.index, Finset.mem_range.mpr hi, rfl⟩

theorem mem_references (ho : h.object? id = some o) : .object id ∈ h.references :=
  mem_references_of_lt (index_lt_of_object? ho)

theorem mem_references_of_delegate? (hw : (h.delegate? v).isSome) : v ∈ h.references := by
  obtain ⟨w, hw⟩ := Option.isSome_iff_exists.mp hw
  obtain ⟨id, o, rfl, ho⟩ := exists_object_of_delegate? hw
  exact mem_references ho

/-- A path visits no cell twice, so it ends within as many steps as there are cells. -/
theorem DelegationEnds.within (ends : h.DelegationEnds) (v : Value) :
    ∃ n ≤ h.cells.size, ∃ target, follow h.delegate? n v = some target ∧ h.delegate? target = none := by
  obtain ⟨n, bound, target, reached, last⟩ := (ends v).within fun _ _ _ => mem_references_of_delegate?
  exact ⟨n, bound.trans h.card_references_le, target, reached, last⟩

/-! ### New handlers -/

/-- A new call handler of the object closes a cycle: calls of the object are passed on, and the handler
passes them on to the object. -/
def ClosesCycle (h : Heap) (id handler : ObjectId) : Prop :=
  (∃ o, h.object? id = some o ∧ o.function? = none) ∧
    ∃ n, follow h.delegate? n (.object handler) = some (.object id)

/-- A new handler changes the delegate of one object. -/
theorem delegate?_setCallHandler_ne (hv : v ≠ .object id) :
    (h.setCallHandler id handler).delegate? v = h.delegate? v := by
  cases v with
  | object j =>
    have apart : id ≠ j := fun e => hv (e ▸ rfl)
    simp only [delegate?, asObject?, Value.objectId?, Option.bind_some, setCallHandler,
      object?_modifyObject_ne apart]
  | _ => rfl

theorem delegate?_setCallHandler_self (ho : h.object? id = some o) :
    (h.setCallHandler id handler).delegate? (.object id) =
      if o.function?.isSome then none else some (.object handler) := by
  have changed : (h.setCallHandler id handler).object? id = some { o with callHandler := some handler } := by
    rw [setCallHandler, object?_modifyObject_self, ho]
    rfl
  rw [delegate?_object changed]
  rfl

/-- Where the object is a function, or none at all, a new handler changes nothing. -/
theorem delegate?_setCallHandler_of_idle (idle : ¬ ∃ o, h.object? id = some o ∧ o.function? = none)
    (v : Value) : (h.setCallHandler id handler).delegate? v = h.delegate? v := by
  by_cases hv : v = .object id
  · subst hv
    cases ho : h.object? id with
    | none =>
      have absent : (h.setCallHandler id handler).object? id = none := by
        rw [setCallHandler, object?_modifyObject_self, ho]
        rfl
      simp only [delegate?, asObject?, Value.objectId?, Option.bind_some, ho, absent]
    | some o =>
      have function : o.function?.isSome := by
        rw [Option.isSome_iff_ne_none]
        exact fun none => idle ⟨o, ho, none⟩
      rw [delegate?_setCallHandler_self ho, delegate?_object ho, if_pos function, if_pos function]
  · exact delegate?_setCallHandler_ne hv

/-- Delegation still ends after a new handler unless this closes a cycle. -/
theorem delegationEnds_setCallHandler_iff (ends : h.DelegationEnds) :
    (h.setCallHandler id handler).DelegationEnds ↔ ¬ h.ClosesCycle id handler := by
  by_cases idle : ∃ o, h.object? id = some o ∧ o.function? = none
  · obtain ⟨o, ho, plain⟩ := idle
    have redirected : (h.setCallHandler id handler).delegate? (.object id) = some (.object handler) := by
      rw [delegate?_setCallHandler_self ho, plain]
      rfl
    refine (pathEnds_redirected_iff redirected (fun _ => delegate?_setCallHandler_ne) ends).trans ?_
    simp only [ClosesCycle, ho, plain, Option.some.injEq, exists_eq_left', true_and, not_exists, ne_eq]
  · -- A handler of a function, or of no object at all, is never asked for.
    have same : (h.setCallHandler id handler).delegate? = h.delegate? :=
      funext (delegate?_setCallHandler_of_idle idle)
    rw [DelegationEnds, same]
    exact iff_of_true ends fun closes => idle closes.1

/-- How to tell from the first steps of the handler. -/
theorem not_closesCycle {k : Nat} (stops : follow h.delegate? k (.object handler) = none)
    (avoids : ∀ n < k, follow h.delegate? n (.object handler) ≠ some (.object id)) :
    ¬ h.ClosesCycle id handler := by
  rintro ⟨-, n, visit⟩
  rcases Nat.lt_or_ge n k with less | more
  · exact avoids n less visit
  · have longer := isSome_follow_of_le more (Option.isSome_of_eq_some visit)
    rw [stops] at longer
    cases longer

end Heap

/-- The operation sets a call handler that closes a cycle. -/
def HeapOperation.ClosesCycle (h : Heap) : HeapOperation → Prop
  | setCallHandler id handler => h.ClosesCycle id handler
  | _ => False

/-- No function of the host closes a cycle of call handlers. -/
def Host.ClosesNoCycle (host : Host) (rules : Rules) : Prop :=
  host.Does rules fun h op => ¬ op.ClosesCycle h

namespace Heap

/-! ### Everything else -/

/-- A well-formed heap that comes from another one, where objects have the call handlers that they had. -/
structure Relays (rules : Rules) (h h' : Heap) : Prop where
  leads : Leads rules h h'
  handlers : h.KeepsHandlers h'

namespace Relays

theorem trans (a : Relays rules h h') (b : Relays rules h' h'') : Relays rules h h'' :=
  ⟨a.leads.trans b.leads, a.handlers.trans b.handlers⟩

/-- Calls are passed on as before. -/
theorem delegate? (r : Relays rules h h') : h'.delegate? = h.delegate? := by
  funext v
  cases v with
  | object id =>
    have handler := r.handlers id
    cases ho : h.object? id with
    | none =>
      have none : h.delegate? (.object id) = none := by
        simp only [Heap.delegate?, asObject?, Value.objectId?, Option.bind_some, ho]
      rw [none]
      cases ho' : h'.object? id with
      | none => simp only [Heap.delegate?, asObject?, Value.objectId?, Option.bind_some, ho']
      | some o' =>
        have new : o'.callHandler = Option.none := by simpa [ho, ho'] using handler
        rw [delegate?_object ho', new]
        exact ite_self _
    | some o =>
      -- Growth keeps the class of an object, so a function stays one.
      obtain ⟨o', ho', fixed, -⟩ := r.leads.grows.object ho
      have same : o'.callHandler = o.callHandler := by simpa [ho, ho'] using handler
      have function : o'.function?.isSome = o.function?.isSome := by
        unfold JsObject.function?
        cases hc : o.objectClass <;> cases hc' : o'.objectClass <;> simp_all [ObjectClass.fixed]
      rw [delegate?_object ho, delegate?_object ho', same, function]
  | _ => rfl

/-- Heaps that relay the same calls agree on whether delegation ends. -/
theorem delegationEnds_iff (r : Relays rules h h') : h'.DelegationEnds ↔ h.DelegationEnds := by
  rw [DelegationEnds, DelegationEnds, r.delegate?]

end Relays

theorem Leads.relays (l : Leads rules h h') (k : h.LeavesAlone h') : Relays rules h h' := ⟨l, k.handlers⟩

theorem Obeys.relays (ob : h.Obeys rules) : Relays rules h h := ob.leads.relays (.refl h)

theorem storeElement_keepsHandlers {index : Nat} (e : h.storeElement id index v = .ok h') :
    h.KeepsHandlers h' := by
  cases ho : h.object? id with
  | none =>
    simp only [storeElement, ho] at e
    cases e
    exact .of_cells rfl
  | some o =>
    obtain ⟨kind, -, -, -, rfl⟩ := storeElement_eq_ok ho e
    exact (generalizeElements_keeps h id kind).handlers.trans (.modifyObject fun _ => rfl)

theorem storeArrayLength_keepsHandlers (e : h.storeArrayLength id v = .ok h') : h.KeepsHandlers h' := by
  unfold storeArrayLength at e
  split at e
  · cases e
  · split at e
    · cases e
      exact .of_cells rfl
    · split at e
      · cases e
      · injection e with e
        rw [← e]
        split
        · exact (generalizeElements_keeps h id _).handlers.trans (.modifyObject fun _ => rfl)
        · exact .modifyObject fun _ => rfl

theorem storeClosed_relays (rules : Rules) : StoreClosed rules (Relays rules) where
  leads r := r.leads
  refl ob := ob.relays
  trans := Relays.trans
  intern n ob := by
    refine (intern_leads ob n).relays (.of_cells ?_)
    unfold intern
    split <;> rfl
  push {h c} ob hc :=
    ((storeClosed_leads rules).push ob hc).relays (.push c fun o e => absurd e (hc o))
  arrayLength ob _ e := ⟨storeArrayLength_leads ob e, storeArrayLength_keepsHandlers e⟩
  write {h id name kind a} v ob hr ho ha :=
    ((storeClosed_leads rules).write v ob hr ho ha).relays (writeOwn_keeps h id name kind v)
  add {h id name} v ob adds :=
    ((storeClosed_leads rules).add v ob adds).relays (addProperty_keeps h id name v {})

theorem allocateObject_keepsHandlers (s : ShapeId) (c : ObjectClass) (elements : Array Value) :
    h.KeepsHandlers (allocateObject s c elements h).2 := by
  simp only [allocateObject, allocate, Computation.get_bind]
  split
  · refine .push _ fun o e => ?_
    cases e
    rfl
  · exact .of_cells rfl

theorem newArray_keepsHandlers (elements : List Value) :
    h.KeepsHandlers (newArray elements h).2 := by
  rw [newArray, Computation.get_bind]
  exact Computation.bind_rel .trans (.of_cells (cells_elementsTransition _ _)) fun _ _ =>
    allocateObject_keepsHandlers _ _ _

theorem newArguments_keepsHandlers (callee : Value) (values : List Value) (strict : Bool) :
    h.KeepsHandlers (newArguments callee values strict h).2 :=
  Computation.bind_rel .trans (allocateObject_keepsHandlers _ _ _) fun id _ =>
    (addProperty_keeps _ id _ _ _).handlers

/-- Every operation but one leaves all call handlers as they are. -/
theorem operation_relays (ob : h.Obeys rules) (op : HeapOperation) (allowed : op.Allowed rules h)
    (other : ∀ id handler, op ≠ .setCallHandler id handler) : Relays rules h (op.perform h) :=
  (storeClosed_relays rules).across ob op allowed Leads.relays
    (fun vs => ⟨newArray_leads ob vs, newArray_keepsHandlers vs⟩)
    (fun f vs strict _ => ⟨newArguments_leads ob f vs strict, newArguments_keepsHandlers f vs strict⟩)
    (fun id f e => absurd e (other id f))
    (fun e => ⟨storeArrayLength_leads ob e, storeArrayLength_keepsHandlers e⟩)
    fun e => ⟨storeElement_leads ob e, storeElement_keepsHandlers e⟩

/-- Where delegation ends, it still does after an operation exactly if that closes no cycle. -/
theorem operation_delegationEnds_iff (ob : h.Obeys rules) (op : HeapOperation)
    (allowed : op.Allowed rules h) (ends : h.DelegationEnds) :
    (op.perform h).DelegationEnds ↔ ¬ op.ClosesCycle h := by
  by_cases set : ∃ id handler, op = .setCallHandler id handler
  · obtain ⟨id, handler, rfl⟩ := set
    exact delegationEnds_setCallHandler_iff ends
  · have relays := operation_relays ob op allowed fun id handler e => set ⟨id, handler, e⟩
    -- No other operation closes a cycle, by definition.
    refine iff_of_true (relays.delegationEnds_iff.mpr ends) fun closes => ?_
    cases op with
    | setCallHandler id handler => exact set ⟨id, handler, rfl⟩
    | _ => exact closes

/-! ### Delegation that goes on ending -/

end Heap

/-- The heap that a call found. -/
def Invocation.heap (c : Invocation) (host : Host) : Heap := { toMemory := c.memory, host }

namespace Heap

/-- The calls that were made since. -/
def callsSince (h h' : Heap) : List Invocation := h'.invocations.drop h.invocations.length

/-- The calls since a heap are those that were added to its list. -/
theorem callsSince_of_append {calls : List Invocation}
    (e : h.invocations ++ calls = h'.invocations) : h.callsSince h' = calls := by
  rw [callsSince, ← e, List.drop_left]

/-- Nothing is called inside of the heap. -/
theorem callsSince_of_outside (same : h'.outside = h.outside) : h.callsSince h' = [] :=
  callsSince_of_append (by rw [List.append_nil, log_of_outside same])

/-- Calls are listed one after the other. -/
theorem Leads.callsSince_trans (a : Leads rules h h') (b : Leads rules h' h'') :
    h.callsSince h'' = h.callsSince h' ++ h'.callsSince h'' := by
  obtain ⟨first, e⟩ := a.log
  obtain ⟨second, e'⟩ := b.log
  rw [callsSince_of_append e, callsSince_of_append e']
  exact callsSince_of_append (by rw [← List.append_assoc, e, e'])

/-- A well-formed heap that comes from another one. If functions of the host close no cycle,
delegation ends there if it did, and in what calls found meanwhile. -/
structure KeepsEnding (rules : Rules) (h h' : Heap) : Prop where
  leads : Leads rules h h'
  ends : h.host.ClosesNoCycle rules → h.DelegationEnds → h'.DelegationEnds
  calls : h.host.ClosesNoCycle rules → h.DelegationEnds →
    ∀ c ∈ h.callsSince h', (c.heap h.host).DelegationEnds

theorem KeepsEnding.trans (a : KeepsEnding rules h h') (b : KeepsEnding rules h' h'') :
    KeepsEnding rules h h'' where
  leads := a.leads.trans b.leads
  ends host ends := b.ends (a.leads.host ▸ host) (a.ends host ends)
  calls host ends c hc := by
    rw [a.leads.callsSince_trans b.leads] at hc
    rcases List.mem_append.mp hc with hc | hc
    · exact a.calls host ends c hc
    · rw [← a.leads.host]
      exact b.calls (a.leads.host ▸ host) (a.ends host ends) c hc

/-- Call handlers that stay as they are, without a call. -/
theorem Relays.keepsEnding (r : Relays rules h h') (same : h'.outside = h.outside) :
    KeepsEnding rules h h' where
  leads := r.leads
  ends _ ends := r.delegationEnds_iff.mpr ends
  calls _ _ c hc := by
    rw [callsSince_of_outside same] at hc
    cases hc

theorem storeClosed_keepsEnding (rules : Rules) : StoreClosed rules (KeepsEnding rules) where
  leads k := k.leads
  refl ob := ob.relays.keepsEnding rfl
  trans := KeepsEnding.trans
  intern n ob := ((storeClosed_relays rules).intern n ob).keepsEnding (outside_intern _ n)
  push ob hc := ((storeClosed_relays rules).push ob hc).keepsEnding rfl
  arrayLength ob array e :=
    ((storeClosed_relays rules).arrayLength ob array e).keepsEnding (outside_storeArrayLength e)
  write {h id name kind _} v ob hr ho ha :=
    ((storeClosed_relays rules).write v ob hr ho ha).keepsEnding (h.outside_writeOwn id name kind v)
  add {h id name} v ob adds :=
    ((storeClosed_relays rules).add v ob adds).keepsEnding (h.outside_addProperty id name v {})

theorem elementClosed_keepsEnding (rules : Rules) : ElementClosed rules (KeepsEnding rules) where
  toStoreClosed := storeClosed_keepsEnding rules
  note {h} callee receiver args ob := by
    refine ⟨noteCall_leads ob callee receiver args, fun _ ends => ends, fun _ ends c hc => ?_⟩
    rw [callsSince_of_append rfl] at hc
    obtain rfl := List.mem_singleton.mp hc
    exact ends
  host {h} i receiver args ob := by
    refine ⟨(callClosed_leads rules).host i receiver args ob, fun host ends => ?_, fun _ _ c hc => ?_⟩
    · have steps := host h rfl ob.toWellFormed i receiver args
      exact (steps.rel (R := fun _ g => Leads rules h g ∧ g.DelegationEnds) ⟨ob.leads, ends⟩
        fun op r ok => ⟨r.1.trans (operation_leads r.1.obeys op ok.1),
          (operation_delegationEnds_iff r.1.obeys op ok.1 r.2).mpr ok.2⟩).2
    · have same : (runHost (.provided i) receiver args h).2.outside = h.outside := rfl
      rw [callsSince_of_outside same] at hc
      cases hc
  element ob e :=
    Relays.keepsEnding ⟨storeElement_leads ob e, storeElement_keepsHandlers e⟩ (outside_storeElement e)

/-- Nothing is delegated in a new heap. -/
theorem delegationEnds_initial : Heap.initial.DelegationEnds := by
  have none : ∀ i < Heap.initial.cells.size,
      (Heap.initial.object? ⟨i⟩).all fun o => o.callHandler.isNone := by decide +kernel
  intro v
  refine ⟨0, v, rfl, ?_⟩
  by_contra goes
  obtain ⟨w, hw⟩ := Option.ne_none_iff_exists'.mp goes
  obtain ⟨id, o, rfl, ho⟩ := exists_object_of_delegate? hw
  have handler := none id.index (index_lt_of_object? ho)
  rw [ho, Option.all_some, Option.isNone_iff_eq_none] at handler
  simp [delegate?_object ho, handler] at hw

end Heap

end Speculation
