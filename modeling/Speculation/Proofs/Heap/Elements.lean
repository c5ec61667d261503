import Speculation.Proofs.Heap.Calls

/-!
# Elements fit their kinds

`h.ElementsFit` says that the elements kind of every object admits each of its elements: it is at
least as general as the narrowest kind for that element (`kindFor`), which for a hole is a holey
one. Growth only makes kinds more general and never turns a number into anything else, so that an
operation can break this only by what it writes to elements. Most operations write nothing to them,
nor to the call handlers of objects (`LeavesAlone`); the general rules for stores and the operations
that create arrays widen the kind first.

`Carries rules h h'` is growth together with the preservation of this fact. It holds across
everything that the general rules do, also where they store a hole, and across all that a host
function does that creates no arguments object with a hole.
-/

namespace Speculation

namespace ElementsKind

theorem le_union (a b : ElementsKind) : a.le (a.union b) := by
  have h := union_le (a := a) (b := b) (c := a.union b)
  simp only [le_refl, Bool.true_eq, Bool.and_eq_true] at h
  exact h.1

theorem le_union_right (a b : ElementsKind) : b.le (a.union b) := by
  rw [union_comm]
  exact le_union b a

theorem le_toHoley (a : ElementsKind) : a.le a.toHoley := by
  obtain ⟨s, p⟩ := a
  cases s <;> cases p <;> rfl

theorem holeySmi_le {a : ElementsKind} : holeySmi.le a ↔ a.holey := by
  obtain ⟨s, p⟩ := a
  cases s <;> cases p <;> simp [holeySmi, le, Storage.rank]

/-- A union of kinds is above each of them. -/
theorem le_foldl_union {α : Type} (f : α → ElementsKind) (xs : List α) (k : ElementsKind) :
    k.le (xs.foldl (fun k x => k.union (f x)) k) ∧
      ∀ x ∈ xs, (f x).le (xs.foldl (fun k x => k.union (f x)) k) := by
  induction xs generalizing k with
  | nil => exact ⟨le_refl k, by simp⟩
  | cons y xs ih =>
    obtain ⟨above, each⟩ := ih (k.union (f y))
    refine ⟨le_trans (le_union k (f y)) above, fun x hx => ?_⟩
    rcases List.mem_cons.1 hx with rfl | hx
    · exact le_trans (le_union_right k (f x)) above
    · exact each x hx

end ElementsKind

namespace Heap

variable {rules : Rules} {h h' h'' : Heap} {id : ObjectId} {o : JsObject} {v : Value}
  {kind : ElementsKind}

/-! ### Kinds of values -/

theorem Grows.isHeapNumber (g : h.Grows h') (hv : h.isHeapNumber v) : h'.isHeapNumber v := by
  unfold Heap.isHeapNumber Heap.get? at *
  cases v with
  | object id =>
    simp only [Value.objectId?, Option.bind_some] at hv ⊢
    split at hv
    · rename_i d hc
      rw [g.primitive hc (by simp)]
    · simp at hv
  | _ => simp [Value.objectId?] at hv

/-- The narrowest kind for a value may become narrower when a number is allocated in its place. -/
theorem Grows.kindFor_le (g : h.Grows h') (v : Value) : (h'.kindFor v).le (h.kindFor v) := by
  have general (e : ∀ g : Heap, g.kindFor v = if g.isHeapNumber v then .packedDouble else .packed) :
      (h'.kindFor v).le (h.kindFor v) := by
    rw [e, e]
    by_cases hv : h.isHeapNumber v
    · rw [if_pos hv, if_pos (g.isHeapNumber hv)]
      exact ElementsKind.le_refl _
    · rw [if_neg hv]
      split <;> rfl
  cases v with
  | smi i => exact ElementsKind.le_refl _
  | hole => exact ElementsKind.le_refl _
  | _ => exact general fun _ => rfl

/-- Which values a kind admits. -/
theorem kindFor_le_iff : (h.kindFor v).le kind ↔
    (v = .hole → kind.holey) ∧ (v ≠ .hole → kind.storage = .smi → v.isSmi) ∧
      (v ≠ .hole → kind.storage = .double → h.isNumber v) := by
  have general (notSmi : v.isSmi = false) (full : v ≠ .hole)
      (e : h.kindFor v = if h.isHeapNumber v then .packedDouble else .packed) :
      (h.kindFor v).le kind ↔
        (v = .hole → kind.holey) ∧ (v ≠ .hole → kind.storage = .smi → v.isSmi) ∧
          (v ≠ .hole → kind.storage = .double → h.isNumber v) := by
    obtain ⟨storage, holey⟩ := kind
    rw [e]
    by_cases number : h.isHeapNumber v <;> cases storage <;>
      simp [number, notSmi, full, isNumber, ElementsKind.packedDouble, ElementsKind.packed,
        ElementsKind.le, Storage.rank]
  cases v with
  | smi i => simp [kindFor, ElementsKind.packedSmi_le, Value.isSmi, isNumber]
  | hole => simp [kindFor, ElementsKind.holeySmi_le]
  | _ => exact general rfl (by simp) rfl

/-! ### What is written -/

/-- A vector that was resized has its old elements and holes. -/
theorem mem_resize {elements : Array Value} {n : Nat} (hv : v ∈ resize elements n) :
    v ∈ elements ∨ v = .hole ∧ elements.size < n := by
  unfold resize at hv
  split at hv
  · obtain ⟨i, hi, rfl⟩ := Array.getElem_of_mem hv
    rw [Array.getElem_extract]
    exact .inl (Array.getElem_mem _)
  · rcases Array.mem_append.1 hv with hv | hv
    · exact .inl hv
    · exact .inr ⟨(Array.mem_replicate.1 hv).2, by omega⟩

theorem size_resize (elements : Array Value) (n : Nat) : (resize elements n).size = n := by
  unfold resize
  split <;> simp <;> omega

/-- Every object passes calls on to what it passed them on to before; new ones pass none on. -/
def KeepsHandlers (h h' : Heap) : Prop :=
  ∀ id, (h'.object? id).bind (·.callHandler) = (h.object? id).bind (·.callHandler)

namespace KeepsHandlers

theorem of_cells (e : h'.cells = h.cells) : h.KeepsHandlers h' := by
  intro id
  simp [object?, cell?, e]

theorem trans (a : h.KeepsHandlers h') (b : h'.KeepsHandlers h'') : h.KeepsHandlers h'' :=
  fun id => (b id).trans (a id)

theorem modifyObject {f : JsObject → JsObject} (same : ∀ o, (f o).callHandler = o.callHandler) :
    h.KeepsHandlers (h.modifyObject id f) := by
  intro j
  rw [object?_modifyObject]
  split
  · cases h.object? j with
    | none => rfl
    | some o => exact same o
  · rfl

theorem push (c : Cell) (none : ∀ o, c = .object o → o.callHandler = none) :
    h.KeepsHandlers { h with cells := h.cells.push c } := by
  intro j
  by_cases hj : j.index = h.cells.size
  · cases c with
    | object o => simp [object?, cell?, hj, none o rfl]
    | _ => simp [object?, cell?, hj]
  · simp [object?, cell?, Array.getElem?_push, hj]

end KeepsHandlers

/-- Every object has the elements and the call handler that it had before; new ones have neither. -/
structure LeavesAlone (h h' : Heap) : Prop where
  elements : ∀ (id : ObjectId) (o' : JsObject), h'.object? id = some o' →
    o'.elements = #[] ∨ ∃ o, h.object? id = some o ∧ o'.elements = o.elements
  handlers : h.KeepsHandlers h'

namespace LeavesAlone

theorem of_cells (e : h'.cells = h.cells) : h.LeavesAlone h' := by
  refine ⟨fun id o' ho' => ?_, .of_cells e⟩
  have same : h'.object? id = h.object? id := by simp [object?, cell?, e]
  exact .inr ⟨o', same ▸ ho', rfl⟩

theorem refl (h : Heap) : h.LeavesAlone h := of_cells rfl

theorem trans (a : h.LeavesAlone h') (b : h'.LeavesAlone h'') : h.LeavesAlone h'' := by
  refine ⟨fun id o'' ho'' => ?_, a.handlers.trans b.handlers⟩
  rcases b.elements id o'' ho'' with e | ⟨o', ho', e⟩
  · exact .inl e
  · rw [e]
    exact a.elements id o' ho'

theorem modifyObject {f : JsObject → JsObject}
    (same : ∀ o, (f o).elements = o.elements ∧ (f o).callHandler = o.callHandler) :
    h.LeavesAlone (h.modifyObject id f) := by
  refine ⟨fun j o' ho' => ?_, .modifyObject fun o => (same o).2⟩
  rw [object?_modifyObject] at ho'
  split at ho'
  · obtain ⟨o, ho, rfl⟩ := Option.map_eq_some_iff.1 ho'
    exact .inr ⟨o, ho, (same o).1⟩
  · exact .inr ⟨o', ho', rfl⟩

/-- A change of an object after a change of shapes. -/
theorem modifyObject_of_cells {f : JsObject → JsObject} (e : h'.cells = h.cells)
    (same : ∀ o, (f o).elements = o.elements ∧ (f o).callHandler = o.callHandler) :
    h.LeavesAlone (h'.modifyObject id f) :=
  (of_cells e).trans (modifyObject same)

theorem push (c : Cell) (empty : ∀ o, c = .object o → o.elements = #[] ∧ o.callHandler = none) :
    h.LeavesAlone { h with cells := h.cells.push c } := by
  refine ⟨fun id o' ho' => ?_, .push c fun o e => (empty o e).2⟩
  have hc := object?_eq_some.1 ho'
  simp only [cell?, Array.getElem?_push] at hc
  split at hc
  · exact .inl (empty o' (Option.some.inj hc)).1
  · exact .inr ⟨o', object?_eq_some.2 hc, rfl⟩

end LeavesAlone

/-! ### Operations that leave both alone -/

section Keeps

variable (h) (id)

theorem addProperty_keeps (name : Name) (v : Value) (a : Attributes) :
    h.LeavesAlone (h.addProperty id name v a) := by
  unfold addProperty
  split
  · exact .refl h
  · dsimp only
    split
    · exact .modifyObject fun _ => ⟨rfl, rfl⟩
    · exact .modifyObject_of_cells (cells_transitionTarget _ _) fun _ => ⟨rfl, rfl⟩

theorem addConstant_keeps (name : Name) (v : Value) (a : Attributes) :
    h.LeavesAlone (h.addConstant id name v a) := by
  unfold addConstant
  split
  · exact .refl h
  · split
    · exact addProperty_keeps h id name v a
    · exact .modifyObject_of_cells (cells_transitionTarget _ _) fun _ => ⟨rfl, rfl⟩

theorem addAccessor_keeps (name : Name) (getter setter : Value) :
    h.LeavesAlone (h.addAccessor id name getter setter) := by
  unfold addAccessor
  split
  · exact .refl h
  · exact .modifyObject_of_cells (cells_transitionTarget _ _) fun _ => ⟨rfl, rfl⟩

theorem setDictionaryValue_keeps (name : Name) (v : Value) :
    h.LeavesAlone (h.setDictionaryValue id name v) :=
  .modifyObject fun o => by split <;> exact ⟨rfl, rfl⟩

theorem writeOwn_keeps (name : Name) (k : PropertyKind) (v : Value) :
    h.LeavesAlone (h.writeOwn id name k v) := by
  cases k with
  | field i => exact .modifyObject fun _ => ⟨rfl, rfl⟩
  | normal => exact setDictionaryValue_keeps h id name v
  | constant c =>
    change h.LeavesAlone (h.constantToField id name v)
    unfold constantToField
    split
    · exact .refl h
    · exact .modifyObject_of_cells rfl fun _ => ⟨rfl, rfl⟩
  | accessor g s => exact .refl h

theorem setInterceptor_keeps (values : Table Name Value) :
    h.LeavesAlone (h.setInterceptor id values) := by
  unfold setInterceptor
  split
  · exact .refl h
  · exact .modifyObject_of_cells rfl fun _ => ⟨rfl, rfl⟩

theorem normalize_keeps : h.LeavesAlone (h.normalize id) := by
  unfold normalize
  split
  · exact .refl h
  · dsimp only
    split
    · exact .refl h
    · exact .modifyObject_of_cells rfl fun _ => ⟨rfl, rfl⟩

theorem delete_keeps (name : Name) : h.LeavesAlone (h.delete id name).2 := by
  have norm := normalize_keeps h (h.resolveProxy id)
  simp only [delete]
  split
  · exact .refl h
  · split
    · exact norm
    · split
      · split
        · exact norm
        · exact norm.trans (.modifyObject fun _ => ⟨rfl, rfl⟩)
      · exact norm

theorem modifyFunction_keeps (f : FunctionData → FunctionData) :
    h.LeavesAlone (h.modifyFunction id f) :=
  .modifyObject fun o => by split <;> exact ⟨rfl, rfl⟩

theorem generalizeElements_keeps (kind : ElementsKind) :
    h.LeavesAlone (h.generalizeElements id kind) := by
  unfold generalizeElements
  split
  · exact .refl h
  · split
    · exact .modifyObject_of_cells (cells_elementsTransition _ _) fun _ => ⟨rfl, rfl⟩
    · exact .refl h

theorem allocate_keeps {c : Cell} (empty : ∀ o, c = .object o → o.elements = #[] ∧ o.callHandler = none) :
    h.LeavesAlone (allocate c h).2 := by
  simp only [allocate, Computation.get_bind]
  split
  · exact .push c empty
  · exact .refl h

theorem internalize_keeps (s : String) : h.LeavesAlone (internalize s h).2 := by
  simp only [internalize, Computation.get_bind]
  cases h.internalized.get? s with
  | some id => exact .refl h
  | none => exact Computation.bind_rel .trans (allocate_keeps h (by simp)) fun _ _ => .of_cells rfl

theorem allocateObject_keeps (s : ShapeId) (c : ObjectClass) :
    h.LeavesAlone (allocateObject s c #[] h).2 :=
  allocate_keeps h fun o e => by cases e; exact ⟨rfl, rfl⟩

theorem newObjectWithPrototype_keeps (prototype : Value) :
    h.LeavesAlone (newObjectWithPrototype prototype h).2 := by
  have cells : (h.initialShape prototype).2.cells = h.cells := by
    unfold initialShape
    dsimp only
    split <;> rfl
  unfold newObjectWithPrototype
  exact Computation.bind_rel .trans (.of_cells cells) fun s _ => allocateObject_keeps _ s _

theorem newClosure_keeps (shared : SharedId) (code : Option CodeId) (host : Option HostFunction) :
    h.LeavesAlone (newClosure shared code host h).2 := by
  unfold newClosure
  exact Computation.bind_rel .trans (allocateObject_keeps h _ _) fun _ _ =>
    allocateObject_keeps _ _ _

theorem newFunction_keeps (shared : SharedId) : h.LeavesAlone (newFunction shared h).2 := by
  rw [newFunction, Computation.get_bind]
  exact newClosure_keeps h shared _ none

theorem newHostFunction_keeps (name : String) (formals : Nat) (host : HostFunction) :
    h.LeavesAlone (newHostFunction name formals host h).2 := by
  unfold newHostFunction
  exact Computation.bind_rel .trans (.of_cells rfl) fun shared _ => newClosure_keeps _ shared _ _

theorem installStringMethod_keeps (name : Name) (host : HostFunction) (method : StringMethod) :
    h.LeavesAlone (installStringMethod name host method h).2 := by
  unfold installStringMethod
  refine Computation.bind_rel .trans (newHostFunction_keeps h name.text 1 host) fun id _ => ?_
  simp only [Computation.modify_bind, Computation.modify_apply]
  generalize (newHostFunction name.text 1 host h).2 = h'
  cases h'.functionData? (.object id) with
  | none => exact addConstant_keeps h' _ name _ _
  | some d =>
    have shared : h'.LeavesAlone (h'.modifyShared d.shared fun s => { s with method := some method }) :=
      .of_cells rfl
    exact shared.trans (addConstant_keeps _ _ name _ _)

end Keeps

/-! ### Elements that fit -/

/-- The elements kind of every object admits all of its elements. -/
def ElementsFit (h : Heap) : Prop :=
  ∀ (id : ObjectId) (o : JsObject), h.object? id = some o →
    ∀ v ∈ o.elements, (h.kindFor v).le (h.shapeOf o).elementsKind

/-- A well-formed heap that comes from another one, where elements fit if they did before. -/
structure Carries (rules : Rules) (h h' : Heap) : Prop where
  leads : Leads rules h h'
  fits : h.ElementsFit → h'.ElementsFit

theorem Carries.trans (a : Carries rules h h') (b : Carries rules h' h'') : Carries rules h h'' :=
  ⟨a.leads.trans b.leads, fun fit => b.fits (a.fits fit)⟩

/-- Elements that are not written still fit. -/
theorem Leads.carries (l : Leads rules h h') (k : h.LeavesAlone h') : Carries rules h h' where
  leads := l
  fits fit id o' ho' v hv := by
    rcases k.elements id o' ho' with e | ⟨o, ho, e⟩
    · simp [e] at hv
    · obtain ⟨x, hx, -, p⟩ := l.grows.object ho
      obtain rfl := Option.some.inj (hx.symm.trans ho')
      have before := fit id o ho v (e ▸ hv)
      exact ElementsKind.le_trans (l.grows.kindFor_le v) (ElementsKind.le_trans before p.elements)

/-- A heap carries on what its own elements promise. -/
theorem Obeys.carries (ob : h.Obeys rules) : Carries rules h h := ob.leads.carries (.refl h)

/-- Elements that are written to an object have to fit its kind. -/
theorem Leads.carries_modifyObject {f : JsObject → JsObject}
    (l : Leads rules h (h.modifyObject id f))
    (fit : ∀ o, h.object? id = some o → ∀ v ∈ (f o).elements, v ∈ o.elements ∨
      (h.kindFor v).le (h.shapeOf (f o)).elementsKind) :
    Carries rules h (h.modifyObject id f) where
  leads := l
  fits before j o' ho' v hv := by
    refine ElementsKind.le_trans (l.grows.kindFor_le v) ?_
    by_cases hj : id = j
    · subst hj
      obtain ⟨o, ho, rfl⟩ := Option.map_eq_some_iff.1 (object?_modifyObject_self ▸ ho')
      obtain ⟨x, hx, -, p⟩ := l.grows.object ho
      obtain rfl := Option.some.inj (hx.symm.trans ho')
      rcases fit o ho v hv with old | new
      · exact ElementsKind.le_trans (before id o ho v old) p.elements
      · exact new
    · exact before j o' (by rwa [object?_modifyObject_ne hj] at ho') v hv

/-- So have the elements of a new object. -/
theorem Leads.carries_allocateObject {s : ShapeId} {c : ObjectClass} {elements : Array Value}
    (l : Leads rules h (allocateObject s c elements h).2)
    (fit : ∀ v ∈ elements, (h.kindFor v).le (h.shape s).elementsKind) :
    Carries rules h (allocateObject s c elements h).2 where
  leads := l
  fits before id o ho v hv := by
    refine ElementsKind.le_trans (l.grows.kindFor_le v) ?_
    simp only [allocateObject, allocate, Computation.get_bind] at ho ⊢
    split at ho
    · rename_i allowed
      have hc := object?_eq_some.1 ho
      simp only [cell?, Computation.set_bind, Computation.pure_apply, Array.getElem?_push] at hc
      rw [if_pos allowed]
      split at hc
      · cases Option.some.inj hc
        exact fit v hv
      · exact before id o (object?_eq_some.2 hc) v hv
    · rename_i forbidden
      rw [if_neg forbidden]
      exact before id o ho v hv

/-! ### The general rules -/

theorem runExcept_eq_ok {f : Heap → Except Exception Heap} {u : Unit}
    (e : runExcept f h = (.ok u, h')) : f h = .ok h' := by
  simp only [runExcept, Computation.get_bind] at e
  cases result : f h with
  | ok g =>
    rw [result] at e
    exact congrArg (Except.ok ∘ Prod.snd) e
  | error x =>
    rw [result] at e
    cases e

/-- A move to a kind that is not narrower changes only the kind of the shape. -/
theorem generalizeElements_spec (ob : h.Obeys rules) (ho : h.object? id = some o)
    (le : (h.shapeOf o).elementsKind.le kind) :
    ∃ s, (h.generalizeElements id kind).object? id = some { o with shape := s } ∧
      ((h.generalizeElements id kind).shape s).elementsKind = kind := by
  unfold generalizeElements
  simp only [ho]
  split
  · have found := elementsTransition_spec ob (ob.object ho).shape_lt fun _ => le
    refine ⟨(h.elementsTransition o.shape kind).1, ?_, ?_⟩
    · simp [setShape, found.object?, ho]
    · simpa [setShape, Shape.withElements] using congrArg Shape.elementsKind found.layout
  · rename_i same
    refine ⟨o.shape, ho, ?_⟩
    by_contra ne
    exact same (by simp only [ElementsKind.generalizesTo, le, Bool.and_true, decide_eq_true_eq]
                   exact ne)

/-- A more general kind promises no more. -/
theorem generalizeElements_carries (ob : h.Obeys rules) (id : ObjectId) (kind : ElementsKind) :
    Carries rules h (h.generalizeElements id kind) :=
  (generalizeElements_leads ob id kind).carries (generalizeElements_keeps h id kind)

/-- A write of an element asks for a kind that admits the value, and a gap for a holey one. -/
theorem writeElement_carries (ob : h.Obeys rules) (ho : h.object? id = some o) {index : Nat}
    (value : (h.kindFor v).le (h.shapeOf o).elementsKind)
    (gap : o.elements.size < index → (h.shapeOf o).elementsKind.holey) :
    Carries rules h (h.writeElement id index v) := by
  refine (writeElement_leads ob id index v).carries_modifyObject fun o' ho' w hw => ?_
  obtain rfl := Option.some.inj (ho.symm.trans ho')
  simp only at hw
  split at hw
  · rcases Array.mem_or_eq_of_mem_setIfInBounds hw with hw | rfl
    · exact .inl hw
    · exact .inr value
  · rcases Array.mem_push.1 hw with hw | rfl
    · rcases mem_resize hw with hw | ⟨rfl, beyond⟩
      · exact .inl hw
      · exact .inr (ElementsKind.holeySmi_le.2 (gap beyond))
    · exact .inr value

/-- So does a new length. -/
theorem resize_carries (ob : h.Obeys rules) (ho : h.object? id = some o) {length : Nat}
    (gap : o.elements.size < length → (h.shapeOf o).elementsKind.holey) :
    Carries rules h (h.modifyObject id fun o => { o with elements := resize o.elements length }) := by
  refine Leads.carries_modifyObject (ob.leads_data fun _ => ⟨rfl, rfl, rfl, rfl⟩)
    fun o' ho' w hw => ?_
  obtain rfl := Option.some.inj (ho.symm.trans ho')
  rcases mem_resize hw with hw | ⟨rfl, beyond⟩
  · exact .inl hw
  · exact .inr (ElementsKind.holeySmi_le.2 (gap beyond))

/-- A store widens the kind as far as the value asks, and makes it holey where it opens a gap. -/
theorem storeElement_eq_ok (ho : h.object? id = some o) {index : Nat}
    (e : h.storeElement id index v = .ok h') : ∃ kind, (h.shapeOf o).elementsKind.le kind ∧
      (h.kindFor v).le kind ∧ (o.elements.size < index → kind.holey) ∧
      h' = (h.generalizeElements id kind).writeElement id index v := by
  simp only [storeElement, ho] at e
  split at e
  · cases e
  · injection e with e
    refine ⟨_, ?_, ?_, fun gap => ?_, e.symm⟩
    · split
      · exact ElementsKind.le_trans (ElementsKind.le_union _ _) (ElementsKind.le_toHoley _)
      · exact ElementsKind.le_union _ _
    · split
      · exact ElementsKind.le_trans (ElementsKind.le_union_right _ _) (ElementsKind.le_toHoley _)
      · exact ElementsKind.le_union_right _ _
    · rw [if_pos gap]
      rfl

/-- An element that is stored fits the kind that the object has then. -/
theorem storeElement_carries (ob : h.Obeys rules) {index : Nat}
    (e : h.storeElement id index v = .ok h') : Carries rules h h' := by
  cases ho : h.object? id with
  | none =>
    simp only [storeElement, ho] at e
    cases e
    exact ob.carries
  | some o =>
    obtain ⟨kind, wider, value, gap, rfl⟩ := storeElement_eq_ok ho e
    have widened := generalizeElements_carries ob id kind
    obtain ⟨s, hs, kind'⟩ := generalizeElements_spec ob ho wider
    refine widened.trans (writeElement_carries widened.leads.obeys hs ?_ ?_)
    · rw [shapeOf, kind']
      exact ElementsKind.le_trans (widened.leads.grows.kindFor_le v) value
    · rw [shapeOf, kind']
      exact gap

/-- An element that was stored is there. -/
theorem storeElement_stores (ob : h.Obeys rules) (ho : h.object? id = some o) {i : Nat}
    (stored : h.storeElement id i v = .ok h') :
    ∃ o', h'.object? id = some o' ∧ o'.objectClass = o.objectClass ∧ o'.elements[i]? = some v := by
  obtain ⟨kind, wider, -, -, rfl⟩ := storeElement_eq_ok ho stored
  obtain ⟨s, hs, -⟩ := generalizeElements_spec ob ho wider
  refine ⟨_, object?_modifyObject_self.trans (congrArg _ hs), rfl, ?_⟩
  change (if i < o.elements.size then o.elements.set! i v else (resize o.elements i).push v)[i]? = _
  split
  · rename_i inside
    simp [inside]
  · rw [Array.getElem?_push, if_pos (size_resize o.elements i).symm]

/-- An array that gets longer is filled up with holes. -/
theorem storeArrayLength_carries (ob : h.Obeys rules) (e : h.storeArrayLength id v = .ok h') :
    Carries rules h h' := by
  unfold storeArrayLength at e
  split at e
  · cases e
  · cases ho : h.object? id with
    | none =>
      simp only [ho] at e
      cases e
      exact ob.carries
    | some o =>
      simp only [ho] at e
      split at e
      · cases e
      · injection e with e
        rw [← e]
        split
        -- A longer array has holes, so its kind is widened first and it is resized at the wider
        -- one.
        · have widened := generalizeElements_carries ob id (h.shapeOf o).elementsKind.toHoley
          obtain ⟨s, hs, kind⟩ := generalizeElements_spec ob ho (ElementsKind.le_toHoley _)
          refine widened.trans (resize_carries widened.leads.obeys hs fun _ => ?_)
          rw [shapeOf, kind]
          rfl
        · rename_i shorter
          exact resize_carries ob ho fun gap => absurd gap shorter

theorem storeClosed_carries (rules : Rules) : StoreClosed rules (Carries rules) where
  leads c := c.leads
  refl ob := ob.carries
  trans := Carries.trans
  intern n ob := by
    refine (intern_leads ob n).carries (.of_cells ?_)
    unfold intern
    split <;> rfl
  push {h c} ob hc :=
    ((storeClosed_leads rules).push ob hc).carries (.push c fun o e => absurd e (hc o))
  arrayLength ob _ e := storeArrayLength_carries ob e
  write {h id name kind a} v ob hr ho ha :=
    ((storeClosed_leads rules).write v ob hr ho ha).carries (writeOwn_keeps h id name kind v)
  add {h id name} v ob adds :=
    ((storeClosed_leads rules).add v ob adds).carries (addProperty_keeps h id name v {})

/-! ### New arrays and arguments -/

/-- An array is created with a kind that fits its elements, which may be holes. -/
theorem newArray_carries (ob : h.Obeys rules) (elements : List Value) :
    Carries rules h (newArray elements h).2 := by
  have each := (ElementsKind.le_foldl_union h.kindFor elements .packedSmi).2
  simp only [newArray, Computation.get_bind]
  have fd := arrayShape_settles ob (elements.foldl (fun k v => k.union (h.kindFor v)) .packedSmi)
  have found : Carries rules h _ := fd.leads.carries (.of_cells fd.cells)
  refine Computation.bind_rel Carries.trans found fun s hs => ?_
  obtain rfl := Except.ok.inj hs
  refine (allocateArray_leads ob _ elements.toArray).carries_allocateObject fun v hv => ?_
  have kind := congrArg Shape.elementsKind fd.layout
  rw [Shape.elementsKind_derive] at kind
  rw [kind]
  exact ElementsKind.le_trans (fd.leads.grows.kindFor_le v) (each v (by simpa using hv))

/-- Values other than holes do not ask for holes. -/
theorem kindFor_le_packed (full : v ≠ .hole) : (h.kindFor v).le .packed :=
  kindFor_le_iff.2
    ⟨fun e => absurd e full, by simp [ElementsKind.packed], by simp [ElementsKind.packed]⟩

/-- Arguments admit every value but a hole. -/
theorem newArguments_carries (ob : h.Obeys rules) (callee : Value) {values : List Value}
    (full : .hole ∉ values) (strict : Bool) :
    Carries rules h (newArguments callee values strict h).2 := by
  have kind : (h.shape argumentsShape).elementsKind = .packed :=
    (ob.root_shape (s := argumentsShape) (by decide)).2.2.2
  have created := (allocateArguments_leads ob callee values strict).carries_allocateObject
    fun v hv => by
      rw [kind]
      exact kindFor_le_packed fun e => full (e ▸ by simpa using hv)
  unfold newArguments
  exact Computation.bind_rel Carries.trans created fun id hid =>
    (argumentsLength_leads ob callee values strict hid _ _).carries (addProperty_keeps _ id _ _ _)

/-! ### Operations -/

end Heap

/-- No arguments object is created with a hole. -/
def HeapOperation.NoHole : HeapOperation → Prop
  | arguments _ values _ => .hole ∉ values
  | _ => True

namespace Heap

/-- A relation holds across every operation if it holds across the general rules for stores and
across all that leaves elements and call handlers alone, and also across the few operations that
neither covers. -/
theorem StoreClosed.across {R : Heap → Heap → Prop} (c : StoreClosed rules R)
    (ob : h.Obeys rules) (op : HeapOperation) (allowed : op.Allowed rules h)
    (quiet : ∀ {h' : Heap}, Leads rules h h' → h.LeavesAlone h' → R h h')
    (array : ∀ vs, R h (newArray vs h).2)
    (arguments : ∀ f vs strict, op = .arguments f vs strict → R h (newArguments f vs strict h).2)
    (callHandler : ∀ id f, op = .setCallHandler id f → R h (h.setCallHandler id f))
    (arrayLength : ∀ {id : ObjectId} {v : Value} {h' : Heap}, h.storeArrayLength id v = .ok h' → R h h')
    (element : ∀ {id : ObjectId} {i : Nat} {v : Value} {h' : Heap},
      h.storeElement id i v = .ok h' → R h h') :
    R h (op.perform h) := by
  have leads := operation_leads ob op allowed
  -- Most operations are quiet. The others have a hypothesis of their own, or end in a store that
  -- `R` is closed under.
  cases op with
  | intern n => exact c.intern n ob
  | number d => exact c.newNumber ob d
  | boxedNumber d => exact c.boxNumber ob d
  | string s => exact c.newString ob s
  | internalize s => exact quiet leads (h.internalize_keeps s)
  | object => exact quiet leads (h.allocateObject_keeps _ _)
  | objectWithPrototype p => exact quiet leads (h.newObjectWithPrototype_keeps p)
  | array vs => exact array vs
  | arguments f vs strict => exact arguments f vs strict rfl
  | stringWrapper v => exact quiet leads (h.allocateObject_keeps _ _)
  | shared n k code => exact quiet leads (.of_cells rfl)
  | closure s => exact quiet leads (h.newFunction_keeps s)
  | hostFunction n k f => exact quiet leads (h.newHostFunction_keeps n k f)
  | addProperty id n v a => exact quiet leads (h.addProperty_keeps id n v a)
  | addConstant id n v a => exact quiet leads (h.addConstant_keeps id n v a)
  | addAccessor id n g s => exact quiet leads (h.addAccessor_keeps id n g s)
  | setField id i v => exact quiet leads (.modifyObject fun _ => ⟨rfl, rfl⟩)
  | setDictionaryValue id n v => exact quiet leads (h.setDictionaryValue_keeps id n v)
  | normalize id => exact quiet leads (h.normalize_keeps id)
  | delete id n => exact quiet leads (h.delete_keeps id n)
  | setInterceptor id vs => exact quiet leads (h.setInterceptor_keeps id vs)
  | setCallHandler id f => exact callHandler id f rfl
  | setGlobal n v a => exact quiet leads (.modifyObject fun _ => ⟨rfl, rfl⟩)
  | setContext id v => exact quiet leads (h.modifyFunction_keeps id _)
  | setCode id code => exact quiet leads (h.modifyFunction_keeps id _)
  | modifyShared s f => exact quiet leads (.of_cells rfl)
  | elementsShape s k => exact quiet leads (.of_cells (cells_elementsTransition s k))
  | generalizeElements id k => exact quiet leads (h.generalizeElements_keeps id k)
  | setArrayLength id v => exact c.runExcept ob fun _ e => arrayLength e
  | scopes n => exact quiet leads (.of_cells rfl)
  | setElement r i v => exact c.setElement ob element r
  | store r n v strict => exact c.setPropertyWith c.callNothing ob r n v strict

/-- Operations without holes carry on what elements promise. -/
theorem operation_carries (ob : h.Obeys rules) (op : HeapOperation) (allowed : op.Allowed rules h)
    (full : op.NoHole) : Carries rules h (op.perform h) := by
  refine (storeClosed_carries rules).across ob op allowed Leads.carries (newArray_carries ob)
    (fun f vs strict e => ?_) (fun id f e => ?_) (storeArrayLength_carries ob)
    (storeElement_carries ob)
  · subst e
    exact newArguments_carries ob f full strict
  · exact (setCallHandler_leads ob f).carries_modifyObject fun _ _ _ hv => .inl hv

theorem elementClosed_carries (rules : Rules) :
    ElementClosed rules (Under rules (fun _ op => op.NoHole) (Carries rules)) where
  toCallClosed := (storeClosed_carries rules).under
    (fun f r args ob => (noteCall_leads ob f r args).carries (.of_cells rfl))
    fun op ob allowed full => operation_carries ob op allowed full
  element ob e := (storeClosed_carries rules).always (storeElement_carries ob e)

/-! ### The initial heap -/

/-- No object starts with elements. -/
theorem elementsFit_initial : Heap.initial.ElementsFit := by
  have keeps : Heap.roots.LeavesAlone Heap.initial := by
    unfold Heap.initial
    exact Computation.bind_rel .trans (installStringMethod_keeps _ _ _ _) fun _ _ =>
      installStringMethod_keeps _ _ _ _
  have empty : ∀ i < Heap.roots.cells.size,
      (Heap.roots.object? ⟨i⟩).all fun o => o.elements.isEmpty := by decide
  intro id o ho v hv
  rcases keeps.elements id o ho with e | ⟨root, hr, e⟩
  · simp [e] at hv
  · have none := empty id.index (index_lt_of_object? hr)
    rw [hr, Option.all_some, Array.isEmpty_iff] at none
    simp [e, none] at hv

end Heap

end Speculation
