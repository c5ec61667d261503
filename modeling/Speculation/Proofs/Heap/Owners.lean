import Speculation.Proofs.Heap.Calls

/-!
# Objects that have a shape to themselves

Whoever adds two constants of one name to an object and then stores to that name has an object that does
not fit its shape: both descriptors become fields, and only one value is appended. Unless a program adds
properties under fresh names only, objects and shapes may disagree.

Such an object does not spread, since `constantToField` gives it a shape that no transition leads to. Every
shape that comes from there by transitions has this object as its *owner* (`Owners`): no other object ever
has it, and the owner itself has moved on once a transition for a property starts from it. Shapes without an
owner count the fields of all their objects. Therefore **objects fit the shapes that transitions for
properties start from** (`HasOwners.fields`), in every heap and whatever the program does, and that is all
that following a known transition relies on.

`Owners.step` says what has to be checked of a change; the rest of the module goes through the operations,
first those that look for shapes, then those that move objects, then those that make them.
-/

namespace Speculation

namespace Heap

variable {rules : Rules} {h h' : Heap} {owner : ShapeId → Option ObjectId} {id : ObjectId}
  {o : JsObject} {s : ShapeId}

/-! ### Owners -/

/-- An object is the owner of its shape, or it fits a shape that has none. -/
structure Belongs (h : Heap) (owner : ShapeId → Option ObjectId) (id : ObjectId) (o : JsObject) :
    Prop where
  alone : ∀ {p}, owner o.shape = some p → p = id
  fields : owner o.shape = none → o.fields.length = (h.shapeOf o).fieldCount

/-- `owner` says of each shape whether one object alone may have it, and which. -/
structure Owners (h : Heap) (owner : ShapeId → Option ObjectId) : Prop where
  root : ∀ {s : ShapeId}, s.index < roots.shapes.size → owner s = none
  initial : ∀ {key : Option ObjectId} {s : ShapeId}, h.initialShapes.get? key = some s →
    owner s = none
  /-- Transitions lead to later shapes with the same owner. -/
  transition : ∀ {s t : ShapeId} {n : Name}, (h.shape s).transitions.get? n = some t →
    s.index < t.index ∧ owner t = owner s
  elementsTransition : ∀ {s t : ShapeId} {k : ElementsKind},
    (h.shape s).elementsTransitions.get? k = some t → s.index < t.index ∧ owner t = owner s
  object : ∀ {id : ObjectId} {o : JsObject}, h.object? id = some o → h.Belongs owner id o
  /-- The owner has left the shapes that a transition for a property starts from. -/
  left : ∀ {s t : ShapeId} {n : Name} {p : ObjectId}, (h.shape s).transitions.get? n = some t →
    owner s = some p → ∃ o, h.object? p = some o ∧ s.index < o.shape.index

/-- The shapes of a heap can be given owners. -/
def HasOwners (h : Heap) : Prop := ∃ owner, h.Owners owner

/-- An object has as many fields as its shape counts if its shape has a transition for a property. -/
theorem HasOwners.fields (w : h.HasOwners) (ho : h.object? id = some o) {n : Name} {t : ShapeId}
    (known : (h.shapeOf o).transitions.get? n = some t) :
    o.fields.length = (h.shapeOf o).fieldCount := by
  obtain ⟨owner, w⟩ := w
  have belongs := w.object ho
  cases e : owner o.shape with
  | none => exact belongs.fields e
  | some p =>
    obtain rfl := belongs.alone e
    obtain ⟨o', ho', later⟩ := w.left known e
    obtain rfl := Option.some.inj (ho.symm.trans ho')
    exact absurd later (Nat.lt_irrefl _)

/-- Owners after a change that keeps those of the shapes that were there. -/
theorem Owners.step {owner' : ShapeId → Option ObjectId} (w : h.Owners owner) (ob : h.Obeys rules)
    (g : h.Grows h') (same : ∀ s : ShapeId, s.index < h.shapes.size → owner' s = owner s)
    (initial : ∀ {key s}, h'.initialShapes.get? key = some s →
      h.initialShapes.get? key = some s ∨ owner' s = none)
    (transition : ∀ {s t n}, (h'.shape s).transitions.get? n = some t →
      (h.shape s).transitions.get? n = some t ∨ s.index < t.index ∧ owner' t = owner' s ∧
        ∀ p, owner' s = some p → ∃ o, h'.object? p = some o ∧ s.index < o.shape.index)
    (elements : ∀ {s t k}, (h'.shape s).elementsTransitions.get? k = some t →
      (h.shape s).elementsTransitions.get? k = some t ∨ s.index < t.index ∧ owner' t = owner' s)
    (object : ∀ {id o}, h'.object? id = some o → h.object? id = some o ∨
      h'.Belongs owner' id o ∧ ∀ {o₀}, h.object? id = some o₀ → o₀.shape.index ≤ o.shape.index) :
    h'.Owners owner' where
  root hs := (same _ (Nat.lt_of_lt_of_le hs ob.roots.shapes)).trans (w.root hs)
  initial e := by
    rcases initial e with e | none
    · rw [same _ (ob.initialShapes e).1]
      exact w.initial e
    · exact none
  -- An old transition is as it was; a new one goes to a later shape of the same owner.
  transition {s t n} e := by
    rcases transition e with e | ⟨later, owned, -⟩
    · have hs := index_lt_of_transition e
      rw [same s hs, same t ((ob.shape hs).transitions e).1]
      exact w.transition e
    · exact ⟨later, owned⟩
  elementsTransition {s t k} e := by
    rcases elements e with e | moved
    · rw [same s (index_lt_of_elementsTransition e), same t (ob.target_lt e)]
      exact w.elementsTransition e
    · exact moved
  object {id o} ho := by
    rcases object ho with ho | ⟨belongs, -⟩
    · have hs := (ob.object ho).shape_lt
      have belongs := w.object ho
      have layout := Shape.fieldCount_of_derive (g.derive_shapeOf hs)
      exact ⟨fun e => belongs.alone (same _ hs ▸ e),
        fun e => (belongs.fields (same _ hs ▸ e)).trans layout.symm⟩
    · exact belongs
  -- The owner left `s` before this step, or it is moved on by the step that adds the transition.
  left {s t n p} e hp := by
    rcases transition e with e | ⟨-, -, moved⟩
    · rw [same s (index_lt_of_transition e)] at hp
      obtain ⟨o, ho, later⟩ := w.left e hp
      obtain ⟨o', ho', -⟩ := g.object ho
      refine ⟨o', ho', ?_⟩
      rcases object ho' with old | ⟨-, moved⟩
      · rwa [← Option.some.inj (ho.symm.trans old)]
      · exact Nat.lt_of_lt_of_le later (moved ho)
    · exact moved p hp

/-- Owners are a matter of cells, transitions and first shapes. -/
theorem Owners.of_same (w : h.Owners owner) (ob : h.Obeys rules) (g : h.Grows h')
    (cells : h'.cells = h.cells) (initial : h'.initialShapes = h.initialShapes)
    (transitions : ∀ s, (h'.shape s).transitions = (h.shape s).transitions ∧
      (h'.shape s).elementsTransitions = (h.shape s).elementsTransitions) : h'.Owners owner := by
  refine w.step ob g (fun _ _ => rfl) (fun e => .inl (initial ▸ e)) (fun {s t n} e => .inl ?_)
    (fun {s t k} e => .inl ?_) fun ho => .inl ?_
  · rwa [← (transitions s).1]
  · rwa [← (transitions s).2]
  · simpa [object?, cell?, cells] using ho

/-! ### New shapes -/

/-- The shapes that are not there yet are given an owner. -/
def assign (h : Heap) (owner : ShapeId → Option ObjectId) (p : Option ObjectId) (s : ShapeId) :
    Option ObjectId :=
  if s.index < h.shapes.size then owner s else p

/-- Shapes that were there keep their owners. -/
theorem assign_old (p : Option ObjectId) (hs : s.index < h.shapes.size) :
    h.assign owner p s = owner s := if_pos hs

@[simp] theorem assign_new (p : Option ObjectId) : h.assign owner p ⟨h.shapes.size⟩ = p :=
  if_neg (Nat.lt_irrefl _)

/-- A shape of a heap with one more is an old one or the new one. -/
theorem index_lt_or_eq_new (hs : s.index < h.shapes.size + 1) :
    s.index < h.shapes.size ∨ s = ⟨h.shapes.size⟩ := by
  rcases Nat.lt_succ_iff_lt_or_eq.1 hs with old | new
  · exact .inl old
  · exact .inr (by cases s; cases new; rfl)

/-- The transitions after a shape without any was added. -/
theorem transition_of_addShape {t : Shape} (bare : t.transitions = {}) {u : ShapeId} {n : Name}
    (e : ((h.addShape t).2.shape s).transitions.get? n = some u) :
    (h.shape s).transitions.get? n = some u := by
  have inside := index_lt_of_transition e
  rcases index_lt_or_eq_new (size_shapes_addShape (h := h) t ▸ inside) with old | rfl
  · rwa [shape_addShape_of_lt old] at e
  · rw [shape_addShape_new, bare] at e
    cases e

/-- A new shape without transitions may be given any owner. -/
theorem Owners.addShape (w : h.Owners owner) (ob : h.Obeys rules) {t : Shape}
    (transitions : t.transitions = {}) (elements : t.elementsTransitions = {})
    (p : Option ObjectId) : (h.addShape t).2.Owners (h.assign owner p) where
  root hs := (assign_old p (Nat.lt_of_lt_of_le hs ob.roots.shapes)).trans (w.root hs)
  initial e := (assign_old p (ob.initialShapes e).1).trans (w.initial e)
  transition e := by
    have e := transition_of_addShape transitions e
    have hs := index_lt_of_transition e
    rw [assign_old p hs, assign_old p ((ob.shape hs).transitions e).1]
    exact w.transition e
  elementsTransition e := by
    have e := elementsTransition_of_addShape elements e
    rw [assign_old p (index_lt_of_elementsTransition e), assign_old p (ob.target_lt e)]
    exact w.elementsTransition e
  object {id o} ho := by
    have hs := (ob.object ho).shape_lt
    have belongs := w.object ho
    refine ⟨fun e => belongs.alone ((assign_old p hs).symm.trans e), fun e => ?_⟩
    rw [shapeOf, shape_addShape_of_lt hs]
    exact belongs.fields ((assign_old p hs).symm.trans e)
  left e hp := by
    have e := transition_of_addShape transitions e
    rw [assign_old p (index_lt_of_transition e)] at hp
    exact w.left e hp

/-! ### Transitions -/

/-- The transitions for properties are those of before. -/
theorem transition_of_record (hs : s.index < h.shapes.size) {k : ElementsKind} {u t : ShapeId}
    {n : Name} (e : ((h.recordElements s k).shape u).transitions.get? n = some t) :
    (h.shape u).transitions.get? n = some t := by
  have inside : u.index < h.shapes.size + 1 := by simpa [recordElements] using index_lt_of_transition e
  rcases index_lt_or_eq_new inside with old | rfl
  · by_cases ne : s = u
    · subst ne
      rwa [shape_recordElements_self hs] at e
    · rwa [shape_recordElements_ne old ne] at e
  · rw [shape_recordElements_new hs] at e
    cases e

/-- A transition to another elements kind leads to a shape of the same owner. -/
theorem Owners.widen (w : h.Owners owner) (ob : h.Obeys rules) (hs : s.index < h.shapes.size)
    {k : ElementsKind} (l : Leads rules h (h.elementsTransition s k).2) :
    (h.elementsTransition s k).2.Owners (h.assign owner (owner s)) ∧
      h.assign owner (owner s) (h.elementsTransition s k).1 = owner s ∧
      s.index ≤ (h.elementsTransition s k).1.index := by
  -- The owner of the new shape, should one be made, is that of `s`.
  have kept : h.Owners (h.assign owner (owner s)) :=
    w.step ob (.refl h) (fun _ hs => assign_old _ hs) .inl .inl .inl .inl
  unfold Heap.elementsTransition at l ⊢
  split
  · exact ⟨kept, assign_old _ hs, Nat.le_refl _⟩
  · rename_i other
    rw [if_neg other] at l
    split
    · rename_i target known
      obtain ⟨later, owned⟩ := w.elementsTransition known
      exact ⟨kept, (assign_old _ (ob.target_lt known)).trans owned, Nat.le_of_lt later⟩
    · rename_i unknown
      rw [unknown] at l
      refine ⟨?_, assign_new _, Nat.le_of_lt hs⟩
      have grows : h.Grows (h.recordElements s k) := l.grows
      refine w.step ob grows (fun _ hs => assign_old _ hs) .inl
        (fun e => .inl (transition_of_record hs e)) (fun e => ?_) .inl
      rcases elementsTransition_of_record hs e with e | ⟨rfl, -, rfl⟩
      · exact .inl e
      · exact .inr ⟨hs, (assign_new _).trans (assign_old _ hs).symm⟩

/-- A search for the shape with one descriptor more finds a known one or a new one. -/
theorem transitionTarget_fst (s : ShapeId) (d : Descriptor) :
    (h.shape s).transitions.get? d.name = some (h.transitionTarget s d).1 ∨
      (h.transitionTarget s d).1 = ⟨h.shapes.size⟩ := by
  unfold transitionTarget
  split
  · rename_i target known
    split
    · exact .inl known
    · exact .inr rfl
  · exact .inr rfl

theorem initialShapes_transitionTarget (s : ShapeId) (d : Descriptor) :
    (h.transitionTarget s d).2.initialShapes = h.initialShapes := by
  unfold transitionTarget
  split
  · split <;> rfl
  · rfl

/-- It records no transition but that to the new shape. -/
theorem transition_of_target {d : Descriptor} {u t : ShapeId} {n : Name}
    (e : ((h.transitionTarget s d).2.shape u).transitions.get? n = some t) :
    (h.shape u).transitions.get? n = some t ∨ u = s ∧ t = (h.transitionTarget s d).1 := by
  cases known : (h.shape s).transitions.get? d.name with
  | some target =>
    simp only [transitionTarget, known] at e
    split at e
    · exact .inl e
    · exact .inl (transition_of_addShape rfl e)
  | none =>
    simp only [transitionTarget, known] at e ⊢
    rcases shape_modifyShape_cases (h := (h.addShape ((h.shape s).extended d)).2) (s := s)
      (f := fun t => { t with transitions := t.transitions.insert d.name ⟨h.shapes.size⟩ }) u
      with same | ⟨rfl, changed⟩
    · exact .inl (transition_of_addShape rfl ((congrArg (·.transitions.get? n) same).symm.trans e))
    · have e := (congrArg (·.transitions.get? n) changed).symm.trans e
      rw [Table.get?_insert] at e
      split at e
      · exact .inr ⟨rfl, (Option.some.inj e).symm⟩
      · exact .inl (transition_of_addShape rfl e)

theorem elementsTransition_of_target {d : Descriptor} {u t : ShapeId} {k : ElementsKind}
    (e : ((h.transitionTarget s d).2.shape u).elementsTransitions.get? k = some t) :
    (h.shape u).elementsTransitions.get? k = some t := by
  unfold transitionTarget at e
  split at e
  · split at e
    · exact e
    · exact elementsTransition_of_addShape rfl e
  · refine elementsTransition_of_addShape (t := (h.shape s).extended d) rfl ?_
    rw [← elementsTransitions_modifyShape (s := s) (f := fun t =>
      { t with transitions := t.transitions.insert d.name ⟨h.shapes.size⟩ }) fun _ => rfl]
    exact e

/-! ### Changes of objects -/

/-- An object that changes its data, or moves to a later shape. -/
theorem Owners.move (w : h.Owners owner) {f : JsObject → JsObject}
    (move : ∀ o, h.object? id = some o →
      h.Belongs owner id (f o) ∧ o.shape.index ≤ (f o).shape.index) :
    (h.modifyObject id f).Owners owner where
  root := w.root
  initial := w.initial
  transition := w.transition
  elementsTransition := w.elementsTransition
  object {j o'} ho' := by
    rw [object?_modifyObject] at ho'
    split at ho'
    · subst j
      obtain ⟨o, ho, rfl⟩ := Option.map_eq_some_iff.1 ho'
      exact ⟨(move o ho).1.alone, (move o ho).1.fields⟩
    · exact ⟨(w.object ho').alone, (w.object ho').fields⟩
  left {s t n p} e hp := by
    obtain ⟨o, ho, later⟩ := w.left e hp
    rw [object?_modifyObject]
    split
    · subst p
      exact ⟨f o, by rw [ho]; rfl, Nat.lt_of_lt_of_le later (move o ho).2⟩
    · exact ⟨o, ho, later⟩

/-- An object that keeps its shape and the number of its fields. -/
theorem HasOwners.data (w : h.HasOwners) {f : JsObject → JsObject}
    (same : ∀ o, (f o).shape = o.shape ∧ (f o).fields.length = o.fields.length) :
    (h.modifyObject id f).HasOwners := by
  obtain ⟨owner, w⟩ := w
  refine ⟨owner, w.move fun o ho => ?_⟩
  have belongs := w.object ho
  obtain ⟨shape, fields⟩ := same o
  refine ⟨⟨fun e => belongs.alone (shape ▸ e), fun e => ?_⟩, Nat.le_of_eq (by rw [shape])⟩
  rw [fields, shapeOf, shape]
  exact belongs.fields (shape ▸ e)

/-- An object that gets a new shape, and owns it or fits it. -/
theorem Owners.reshape (w : h.Owners owner) (ob : h.Obeys rules) (ho : h.object? id = some o)
    {t : Shape} (transitions : t.transitions = {}) (elements : t.elementsTransitions = {})
    {f : JsObject → JsObject} (hf : (f o).shape = ⟨h.shapes.size⟩) (p : Option ObjectId)
    (alone : ∀ {q}, p = some q → q = id) (fields : p = none → (f o).fields.length = t.fieldCount) :
    ((h.addShape t).2.modifyObject id f).HasOwners := by
  refine ⟨h.assign owner p, (w.addShape ob transitions elements p).move fun o' ho' => ?_⟩
  obtain rfl := Option.some.inj (ho.symm.trans ho')
  refine ⟨⟨fun e => alone ?_, fun e => ?_⟩, ?_⟩
  · rwa [hf, assign_new] at e
  · rw [hf, assign_new] at e
    rw [fields e, shapeOf, hf, shape_addShape_new]
  · rw [hf]
    exact Nat.le_of_lt (ob.object ho).shape_lt

/-- An object that moves along the transition for a property, known or not. -/
theorem HasOwners.extend (w : h.HasOwners) (ob : h.Obeys rules) (ho : h.object? id = some o)
    {d : Descriptor} (settles : Settles rules h ((h.shapeOf o).extended d) (h.transitionTarget o.shape d))
    {f : JsObject → JsObject} (g : h.Grows ((h.transitionTarget o.shape d).2.modifyObject id f))
    (hf : (f o).shape = (h.transitionTarget o.shape d).1)
    (fields : (f o).fields.length = o.fields.length + if d.kind.isField then 1 else 0) :
    ((h.transitionTarget o.shape d).2.modifyObject id f).HasOwners := by
  obtain ⟨owner, w⟩ := w
  have hs := (ob.object ho).shape_lt
  have belongs := w.object ho
  -- The shape found has the same owner and is a later one.
  obtain ⟨owned, later⟩ : h.assign owner (owner o.shape) (h.transitionTarget o.shape d).1 =
      owner o.shape ∧ o.shape.index < (h.transitionTarget o.shape d).1.index := by
    rcases h.transitionTarget_fst o.shape d with known | new
    · obtain ⟨later, owned⟩ := w.transition known
      exact ⟨(assign_old _ ((ob.shape hs).transitions known).1).trans owned, later⟩
    · rw [new]
      exact ⟨assign_new _, hs⟩
  have moved {j : ObjectId} {o' : JsObject} (ho' : ((h.transitionTarget o.shape d).2.modifyObject
      id f).object? j = some o') : h.object? j = some o' ∨ j = id ∧ o' = f o := by
    rw [object?_modifyObject, settles.object?] at ho'
    split at ho'
    · subst j
      rw [ho] at ho'
      exact .inr ⟨rfl, (Option.some.inj ho').symm⟩
    · exact .inl ho'
  refine ⟨h.assign owner (owner o.shape), w.step ob g (fun s hs => assign_old _ hs) (fun e => .inl ?_)
    (fun {u t n} e => ?_) (fun e => .inl (elementsTransition_of_target e)) fun {j o'} ho' => ?_⟩
  · rwa [← h.initialShapes_transitionTarget o.shape d]
  · rcases transition_of_target e with e | ⟨rfl, rfl⟩
    · exact .inl e
    · refine .inr ⟨later, owned.trans (assign_old _ hs).symm, fun p hp => ⟨f o, ?_, by rwa [hf]⟩⟩
      obtain rfl := belongs.alone ((assign_old _ hs).symm.trans hp)
      rw [object?_modifyObject_self, settles.object?, ho]
      rfl
  · rcases moved ho' with ho' | ⟨rfl, rfl⟩
    · exact .inl ho'
    · refine .inr ⟨⟨fun e => belongs.alone ?_, fun e => ?_⟩, fun {o₀} ho₀ => ?_⟩
      · rwa [hf, owned] at e
      · rw [hf, owned] at e
        rw [fields, belongs.fields e, shapeOf_modifyObject]
        unfold shapeOf at settles ⊢
        rw [hf, Shape.fieldCount_of_derive settles.layout, Shape.fieldCount_extended]
      · obtain rfl := Option.some.inj (ho.symm.trans ho₀)
        rw [hf]
        exact Nat.le_of_lt later

/-! ### Operations -/

/-- Growth that keeps owners. -/
structure KeepsOwners (rules : Rules) (h h' : Heap) : Prop extends Leads rules h h' where
  owners : h.HasOwners → h'.HasOwners

/-- A heap keeps its own owners. -/
theorem Obeys.keepsOwners (ob : h.Obeys rules) : KeepsOwners rules h h := ⟨ob.leads, id⟩

theorem KeepsOwners.trans {h'' : Heap} (a : KeepsOwners rules h h') (b : KeepsOwners rules h' h'') :
    KeepsOwners rules h h'' :=
  ⟨a.toLeads.trans b.toLeads, b.owners ∘ a.owners⟩

theorem Leads.keepsOwners_of_eq (l : Leads rules h h') (ob : h.Obeys rules)
    (cells : h'.cells = h.cells) (shapes : h'.shapes = h.shapes)
    (initial : h'.initialShapes = h.initialShapes) : KeepsOwners rules h h' := by
  refine ⟨l, fun ⟨owner, w⟩ => ⟨owner, w.of_same ob l.grows cells initial fun s => ?_⟩⟩
  simp [Heap.shape, shapes]

/-- Owners are a matter of shapes and fields. -/
theorem Leads.keepsOwners_data {f : JsObject → JsObject} (l : Leads rules h (h.modifyObject id f))
    (same : ∀ o, (f o).shape = o.shape ∧ (f o).fields.length = o.fields.length) :
    KeepsOwners rules h (h.modifyObject id f) :=
  ⟨l, fun w => w.data same⟩

section Properties

variable (ob : h.Obeys rules) {name : Name}

include ob

theorem addProperty_keepsOwners (m : MayAdd rules h id name) (v : Value) (a : Attributes) :
    KeepsOwners rules h (h.addProperty id name v a) := by
  have leads := addProperty_leads ob m v a
  refine ⟨leads, fun w => ?_⟩
  cases ho : h.object? id with
  | none => simpa only [addProperty, ho] using w
  | some o =>
    by_cases hd : (h.shapeOf o).isDictionary
    · simp only [addProperty, ho, hd, if_true] at leads ⊢
      exact w.data fun _ => ⟨rfl, rfl⟩
    · simp only [addProperty, ho, hd, Bool.false_eq_true, if_false] at leads ⊢
      refine w.extend ob ho (transitionTarget_spec ob (ob.object ho).shape_lt ?_) leads.grows rfl ?_
      · exact m.admits ho (by simpa using hd) ob rfl (by simp) (by simp)
      · simp [PropertyKind.isField]

theorem addConstant_keepsOwners (m : MayAdd rules h id name) (v : Value) (a : Attributes) :
    KeepsOwners rules h (h.addConstant id name v a) := by
  have leads := addConstant_leads ob m v a
  refine ⟨leads, fun w => ?_⟩
  cases ho : h.object? id with
  | none => simpa only [addConstant, ho] using w
  | some o =>
    by_cases hd : (h.shapeOf o).isDictionary
    · simp only [addConstant, ho, hd, if_true] at leads ⊢
      exact (addProperty_keepsOwners ob m v a).owners w
    · simp only [addConstant, ho, hd, Bool.false_eq_true, if_false] at leads ⊢
      refine w.extend ob ho (transitionTarget_spec ob (ob.object ho).shape_lt ?_) leads.grows rfl rfl
      exact m.admits ho (by simpa using hd) ob rfl (by simp) (by simp)

theorem addAccessor_keepsOwners (fresh : rules.freshNames → ∀ o, h.object? id = some o →
    (h.shapeOf o).descriptor? name = none) (getter setter : Value) :
    KeepsOwners rules h (h.addAccessor id name getter setter) := by
  have leads := addAccessor_leads ob fresh getter setter
  refine ⟨leads, fun w => ?_⟩
  cases ho : h.object? id with
  | none => simpa only [addAccessor, ho] using w
  | some o =>
    simp only [addAccessor, ho] at leads ⊢
    refine w.extend ob ho (transitionTarget_spec ob (ob.object ho).shape_lt ?_) leads.grows rfl rfl
    exact ⟨by simp, fun _ => rfl, by simp, fun r => fresh r o ho, fun _ _ _ => rfl⟩

/-- The object keeps its new shape to itself. -/
theorem constantToField_keepsOwners (v : Value) (constant : ∀ o, h.object? id = some o → ∃ d c,
    (h.shapeOf o).descriptor? name = some d ∧ d.kind = .constant c) :
    KeepsOwners rules h (h.constantToField id name v) := by
  have leads := constantToField_leads ob v constant
  refine ⟨leads, fun w => ?_⟩
  cases ho : h.object? id with
  | none => simpa only [constantToField, ho] using w
  | some o =>
    obtain ⟨owner, w⟩ := w
    simp only [constantToField, ho]
    exact w.reshape ob ho rfl rfl rfl (some id) (fun e => (Option.some.inj e).symm) (by simp)

theorem setInterceptor_keepsOwners (values : Table Name Value) :
    KeepsOwners rules h (h.setInterceptor id values) := by
  refine ⟨setInterceptor_leads ob values, fun w => ?_⟩
  cases ho : h.object? id with
  | none => simpa only [setInterceptor, ho] using w
  | some o =>
    obtain ⟨owner, w⟩ := w
    have belongs := w.object ho
    simp only [setInterceptor, ho]
    exact w.reshape ob ho rfl rfl rfl (owner o.shape) belongs.alone belongs.fields

theorem setDictionaryValue_keepsOwners (v : Value) :
    KeepsOwners rules h (h.setDictionaryValue id name v) := by
  refine (setDictionaryValue_leads ob name v).keepsOwners_data fun o => ?_
  split <;> exact ⟨rfl, rfl⟩

theorem writeOwn_keepsOwners (hr : h.resolveProxy id = id) {kind : PropertyKind} {a : Attributes}
    (own : h.ownReal id name = .property id kind a) (v : Value) :
    KeepsOwners rules h (h.writeOwn id name kind v) := by
  have leads := writeOwn_leads ob hr own v
  cases kind with
  | field i => exact leads.keepsOwners_data fun _ => ⟨rfl, by simp⟩
  | normal => exact setDictionaryValue_keepsOwners ob v
  | constant c =>
    refine constantToField_keepsOwners ob v fun o ho => ?_
    rw [ownReal_eq hr ho, Lookup.ofOwned_eq_property] at own
    exact ⟨_, c, Shape.descriptor?_of_owned? own.2 (by simp), rfl⟩
  | accessor g s => exact ob.keepsOwners

theorem normalize_keepsOwners (id : ObjectId) : KeepsOwners rules h (h.normalize id) := by
  refine ⟨normalize_leads ob id, fun w => ?_⟩
  cases ho : h.object? id with
  | none => simpa only [normalize, ho] using w
  | some o =>
    by_cases hd : (h.shapeOf o).isDictionary
    · simpa only [normalize, ho, hd, if_true] using w
    · obtain ⟨owner, w⟩ := w
      simp only [normalize, ho, hd, Bool.false_eq_true, if_false]
      exact w.reshape ob ho rfl rfl rfl none (by simp) fun _ => Shape.fieldCount_normalized.symm

theorem delete_keepsOwners (id : ObjectId) (name : Name) : KeepsOwners rules h (h.delete id name).2 := by
  have norm := normalize_keepsOwners ob (h.resolveProxy id)
  simp only [delete]
  split
  · exact ob.keepsOwners
  split
  · exact norm
  split
  · split
    · exact norm
    · exact norm.trans ((eraseEntry_leads norm.obeys _ name).keepsOwners_data fun _ => ⟨rfl, rfl⟩)
  · exact norm

end Properties

/-! ### Elements -/

section Elements

variable (ob : h.Obeys rules)

include ob

theorem elementsTransition_keepsOwners (hs : s.index < h.shapes.size) (widened : h.Widened s)
    {k : ElementsKind} (le : (h.shape s).elementsKind.le k) :
    KeepsOwners rules h (h.elementsTransition s k).2 := by
  have leads := (elementsTransition_settles ob hs widened le).leads
  exact ⟨leads, fun ⟨_, w⟩ => ⟨_, (w.widen ob hs leads).1⟩⟩

theorem generalizeElements_keepsOwners (id : ObjectId) (kind : ElementsKind) :
    KeepsOwners rules h (h.generalizeElements id kind) := by
  refine ⟨generalizeElements_leads ob id kind, fun ⟨owner, w⟩ => ?_⟩
  cases ho : h.object? id with
  | none => simpa only [generalizeElements, ho] using ⟨owner, w⟩
  | some o =>
    by_cases general : (h.shapeOf o).elementsKind.generalizesTo kind
    · have fits := ob.object ho
      have settles := elementsTransition_settles ob fits.shape_lt fits.widened
        (ElementsKind.le_of_generalizesTo general)
      obtain ⟨w', owned, later⟩ := w.widen ob fits.shape_lt settles.leads
      have belongs := w.object ho
      simp only [generalizeElements, ho, general, if_true]
      refine ⟨_, w'.move fun o' ho' => ?_⟩
      obtain rfl : o = o' := by simpa [ho] using settles.object?.symm.trans ho'
      refine ⟨⟨fun e => belongs.alone (owned.symm.trans e), fun e => ?_⟩, later⟩
      exact (belongs.fields (owned.symm.trans e)).trans
        (Shape.fieldCount_of_derive settles.layout).symm
    · simpa only [generalizeElements, ho, general, Bool.false_eq_true, if_false] using ⟨owner, w⟩

theorem storeElement_keepsOwners {index : Nat} {v : Value}
    (hs : h.storeElement id index v = .ok h') : KeepsOwners rules h h' := by
  unfold storeElement at hs
  split at hs
  · cases hs
    exact ob.keepsOwners
  · dsimp only at hs
    split at hs
    · cases hs
    · cases hs
      have g := generalizeElements_keepsOwners ob id
      exact (g _).trans ((writeElement_leads (g _).obeys id index v).keepsOwners_data
        fun _ => ⟨rfl, rfl⟩)

theorem storeArrayLength_keepsOwners {v : Value} (hs : h.storeArrayLength id v = .ok h') :
    KeepsOwners rules h h' := by
  have data {g : Heap} {length : Nat} (ob : g.Obeys rules) : KeepsOwners rules g
      (g.modifyObject id fun o => { o with elements := resize o.elements length }) :=
    Leads.keepsOwners_data (ob.leads_data fun _ => ⟨rfl, rfl, rfl, rfl⟩) fun _ => ⟨rfl, rfl⟩
  unfold storeArrayLength at hs
  split at hs
  · cases hs
  split at hs
  · cases hs
    exact ob.keepsOwners
  split at hs
  · cases hs
  · cases hs
    split
    · have g := generalizeElements_keepsOwners ob id
      exact (g _).trans (data (g _).obeys)
    · exact data ob

end Elements

/-! ### New cells -/

/-- A cell that is added, as an object that fits a shape without an owner or as something else. -/
theorem Owners.push (w : h.Owners owner) {c : Cell} (fits : ∀ o, c = .object o →
    owner o.shape = none ∧ o.fields.length = (h.shapeOf o).fieldCount) :
    Owners { h with cells := h.cells.push c } owner where
  root := w.root
  initial := w.initial
  transition := w.transition
  elementsTransition := w.elementsTransition
  object {id o} ho := by
    have hc := object?_eq_some.1 ho
    simp only [cell?, Array.getElem?_push] at hc
    split at hc
    · obtain ⟨free, fields⟩ := fits o (Option.some.inj hc)
      exact ⟨fun e => absurd (free.symm.trans e) (by simp), fun _ => fields⟩
    · have belongs := w.object (object?_eq_some.2 hc)
      exact ⟨belongs.alone, belongs.fields⟩
  left e hp := by
    obtain ⟨o, ho, later⟩ := w.left e hp
    exact ⟨o, object?_eq_some.2 (cell?_push (object?_eq_some.1 ho)), later⟩

theorem Owners.allocate (w : h.Owners owner) {c : Cell} (fits : ∀ o, c = .object o →
    owner o.shape = none ∧ o.fields.length = (h.shapeOf o).fieldCount) :
    (allocate c h).2.Owners owner := by
  simp only [Heap.allocate, Computation.get_bind]
  split
  · exact w.push fits
  · exact w

theorem Owners.allocateObject (w : h.Owners owner) (hs : owner s = none) (c : ObjectClass)
    (elements : Array Value) : (allocateObject s c elements h).2.Owners owner := by
  simp only [Heap.allocateObject, Computation.get_bind]
  refine w.allocate fun o e => ?_
  cases e
  exact ⟨hs, List.length_replicate⟩

/-- Root shapes have no owners. -/
theorem HasOwners.allocateRoot (w : h.HasOwners) (hs : s.index < roots.shapes.size) (c : ObjectClass)
    (elements : Array Value) : (Heap.allocateObject s c elements h).2.HasOwners := by
  obtain ⟨owner, w⟩ := w
  exact ⟨owner, w.allocateObject (w.root hs) c elements⟩

/-- A shape without an owner may become the first shape of objects. -/
theorem Owners.insertInitial (w : h.Owners owner) (key : Option ObjectId) (hs : owner s = none) :
    Owners { h with initialShapes := h.initialShapes.insert key s } owner where
  root := w.root
  initial e := by
    rw [Table.get?_insert] at e
    split at e
    · rwa [← Option.some.inj e]
    · exact w.initial e
  transition := w.transition
  elementsTransition := w.elementsTransition
  object ho := ⟨(w.object ho).alone, (w.object ho).fields⟩
  left := w.left

/-- The first shape of the objects with a prototype has no owner. -/
theorem Owners.initialShape (w : h.Owners owner) (ob : h.Obeys rules) (prototype : Value) :
    (h.initialShape prototype).2.Owners (h.assign owner none) ∧
      h.assign owner none (h.initialShape prototype).1 = none := by
  cases e : h.initialShapes.get? prototype.objectId? with
  | some s =>
    simp only [Heap.initialShape, e]
    exact ⟨w.step ob (.refl h) (fun _ hs => assign_old _ hs) .inl .inl .inl .inl,
      (assign_old _ (ob.initialShapes e).1).trans (w.initial e)⟩
  | none =>
    have added := w.addShape ob (t := .make .object prototype .packedSmi) rfl rfl none
    simp only [Heap.initialShape, e]
    exact ⟨added.insertInitial _ (assign_new none), assign_new none⟩

section Creation

variable (ob : h.Obeys rules)

include ob

theorem newObjectWithPrototype_keepsOwners {prototype : Value} (m : MayInherit rules h prototype) :
    KeepsOwners rules h (newObjectWithPrototype prototype h).2 := by
  refine ⟨newObjectWithPrototype_leads ob m, fun ⟨owner, w⟩ => ?_⟩
  obtain ⟨w, free⟩ := w.initialShape ob prototype
  exact ⟨_, w.allocateObject free .plain #[]⟩

theorem newArray_keepsOwners (elements : List Value) :
    KeepsOwners rules h (newArray elements h).2 := by
  refine ⟨newArray_leads ob elements, fun ⟨owner, w⟩ => ?_⟩
  have free : owner arrayShape = none := w.root (by decide)
  obtain ⟨w, owned, -⟩ := w.widen ob (ob.root_shape (by decide)).1 (arrayShape_settles ob
    (elements.foldl (fun k v => k.union (h.kindFor v)) .packedSmi)).leads
  exact ⟨_, w.allocateObject (owned.trans free) .array elements.toArray⟩

theorem newArguments_keepsOwners (callee : Value) (values : List Value) (strict : Bool) :
    KeepsOwners rules h (newArguments callee values strict h).2 := by
  have allocated := allocateArguments_leads ob callee values strict
  refine Computation.bind_rel KeepsOwners.trans
    ⟨allocated, fun w => w.allocateRoot (by decide) _ _⟩ fun id created => ?_
  exact addProperty_keepsOwners allocated.obeys (mayAdd_argumentsLength ob callee values strict created)
    _ _

theorem newShared_keepsOwners (name : String) (formals : Nat) (code : Option CodeId) :
    KeepsOwners rules h (newShared name formals code h).2 :=
  (newShared_leads ob name formals code).keepsOwners_of_eq ob rfl rfl rfl

theorem newClosure_keepsOwners (shared : SharedId) (code : Option CodeId)
    (host : Option HostFunction) : KeepsOwners rules h (newClosure shared code host h).2 := by
  refine ⟨newClosure_leads ob shared code host, ?_⟩
  exact Computation.bind_rel (R := fun g g' : Heap => g.HasOwners → g'.HasOwners) (fun a b => b ∘ a)
    (fun w => w.allocateRoot (by decide) _ _) fun _ _ w => w.allocateRoot (by decide) _ _

theorem newFunction_keepsOwners (shared : SharedId) :
    KeepsOwners rules h (newFunction shared h).2 := by
  rw [newFunction, Computation.get_bind]
  exact newClosure_keepsOwners ob shared _ none

theorem newHostFunction_keepsOwners (name : String) (formals : Nat) (host : HostFunction) :
    KeepsOwners rules h (newHostFunction name formals host h).2 := by
  have a := newShared_keepsOwners ob name formals none
  exact Computation.bind_rel KeepsOwners.trans a fun shared _ => newClosure_keepsOwners a.obeys shared _ _

theorem internalize_keepsOwners (s : String) : KeepsOwners rules h (internalize s h).2 := by
  simp only [internalize, Computation.get_bind]
  cases h.internalized.get? s with
  | some id => exact ob.keepsOwners
  | none =>
    have a : KeepsOwners rules h (allocate (.string s true) h).2 :=
      ⟨allocate_leads ob (by simp), Exists.imp fun _ w => w.allocate (by simp)⟩
    exact Computation.bind_rel KeepsOwners.trans a fun _ _ =>
      Leads.keepsOwners_of_eq (a.obeys.leads_of_eq rfl rfl rfl rfl) a.obeys rfl rfl rfl

end Creation

/-- Owners are kept by all that general stores do. -/
theorem storeClosed_keepsOwners (rules : Rules) : StoreClosed rules (KeepsOwners rules) where
  leads k := k.toLeads
  refl := Obeys.keepsOwners
  trans := KeepsOwners.trans
  intern n ob := by
    refine (intern_leads ob n).keepsOwners_of_eq ob ?_ ?_ ?_ <;> unfold intern <;> split <;> rfl
  push ob hc := ⟨ob.leads_push _ fun o e => absurd e (hc o),
    fun ⟨owner, w⟩ => ⟨owner, w.push fun o e => absurd e (hc o)⟩⟩
  arrayLength ob _ e := storeArrayLength_keepsOwners ob e
  write v ob hr ho _ := writeOwn_keepsOwners ob hr ho v
  add v ob adds := addProperty_keepsOwners ob (mayAdd_of_ownReal adds.real adds.absent adds.array) v {}

/-- They are kept by every operation. -/
theorem operation_keepsOwners (ob : h.Obeys rules) (op : HeapOperation)
    (allowed : op.Allowed rules h) : KeepsOwners rules h (op.perform h) := by
  have leads := operation_leads ob op allowed
  have c := storeClosed_keepsOwners rules
  cases op with
  | intern n => exact c.intern n ob
  | number d => exact c.newNumber ob d
  | boxedNumber d => exact c.boxNumber ob d
  | string s => exact c.newString ob s
  | internalize s => exact internalize_keepsOwners ob s
  | object => exact ⟨leads, fun w => w.allocateRoot (by decide) _ _⟩
  | objectWithPrototype p => exact newObjectWithPrototype_keepsOwners ob allowed
  | array vs => exact newArray_keepsOwners ob vs
  | arguments f vs strict => exact newArguments_keepsOwners ob f vs strict
  | stringWrapper v => exact ⟨leads, fun w => w.allocateRoot (by decide) _ _⟩
  | shared n k code => exact newShared_keepsOwners ob n k code
  | closure s => exact newFunction_keepsOwners ob s
  | hostFunction n k f => exact newHostFunction_keepsOwners ob n k f
  | addProperty id n v a => exact addProperty_keepsOwners ob allowed v a
  | addConstant id n v a => exact addConstant_keepsOwners ob allowed v a
  | addAccessor id n g s => exact addAccessor_keepsOwners ob allowed g s
  | setField id i v => exact leads.keepsOwners_data fun _ => ⟨rfl, by simp⟩
  | setDictionaryValue id n v => exact setDictionaryValue_keepsOwners ob v
  | normalize id => exact normalize_keepsOwners ob id
  | delete id n => exact delete_keepsOwners ob id n
  | setInterceptor id vs => exact setInterceptor_keepsOwners ob vs
  | setCallHandler id f => exact leads.keepsOwners_data fun _ => ⟨rfl, rfl⟩
  | setGlobal n v a => exact leads.keepsOwners_data fun _ => ⟨rfl, rfl⟩
  | setContext id v => exact leads.keepsOwners_data fun o => by split <;> exact ⟨rfl, rfl⟩
  | setCode id code => exact leads.keepsOwners_data fun o => by split <;> exact ⟨rfl, rfl⟩
  | modifyShared s f => exact leads.keepsOwners_of_eq ob rfl rfl rfl
  | elementsShape s k => exact ⟨leads, fun ⟨_, w⟩ => ⟨_, (w.widen ob allowed.1 leads).1⟩⟩
  | generalizeElements id k => exact generalizeElements_keepsOwners ob id k
  | setArrayLength id v => exact c.runExcept ob fun _ e => storeArrayLength_keepsOwners ob e
  | scopes n => exact leads.keepsOwners_of_eq ob rfl rfl rfl
  | setElement r i v => exact c.setElement ob (storeElement_keepsOwners ob) r
  | store r n v strict => exact c.setPropertyWith c.callNothing ob r n v strict

theorem elementClosed_keepsOwners (rules : Rules) : ElementClosed rules (KeepsOwners rules) where
  toCallClosed := (storeClosed_keepsOwners rules).callClosed
    (fun f r args ob => (noteCall_leads ob f r args).keepsOwners_of_eq ob rfl rfl rfl)
    fun op ob allowed => operation_keepsOwners ob op allowed
  element ob e := storeElement_keepsOwners ob e

/-! ### The initial heap -/

/-- The first shapes have owners. -/
theorem hasOwners_roots : roots.HasOwners := by
  have transition {s t : ShapeId} {n : Name} (e : (roots.shape s).transitions.get? n = some t) : False := by
    obtain ⟨i⟩ := s
    have hi : i < 11 := index_lt_of_transition e
    interval_cases i <;> cases e
  refine ⟨fun _ => none, ?_⟩
  exact {
    root := fun _ => rfl
    initial := fun _ => rfl
    transition := fun e => (transition e).elim
    elementsTransition := fun e => (no_elementsTransition_roots e).elim
    object := fun ho => ⟨nofun, fun _ => ((wellFormed_roots { freshNames := true }).object ho).fields rfl⟩
    left := fun e => (transition e).elim }

theorem installStringMethod_keepsOwners (ob : h.Obeys rules) {name : Name} {host : HostFunction}
    (m : MayAdd rules (newHostFunction name.text 1 host h).2 stringPrototype name)
    (method : StringMethod) : KeepsOwners rules h (installStringMethod name host method h).2 := by
  have a := newHostFunction_keepsOwners ob name.text 1 host
  unfold installStringMethod
  refine Computation.bind_rel KeepsOwners.trans a fun id _ => ?_
  simp only [Computation.modify_bind, Computation.modify_apply]
  generalize (newHostFunction name.text 1 host h).2 = h' at a m ⊢
  cases h'.functionData? (.object id) with
  | none => exact addConstant_keepsOwners a.obeys m _ _
  | some d =>
    have b := (modifyShared_leads a.obeys d.shared fun s => { s with method := some method })
    have b := b.keepsOwners_of_eq a.obeys rfl rfl rfl
    exact b.trans (addConstant_keepsOwners b.obeys ⟨m.fresh, m.array⟩ _ _)

/-- Another host owns nothing. -/
theorem HasOwners.rehost (w : h.HasOwners) (ob : h.Obeys rules) (host : Host) :
    HasOwners { h with host } := by
  obtain ⟨owner, w⟩ := w
  exact ⟨owner, w.of_same ob (.of_eq rfl rfl) rfl rfl fun _ => ⟨rfl, rfl⟩⟩

/-- The heap that every program starts with has owners. -/
theorem hasOwners_initial (host : Host) : HasOwners { Heap.initial with host } := by
  have a : KeepsOwners {} Heap.roots (installStringMethod .charAt .charAt .charAt Heap.roots).2 :=
    installStringMethod_keepsOwners ⟨wellFormed_roots {}, Host.idle_does {} _⟩ ⟨nofun, nofun⟩ .charAt
  suffices b : KeepsOwners {} Heap.roots Heap.initial from
    (b.owners hasOwners_roots).rehost b.obeys host
  exact Computation.bind_rel KeepsOwners.trans a fun _ _ =>
    installStringMethod_keepsOwners a.obeys ⟨nofun, nofun⟩ .charCodeAt

end Heap

end Speculation
