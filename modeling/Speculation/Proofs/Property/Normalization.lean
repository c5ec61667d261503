import Speculation.Proofs.Property.Twins

/-!
# Going to dictionary mode

An object goes to dictionary mode by moving its data properties into its dictionary, while its accessors stay
in its shape. Nothing that a program can ask depends on this (`normalization_keeps_meaning`): the heap
before and the heap after mirror each other, and every object fits its shape in both, so that they are twins.
-/

namespace Speculation

namespace Heap

variable {rules : Rules} {h h' : Heap} {id : ObjectId} {o : JsObject} {name : Name}

/-! ### The heap afterwards -/

/-- Shapes stay, only a new one is added. -/
theorem shape_normalize {s : ShapeId} (hs : s.index < h.shapes.size) (id : ObjectId) :
    (h.normalize id).shape s = h.shape s := by
  unfold normalize
  split
  · rfl
  · dsimp only
    split
    · rfl
    · exact shape_addShape_of_lt hs

theorem shared_normalize (h : Heap) (id : ObjectId) : (h.normalize id).shared = h.shared := by
  unfold normalize
  split
  · rfl
  · dsimp only
    split <;> rfl

theorem noAllocation_normalize (h : Heap) (id : ObjectId) :
    (h.normalize id).noAllocation = h.noAllocation := by
  unfold normalize
  split
  · rfl
  · dsimp only
    split <;> rfl

/-- What is in dictionary mode stays as it is. -/
theorem normalize_of_isDictionary (ho : h.object? id = some o) (mode : (h.shapeOf o).isDictionary) :
    h.normalize id = h := by
  unfold normalize
  simp only [ho, mode, if_true]

/-! ### What it means -/

section Target

variable (ob : h.Obeys rules) (ho : h.object? id = some o) (fit : (h.propertiesOf o).Fit)

include ob ho fit

/-- The object goes to dictionary mode, where it owns what it owned and fits its new shape. -/
theorem normalize_object : ∃ o', (h.normalize id).object? id = some o' ∧
    ((h.normalize id).shapeOf o').isDictionary ∧ ((h.normalize id).propertiesOf o').Fit ∧
    ∀ n, ((h.normalize id).propertiesOf o').get? n = (h.propertiesOf o).get? n := by
  obtain ⟨s, ho', layout⟩ := (normalize_relaid ob ho).object
  refine ⟨_, ho', ?_, fit.normalized.of_derive layout, fun n => ?_⟩
  · have mode : ((h.normalize id).shape s).isDictionary =
        (h.propertiesOf o).normalized.shape.isDictionary := by
      simpa using congrArg Shape.isDictionary layout
    rw [shapeOf, mode]
    exact Properties.isDictionary_normalized (h.propertiesOf o)
  · exact (Properties.get?_of_derive layout n).trans
      (fit.get?_normalized (ob.shape (ob.object ho).shape_lt).stored n)

theorem normalize_mirrors : h.Mirrors (h.normalize id) := by
  have laid := normalize_relaid ob ho
  refine ⟨laid.size, fun {j} hj => laid.cell j ?_,
    laid.unmoved ho ob (resembles_normalized (h.propertiesOf o)), fun j n => ?_⟩
  · rintro rfl
    rw [ho] at hj
    cases hj
  · rw [laid.ownProperty? ho ob (normalize_leads ob id).obeys, ob.ownProperty?_eq,
      fit.get?_normalized (ob.shape (ob.object ho).shape_lt).stored]
    split
    · rename_i hj
      rw [hj, ho, Option.bind_some]
    · rfl

end Target

/-- Where every object fits its shape, the heap afterwards is a twin of the heap before. -/
theorem normalize_twins (ob : h.Obeys rules) (ho : h.object? id = some o)
    (fit : ∀ {id o}, h.object? id = some o → (h.propertiesOf o).Fit) :
    Twins rules h (h.normalize id) where
  toMirrors := normalize_mirrors ob ho (fit ho)
  obeys := ob
  obeys' := (normalize_leads ob id).obeys
  fit := fit
  fit' {j x} hx := by
    by_cases hj : j = id
    · subst hj
      obtain ⟨o', ho', -, fit', -⟩ := normalize_object ob ho (fit ho)
      obtain rfl := Option.some.inj (hx.symm.trans ho')
      exact fit'
    · have laid := normalize_relaid ob ho
      rw [laid.object?_ne hj] at hx
      exact (fit hx).of_derive (laid.layout x.shape (ob.object hx).shape_lt)
  shared := shared_normalize h id
  noAllocation := noAllocation_normalize h id
  host := host_of_outside (h.outside_normalize id)

end Heap

/-- **Going to dictionary mode changes no meaning.** In every reachable heap where all objects fit their
shapes, let an object go to dictionary mode. It owns the same values and accessors under the same names,
with the same attributes; its class, elements, elements kind and prototype are what they were. No other cell
and no shape is different. What any reference stands for owns the same. A load of any property from any
receiver calls the same getter in both heaps, if it calls one. If it calls none, or one that does not care
where objects keep their properties, the load ends alike: with the same result, in a heap that again
differs at most in that. To go to dictionary mode again changes nothing. -/
theorem normalization_keeps_meaning {rules : Rules} {s : Session} (reachable : s.Reachable rules)
    (fit : ∀ {id o}, s.engine.heap.object? id = some o → (s.engine.heap.propertiesOf o).Fit)
    {id : ObjectId} {o : JsObject} (ho : s.engine.heap.object? id = some o) :
    let h := s.engine.heap
    let h' := h.normalize id
    (∃ o', h'.object? id = some o' ∧ (h'.shapeOf o').isDictionary ∧ Heap.Unmoved h o h' o' ∧
      ∀ n, (h'.propertiesOf o').get? n = (h.propertiesOf o).get? n) ∧
    (∀ j ≠ id, h'.cell? j = h.cell? j) ∧
    (∀ t : ShapeId, t.index < h.shapes.size → h'.shape t = h.shape t) ∧
    (∀ j n, h'.ownProperty? j n = h.ownProperty? j n) ∧
    (∀ receiver n, h'.propertyGetter? receiver n = h.propertyGetter? receiver n ∧
      (∀ getter, h.propertyGetter? receiver n = some getter →
        Heap.getProperty receiver n h = Heap.call getter receiver [] h ∧
        Heap.getProperty receiver n h' = Heap.call getter receiver [] h') ∧
      (h.propertyGetter? receiver n = none ∨ h.host.Indifferent rules →
        Heap.EndsAlike (Heap.getProperty receiver n h) (Heap.getProperty receiver n h'))) ∧
    h'.normalize id = h' := by
  intro h h'
  have ob : h.Obeys rules := reachable.sound.engine.heap
  -- The two heaps are twins: they differ in how the one object is laid out, and no read can
  -- tell.
  have twins : Heap.Twins rules h h' := Heap.normalize_twins ob ho fit
  obtain ⟨o', ho', mode, -, same⟩ := Heap.normalize_object ob ho (fit ho)
  refine ⟨⟨o', ho', mode, ?_, same⟩, (Heap.normalize_relaid ob ho).cell,
    fun t ht => Heap.shape_normalize ht id, twins.property, fun receiver n =>
      ⟨twins.propertyGetter? receiver n, fun getter hg => ?_, fun alike => ?_⟩,
    Heap.normalize_of_isDictionary ho' mode⟩
  · obtain ⟨x, hx, unmoved⟩ := twins.object ho
    rwa [Option.some.inj (ho'.symm.trans hx)]
  · refine ⟨Heap.getProperty_getter hg, Heap.getProperty_getter ?_⟩
    rw [twins.propertyGetter?, hg]
  · refine twins.getProperty receiver n fun getter hg => alike.resolve_left ?_
    rw [hg]
    exact Option.some_ne_none getter

/-- A prototype with a field, a constant and an accessor. -/
theorem normalization_keeps_meaning_prototype :
    let session := (Session.ofConfig {} { host := .answering (.smi 8) }).run [
      .onHeap .object,
      .onHeap (.hostFunction "f" 0 (.provided 0)),
      .onHeap (.addConstant ⟨10⟩ ⟨"k"⟩ (.smi 1) { readOnly := true }),
      .onHeap (.addAccessor ⟨10⟩ ⟨"g"⟩ (.object ⟨12⟩) .undefined),
      .access (.setProperty (.object ⟨10⟩) ⟨"x"⟩ (.smi 2) false),
      .onHeap (.objectWithPrototype (.object ⟨10⟩))]
    let h := session.engine.heap
    let h' := h.normalize ⟨10⟩
    h'.ownProperty? ⟨10⟩ ⟨"k"⟩ = some ⟨.data (.smi 1), { readOnly := true }⟩ ∧
    (Heap.getProperty (.object ⟨13⟩) ⟨"x"⟩ h').1 = .ok (.smi 2) ∧
    Heap.getProperty (.object ⟨13⟩) ⟨"g"⟩ h' = Heap.call (.object ⟨12⟩) (.object ⟨13⟩) [] h' ∧
    (Heap.getProperty (.object ⟨13⟩) ⟨"g"⟩ h').1 = .ok (.smi 8) ∧
    h'.normalize ⟨10⟩ = h' := by
  intro session h h'
  let around : Surroundings := { host := .answering (.smi 8) }
  let created := (Session.ofConfig {} around).run
    [.onHeap .object, .onHeap (.hostFunction "f" 0 (.provided 0))]
  let given := created.perform (.onHeap (.addConstant ⟨10⟩ ⟨"k"⟩ (.smi 1) { readOnly := true }))
  -- Each property added is new to the object at that time.
  have fresh : ∀ o ∈ created.engine.heap.object? ⟨10⟩,
      (created.engine.heap.shapeOf o).descriptor? ⟨"k"⟩ = none := by decide +kernel
  have fresh' : ∀ o ∈ given.engine.heap.object? ⟨10⟩,
      (given.engine.heap.shapeOf o).descriptor? ⟨"g"⟩ = none := by decide +kernel
  have lawful : around.host.Lawful { freshNames := true } := Host.answering_does _ _ _
  have allowed : (Session.ofConfig {} around).AllowedRun { freshNames := true } [
      .onHeap .object,
      .onHeap (.hostFunction "f" 0 (.provided 0)),
      .onHeap (.addConstant ⟨10⟩ ⟨"k"⟩ (.smi 1) { readOnly := true }),
      .onHeap (.addAccessor ⟨10⟩ ⟨"g"⟩ (.object ⟨12⟩) .undefined),
      .access (.setProperty (.object ⟨10⟩) ⟨"x"⟩ (.smi 2) false),
      .onHeap (.objectWithPrototype (.object ⟨10⟩))] :=
    ⟨trivial, trivial, ⟨fun _ o ho _ => fresh o ho, fun r => by cases r⟩, fun _ => fresh', trivial,
      ⟨fun {p} e => by cases e; decide +kernel, fun r => by cases r⟩, trivial⟩
  have reachable : session.Reachable { freshNames := true } := .run (.start {} around lawful) allowed
  have same : session.engine.heap.host = .answering (.smi 8) := Session.host_run rfl lawful allowed
  have alike : session.engine.heap.host.Indifferent { freshNames := true } :=
    same ▸ Host.answering_indifferent _ _
  obtain ⟨o, ho⟩ : ∃ o, h.object? ⟨10⟩ = some o := ⟨_, rfl⟩
  obtain ⟨-, -, -, own, load, again⟩ := normalization_keeps_meaning reachable
    (fun ho => reachable.sound.engine.heap.fit rfl ho) ho
  have value : (Heap.getProperty (.object ⟨13⟩) ⟨"x"⟩ h).1.toOption = some (.smi 2) := by
    decide +kernel
  have called : (Heap.getProperty (.object ⟨13⟩) ⟨"g"⟩ h).1.toOption = some (.smi 8) := by
    decide +kernel
  have getter : h.propertyGetter? (.object ⟨13⟩) ⟨"g"⟩ = some (.object ⟨12⟩) := by decide +kernel
  refine ⟨?_, ?_, ((load _ _).2.1 _ getter).2, ?_, again⟩
  · rw [own]
    decide +kernel
  · rw [((load _ _).2.2 (.inr alike)).result]
    exact Computation.except_eq_ok_of_toOption value
  · rw [((load _ _).2.2 (.inr alike)).result]
    exact Computation.except_eq_ok_of_toOption called

end Speculation
