import Speculation.Proofs.Heap.Operations

/-!
# Heaps that only gain objects

Boxing a number and making an arguments object change nothing that was there before: `h.Extends h'` says
that every cell of `h` is in `h'` as it was, and `Gains` that the heap is well formed and has grown, too.
So what a new object is right after it was made it still is later (`IsArgumentsOf.gains`).
-/

namespace Speculation

namespace Heap

variable {rules : Rules} {g h k : Heap} {id : ObjectId} {callee : Value} {values : List Value}

/-- Every cell of `g` is in `h` as it was. -/
structure Extends (g h : Heap) : Prop where
  cell : ∀ {id : ObjectId} {c : Cell}, g.cell? id = some c → h.cell? id = some c

namespace Extends

theorem refl (h : Heap) : h.Extends h := ⟨id⟩

theorem trans (a : g.Extends h) (b : h.Extends k) : g.Extends k := ⟨fun hc => b.cell (a.cell hc)⟩

theorem push (g : Heap) (c : Cell) : g.Extends { g with cells := g.cells.push c } := ⟨cell?_push⟩

theorem object (a : g.Extends h) {o : JsObject} (ho : g.object? id = some o) :
    h.object? id = some o :=
  object?_eq_some.mpr (a.cell (object?_eq_some.mp ho))

/-- What is in `h` was in `g`, or is new. -/
theorem cell_or (a : g.Extends h) {c : Cell} (hc : h.cell? id = some c) :
    g.cell? id = some c ∨ g.cells.size ≤ id.index := by
  by_cases inside : id.index < g.cells.size
  · have old : g.cell? id = some g.cells[id.index] := Array.getElem?_eq_getElem inside
    rw [a.cell old] at hc
    exact .inl (hc ▸ old)
  · exact .inr (Nat.le_of_not_lt inside)

end Extends

/-- A well-formed heap that has grown by new objects only. -/
structure Gains (rules : Rules) (g h : Heap) : Prop extends Leads rules g h, Extends g h

namespace Gains

theorem refl (valid : h.Obeys rules) : Gains rules h h := ⟨valid.leads, .refl h⟩

theorem trans (a : Gains rules g h) (b : Gains rules h k) : Gains rules g k :=
  ⟨a.toLeads.trans b.toLeads, a.toExtends.trans b.toExtends⟩

end Gains

theorem allocate_extends (c : Cell) (g : Heap) : g.Extends (allocate c g).2 := by
  simp only [allocate, Computation.get_bind]
  split
  · exact .push g c
  · exact .refl g

/-- A new number only adds to the heap. -/
theorem newNumber_gains (valid : g.Obeys rules) (d : Double) : Gains rules g (newNumber d g).2 := by
  refine ⟨newNumber_leads valid d, ?_⟩
  unfold newNumber
  cases smiOfNumber? d with
  | some v => exact .refl g
  | none => exact Computation.bind_rel Extends.trans (allocate_extends ..) fun _ _ => .refl _

/-- Boxes are no objects with properties. -/
theorem object?_newNumber {d : Double} {o : JsObject}
    (ho : (newNumber d g).2.object? id = some o) : g.object? id = some o := by
  unfold newNumber at ho
  cases hs : smiOfNumber? d with
  | some v => rwa [hs] at ho
  | none =>
    have cells : (boxNumber d g).2 = (allocate (.number d) g).2 := by
      rw [boxNumber, Computation.bind_apply]
      rcases allocate (.number d) g with ⟨_ | _, _⟩ <;> rfl
    rw [hs, cells] at ho
    simp only [allocate, Computation.get_bind] at ho
    split at ho
    · have hc := object?_eq_some.mp ho
      refine object?_eq_some.mpr (((Extends.push g (.number d)).cell_or hc).resolve_right fun beyond => ?_)
      have last : id.index = g.cells.size := by
        have inside := (Array.getElem?_eq_some_iff.mp hc).1
        simp at inside
        omega
      simp [cell?, last] at hc
    · exact ho

/-! ### New arguments objects -/

/-- The arguments object of a function, with these elements and an own property `length` that counts
them. -/
structure IsArgumentsOf (h : Heap) (id : ObjectId) (callee : Value) (values : List Value) : Prop where
  object : ∃ o, h.object? id = some o ∧ o.objectClass = .arguments callee false ∧
    o.elements = values.toArray
  length : ∃ i, h.own id .length = .property id (.field i) { dontEnum := true } ∧
    h.fieldValue id i = .smi values.length

/-- An arguments object stays what it is while the heap gains objects. -/
theorem IsArgumentsOf.gains (a : g.IsArgumentsOf id callee values) (valid : g.Obeys rules)
    (more : Gains rules g h) : h.IsArgumentsOf id callee values := by
  obtain ⟨o, ho, hc, elements⟩ := a.object
  obtain ⟨i, own, value⟩ := a.length
  have ho' := more.object ho
  have layout := more.grows.derive_shapeOf (valid.object ho).shape_lt
  have interceptor : (h.shapeOf o).hasInterceptor = (g.shapeOf o).hasInterceptor := by
    simpa using congrArg Shape.hasInterceptor layout
  have real (g : ObjectId) : o.objectClass ≠ .globalProxy g := by rw [hc]; exact nofun
  rw [own_eq (resolveProxy_eq_self ho real) ho] at own
  refine ⟨⟨o, ho', hc, elements⟩, i, ?_, ?_⟩
  · rw [own_eq (resolveProxy_eq_self ho' real) ho', interceptor, Shape.owned?_of_derive layout, own]
  · rw [← value, fieldValue, fieldValue, ho, ho']

/-- A property that is added to an object with fields takes the next field. -/
theorem addProperty_field (obeys : h.Obeys rules) {o : JsObject} (ho : h.object? id = some o)
    {name : Name} {a : Attributes} (plain : (h.shapeOf o).isDictionary = false)
    (admits : (h.shapeOf o).Admits rules ⟨name, .field (h.shapeOf o).fieldCount, a⟩) (v : Value) :
    ∃ t, (h.addProperty id name v a).object? id = some { o with shape := t, fields := o.fields ++ [v] } ∧
      ((h.addProperty id name v a).shape t).derive =
        (h.shapeOf o).extended ⟨name, .field (h.shapeOf o).fieldCount, a⟩ ∧
      (h.addProperty id name v a).cells.size = h.cells.size ∧
      ∀ j, id ≠ j → (h.addProperty id name v a).cell? j = h.cell? j := by
  have found := transitionTarget_spec obeys (obeys.object ho).shape_lt admits
  have added : h.addProperty id name v a =
      (h.transitionTarget o.shape ⟨name, .field (h.shapeOf o).fieldCount, a⟩).2.modifyObject id fun x =>
        { x with shape := (h.transitionTarget o.shape ⟨name, .field (h.shapeOf o).fieldCount, a⟩).1,
                 fields := x.fields ++ [v] } := by
    simp only [addProperty, ho, plain, Bool.false_eq_true, if_false]
  rw [added]
  generalize h.transitionTarget o.shape ⟨name, .field (h.shapeOf o).fieldCount, a⟩ = r at found
  refine ⟨r.1, ?_, ?_, ?_, fun j other => ?_⟩
  · rw [object?_modifyObject_self, found.object?, ho]
    rfl
  · rw [shape_modifyObject, found.layout]
    rfl
  · rw [size_cells_modifyObject, found.cells]
  · rw [cell?_modifyObject_ne other, cell?, found.cells]
    rfl

/-- Arguments objects start without properties. -/
theorem Obeys.argumentsShape_layout (valid : g.Obeys rules) :
    (g.shape argumentsShape).derive = .make .arguments (.object objectPrototype) .packed :=
  valid.roots.layout (s := argumentsShape) (by decide)

theorem Obeys.argumentsShape_descriptors (valid : g.Obeys rules) :
    (g.shape argumentsShape).descriptors = [] :=
  congrArg Shape.descriptors valid.argumentsShape_layout

theorem Obeys.argumentsShape_fieldCount (valid : g.Obeys rules) :
    (g.shape argumentsShape).fieldCount = 0 := by
  rw [Shape.fieldCount, valid.argumentsShape_descriptors]
  rfl

/-- A new arguments object takes the next place. -/
theorem newArguments_new (valid : g.Obeys rules)
    (ok : newArguments callee values false g = (.ok id, h)) :
    id = ⟨g.cells.size⟩ ∧ h.cells.size = g.cells.size + 1 ∧ g.Extends h ∧
      h.IsArgumentsOf id callee values := by
  obtain ⟨_, k, allocated, rest⟩ := Computation.bind_eq_ok ok
  have obeys : k.Obeys rules := by
    have leads := allocateArguments_leads valid callee values false
    rw [allocated] at leads
    exact leads.obeys
  have ho := object?_allocateObject (congrArg Prod.fst allocated)
  rw [allocated, valid.argumentsShape_fieldCount] at ho
  simp only [allocateObject, Computation.get_bind] at allocated
  obtain ⟨rfl, hk⟩ := allocate_eq_ok (congrArg Prod.fst allocated)
  rw [allocated] at hk
  change k = _ at hk
  have grown : g.Extends k := hk ▸ .push g _
  have size : k.cells.size = g.cells.size + 1 := by simp [hk]
  obtain ⟨rfl, added⟩ : id = ⟨g.cells.size⟩ ∧
      h = k.addProperty ⟨g.cells.size⟩ .length (.smi values.length) { dontEnum := true } := by
    cases rest
    exact ⟨rfl, rfl⟩
  -- The new object has the root shape, which describes no property.
  have layout := obeys.argumentsShape_layout
  have empty := obeys.argumentsShape_descriptors
  have plain : (k.shape argumentsShape).isDictionary = false := congrArg Shape.isDictionary layout
  have admits : (k.shape argumentsShape).Admits rules
      ⟨.length, .field (k.shape argumentsShape).fieldCount, { dontEnum := true }⟩ := by
    refine ⟨by simp, by simp [plain], fun i hi => (PropertyKind.field.inj hi).symm, fun _ => ?_,
      fun _ array => ?_⟩
    · rw [Shape.descriptor?, empty]
      rfl
    · cases (congrArg Shape.instanceType layout).symm.trans array
  obtain ⟨t, ho', layout', size', others⟩ :=
    addProperty_field obeys ho plain admits (.smi values.length)
  rw [← added] at ho' layout' size' others
  refine ⟨rfl, size'.trans size, ⟨fun {j c} hc => ?_⟩, ⟨_, ho', rfl, rfl⟩, 0, ?_, ?_⟩
  · rw [others j fun same => ?_]
    · exact grown.cell hc
    · have inside := (Array.getElem?_eq_some_iff.mp hc).1
      rw [← same] at inside
      exact Nat.lt_irrefl _ inside
  · have descriptors := congrArg Shape.descriptors layout'
    rw [Shape.descriptors_extended, shapeOf, empty, obeys.argumentsShape_fieldCount] at descriptors
    have described : (h.shape t).descriptor? .length = some ⟨.length, .field 0, { dontEnum := true }⟩ :=
      congrArg (List.find? _) descriptors
    have interceptor : (h.shape t).hasInterceptor = false :=
      (congrArg Shape.hasInterceptor layout').trans (congrArg Shape.hasInterceptor layout)
    have fast : (h.shape t).isDictionary = false := (congrArg Shape.isDictionary layout').trans plain
    rw [own_eq (resolveProxy_eq_self ho' (by simp)) ho', shapeOf, interceptor,
      Shape.owned?_fast fast, described]
    rfl
  · rw [fieldValue, ho']
    rfl

/-- A new arguments object only adds to the heap. -/
theorem newArguments_gains (valid : g.Obeys rules) (callee : Value) (values : List Value) :
    Gains rules g (newArguments callee values false g).2 := by
  refine ⟨newArguments_leads valid callee values false, ?_⟩
  rcases made : newArguments callee values false g with ⟨f | id, h⟩
  · -- Nothing was allocated.
    have failed : h = (allocateObject argumentsShape (.arguments callee false) values.toArray g).2 := by
      rw [newArguments, Computation.bind_apply] at made
      generalize allocateObject argumentsShape (.arguments callee false) values.toArray g = r at made
      obtain ⟨f | id, k⟩ := r
      · cases made
        rfl
      · cases made
    rw [failed]
    exact allocate_extends ..
  · exact (newArguments_new valid made).2.2.1

/-- `v` is what `newNumber` makes of `d` at some point between two heaps. -/
def Makes (g h : Heap) (d : Double) (v : Value) : Prop :=
  ∃ g' h', g.Extends g' ∧ newNumber d g' = (.ok v, h') ∧ h'.Extends h

theorem Makes.mono {g' : Heap} {d : Double} {v : Value} (m : g'.Makes h d v) (before : g.Extends g')
    (after : h.Extends k) : g.Makes k d v := by
  obtain ⟨g₁, h₁, ext, made, ext'⟩ := m
  exact ⟨g₁, h₁, before.trans ext, made, ext'.trans after⟩

end Heap

end Speculation
