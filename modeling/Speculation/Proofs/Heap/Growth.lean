import Speculation.Heap.Lookup
import Speculation.Heap.Property

/-!
# How heaps grow

Objects move from shape to shape and shapes gain transitions, but a heap never takes anything
back that a cache relies on. `h.Grows h'` says what stays between a heap and a later one:

* a shape keeps its **layout** (everything but its transitions and its stubs), and the
  transitions it has; new elements transitions lead to new shapes;
* numbers and strings stay as they are;
* an object keeps its class, the prototype and the type of its shape, its elements kind only gets
  more general, and once it is in dictionary mode it stays there.

Prototype chains are therefore fixed when an object is created. The first part of this module says
what the primitive changes of the heap do to its cells and shapes.
-/

namespace Speculation

/-- The class of an object without what may change: the code and the context of a function. -/
def ObjectClass.fixed : ObjectClass → ObjectClass
  | .function d => .function { d with code := none, context := .undefined }
  | c => c

/-- The type that the shapes of objects of a class have. -/
def ObjectClass.instanceType : ObjectClass → InstanceType
  | .plain => .object
  | .array => .array
  | .function _ => .function
  | .stringWrapper _ => .stringWrapper
  | .global => .globalObject
  | .globalProxy _ => .globalProxy
  | .arguments _ _ => .arguments

theorem ObjectClass.instanceType_fixed (c : ObjectClass) : c.fixed.instanceType = c.instanceType := by
  cases c <;> rfl

/-- Only arrays have the type of arrays. -/
theorem ObjectClass.instanceType_eq_array {c : ObjectClass} :
    c.instanceType = .array ↔ c = .array := by
  cases c <;> simp [instanceType]

namespace Heap

variable {h h' : Heap} {id : ObjectId} {s : ShapeId}

/-! ### Cells after a change -/

theorem object?_eq_some {o : JsObject} : h.object? id = some o ↔ h.cell? id = some (.object o) := by
  unfold object?
  split <;> simp_all

theorem index_lt_of_object? {o : JsObject} (ho : h.object? id = some o) :
    id.index < h.cells.size := by
  have := object?_eq_some.1 ho
  exact (Array.getElem?_eq_some_iff.1 this).1

/-- A new cell comes behind all others. -/
theorem cell?_push {c c' : Cell} (hc : h.cell? id = some c) :
    cell? { h with cells := h.cells.push c' } id = some c := by
  obtain ⟨inside, -⟩ := Array.getElem?_eq_some_iff.1 hc
  exact (Array.getElem?_push_lt inside).trans (Array.getElem?_eq_getElem inside ▸ hc)

theorem cell?_modifyObject_ne {j : ObjectId} {f : JsObject → JsObject} (hj : id ≠ j) :
    (h.modifyObject id f).cell? j = h.cell? j := by
  have : id.index ≠ j.index := fun e => hj (by cases id; cases j; simp_all)
  simp [modifyObject, cell?, Array.getElem?_modify, this]

theorem object?_modifyObject_ne {j : ObjectId} {f : JsObject → JsObject} (hj : id ≠ j) :
    (h.modifyObject id f).object? j = h.object? j := by
  simp [object?, cell?_modifyObject_ne hj]

@[simp] theorem object?_modifyObject_self {f : JsObject → JsObject} :
    (h.modifyObject id f).object? id = (h.object? id).map f := by
  unfold object? cell? modifyObject
  simp only [Array.getElem?_modify, ite_true]
  rcases h.cells[id.index]? with _ | ⟨_ | _ | _⟩ <;> rfl

theorem object?_modifyObject (j : ObjectId) (f : JsObject → JsObject) :
    (h.modifyObject id f).object? j = if id = j then (h.object? j).map f else h.object? j := by
  by_cases hj : id = j
  · subst hj
    simp
  · simp [object?_modifyObject_ne hj, hj]

@[simp] theorem size_cells_modifyObject {f : JsObject → JsObject} :
    (h.modifyObject id f).cells.size = h.cells.size := by
  simp [modifyObject]

@[simp] theorem shapes_modifyObject {f : JsObject → JsObject} :
    (h.modifyObject id f).shapes = h.shapes := rfl

@[simp] theorem shape_modifyObject {f : JsObject → JsObject} :
    (h.modifyObject id f).shape s = h.shape s := rfl

@[simp] theorem shapeOf_modifyObject {f : JsObject → JsObject} (o : JsObject) :
    (h.modifyObject id f).shapeOf o = h.shapeOf o := rfl

/-- Only the object that is there matters to a change. -/
theorem modifyObject_congr {f g : JsObject → JsObject}
    (e : ∀ o, h.object? id = some o → f o = g o) : h.modifyObject id f = h.modifyObject id g := by
  unfold modifyObject
  congr 2
  apply Array.ext_getElem?
  intro i
  rw [Array.getElem?_modify, Array.getElem?_modify]
  split
  · rename_i hi
    subst hi
    rcases hc : h.cells[id.index]? with _ | ⟨_ | _ | o⟩
    · rfl
    · rfl
    · rfl
    have ho : h.object? id = some o := by simp [object?, cell?, hc]
    simp [e o ho]
  · rfl

/-- A change of an object that is not there changes nothing. -/
theorem modifyObject_of_none {f : JsObject → JsObject} (ho : h.object? id = none) :
    h.modifyObject id f = h := by
  unfold modifyObject
  congr 2
  apply Array.ext_getElem?
  intro i
  rw [Array.getElem?_modify]
  split
  · rename_i e
    subst e
    unfold object? cell? at ho
    rcases hc : h.cells[id.index]? with _ | ⟨_ | _ | _⟩ <;> simp_all
  · rfl

/-! ### Shapes after a change -/

@[simp] theorem addShape_fst (t : Shape) : (h.addShape t).1 = ⟨h.shapes.size⟩ := rfl

@[simp] theorem cells_addShape (t : Shape) : (h.addShape t).2.cells = h.cells := rfl

@[simp] theorem size_shapes_addShape (t : Shape) :
    (h.addShape t).2.shapes.size = h.shapes.size + 1 := by
  simp [addShape]

/-- A new shape comes behind all others. -/
theorem shape_addShape_of_lt {t : Shape} (hs : s.index < h.shapes.size) :
    (h.addShape t).2.shape s = h.shape s := by
  simp [addShape, shape, Array.getElem?_push, Nat.ne_of_lt hs]

@[simp] theorem shape_addShape_new (t : Shape) :
    (h.addShape t).2.shape ⟨h.shapes.size⟩ = t := by
  simp [addShape, shape]

/-- Beyond the table there are no shapes. -/
theorem shape_eq_default (hs : h.shapes.size ≤ s.index) : h.shape s = default := by
  simp [shape, hs]

@[simp] theorem cells_modifyShape {f : Shape → Shape} : (h.modifyShape s f).cells = h.cells := rfl

@[simp] theorem size_shapes_modifyShape {f : Shape → Shape} :
    (h.modifyShape s f).shapes.size = h.shapes.size := by
  simp [modifyShape]

theorem shape_modifyShape_ne {t : ShapeId} {f : Shape → Shape} (ht : s ≠ t) :
    (h.modifyShape s f).shape t = h.shape t := by
  have : s.index ≠ t.index := fun e => ht (by cases s; cases t; simp_all)
  simp [modifyShape, shape, Array.getElem?_modify, this]

theorem shape_modifyShape_self {f : Shape → Shape} (hs : s.index < h.shapes.size) :
    (h.modifyShape s f).shape s = f (h.shape s) := by
  simp [modifyShape, shape, Array.getElem_modify, hs]

@[simp] theorem cell?_modifyShape {f : Shape → Shape} :
    (h.modifyShape s f).cell? id = h.cell? id := rfl

end Heap

/-! ### Layouts -/

namespace Shape

variable (t : Shape)

@[simp] theorem instanceType_derive : t.derive.instanceType = t.instanceType := rfl

@[simp] theorem prototype_derive : t.derive.prototype = t.prototype := rfl

@[simp] theorem elementsKind_derive : t.derive.elementsKind = t.elementsKind := rfl

@[simp] theorem isDictionary_derive : t.derive.isDictionary = t.isDictionary := rfl

@[simp] theorem hasInterceptor_derive : t.derive.hasInterceptor = t.hasInterceptor := rfl

@[simp] theorem descriptors_derive : t.derive.descriptors = t.descriptors := rfl

@[simp] theorem derive_derive : t.derive.derive = t.derive := rfl

end Shape

/-! ### Growth -/

/-- What stays when an object moves from one shape to another. -/
structure Shape.Precedes (t t' : Shape) : Prop where
  instanceType : t'.instanceType = t.instanceType
  prototype : t'.prototype = t.prototype
  dictionary : t.isDictionary → t'.isDictionary
  elements : t.elementsKind.le t'.elementsKind

theorem Shape.Precedes.refl (t : Shape) : t.Precedes t := ⟨rfl, rfl, id, ElementsKind.le_refl _⟩

theorem Shape.Precedes.trans {t u v : Shape} (a : t.Precedes u) (b : u.Precedes v) :
    t.Precedes v :=
  ⟨b.instanceType.trans a.instanceType, b.prototype.trans a.prototype,
    fun d => b.dictionary (a.dictionary d), ElementsKind.le_trans a.elements b.elements⟩

/-- Shapes of one layout precede each other. -/
theorem Shape.Precedes.of_derive {t t' : Shape} (e : t'.derive = t.derive) : t.Precedes t' where
  instanceType := by simpa using congrArg Shape.instanceType e
  prototype := by simpa using congrArg Shape.prototype e
  dictionary := fun d => by simpa [d] using congrArg Shape.isDictionary e
  elements := by
    have k : t'.elementsKind = t.elementsKind := by simpa using congrArg Shape.elementsKind e
    rw [k]
    exact ElementsKind.le_refl _

namespace Heap

/-- A heap and a later one. -/
structure Grows (h h' : Heap) : Prop where
  cells : h.cells.size ≤ h'.cells.size
  shapes : h.shapes.size ≤ h'.shapes.size
  layout : ∀ {s : ShapeId}, s.index < h.shapes.size → (h'.shape s).derive = (h.shape s).derive
  transition : ∀ {s : ShapeId} {n : Name} {t : ShapeId},
    (h.shape s).transitions.get? n = some t → (h'.shape s).transitions.get? n = some t
  elementsTransition : ∀ {s : ShapeId} {k : ElementsKind} {t : ShapeId},
    (h.shape s).elementsTransitions.get? k = some t →
      (h'.shape s).elementsTransitions.get? k = some t
  introduced : ∀ {s : ShapeId} {k : ElementsKind} {t : ShapeId},
    (h'.shape s).elementsTransitions.get? k = some t →
      (h.shape s).elementsTransitions.get? k = some t ∨ h.shapes.size ≤ t.index
  primitive : ∀ {id : ObjectId} {c : Cell}, h.cell? id = some c → (∀ o, c ≠ .object o) →
    h'.cell? id = some c
  object : ∀ {id : ObjectId} {o : JsObject}, h.object? id = some o →
    ∃ o', h'.object? id = some o' ∧ o'.objectClass.fixed = o.objectClass.fixed ∧
      (h.shapeOf o).Precedes (h'.shapeOf o')

namespace Grows

variable {h h' h'' : Heap}

theorem refl (h : Heap) : h.Grows h where
  cells := Nat.le_refl _
  shapes := Nat.le_refl _
  layout _ := rfl
  transition e := e
  elementsTransition e := e
  introduced e := .inl e
  primitive e _ := e
  object e := ⟨_, e, rfl, .refl _⟩

theorem trans (a : h.Grows h') (b : h'.Grows h'') : h.Grows h'' where
  cells := Nat.le_trans a.cells b.cells
  shapes := Nat.le_trans a.shapes b.shapes
  layout hs := (b.layout (Nat.lt_of_lt_of_le hs a.shapes)).trans (a.layout hs)
  transition e := b.transition (a.transition e)
  elementsTransition e := b.elementsTransition (a.elementsTransition e)
  introduced e := by
    rcases b.introduced e with e | hle
    · exact a.introduced e
    · exact .inr (Nat.le_trans a.shapes hle)
  primitive e hc := b.primitive (a.primitive e hc) hc
  object e := by
    obtain ⟨o', ho', hc', hp'⟩ := a.object e
    obtain ⟨o'', ho'', hc'', hp''⟩ := b.object ho'
    exact ⟨o'', ho'', hc''.trans hc', hp'.trans hp''⟩

/-- Heaps with the same cells and shapes. -/
theorem of_eq (hc : h'.cells = h.cells) (hs : h'.shapes = h.shapes) : h.Grows h' := by
  have shape : ∀ s, h'.shape s = h.shape s := fun s => by simp [Heap.shape, hs]
  have cell : ∀ id, h'.cell? id = h.cell? id := fun id => by simp [cell?, hc]
  refine ⟨Nat.le_of_eq (by rw [hc]), Nat.le_of_eq (by rw [hs]), fun _ => by rw [shape], fun e => ?_,
    fun e => ?_, fun e => .inl ?_, fun e _ => by rwa [cell], fun {id o} e => ⟨o, ?_, rfl, ?_⟩⟩
  · rwa [shape]
  · rwa [shape]
  · rwa [← shape]
  · simpa [object?, cell] using e
  · simpa [shapeOf, shape] using Shape.Precedes.refl _

end Grows

/-- What a heap has besides its memory. -/
def outside (h : Heap) : Host × List Invocation := (h.host, h.invocations)

theorem host_of_outside {h h' : Heap} (e : h'.outside = h.outside) : h'.host = h.host :=
  congrArg Prod.fst e

theorem log_of_outside {h h' : Heap} (e : h'.outside = h.outside) :
    h'.invocations = h.invocations :=
  congrArg Prod.snd e

end Heap

end Speculation
