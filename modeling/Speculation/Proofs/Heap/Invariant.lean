import Mathlib.Tactic.ByContra
import Speculation.Proofs.Heap.Growth
import Speculation.Proofs.Heap.Programs

/-!
# Well-formed heaps

`h.WellFormed rules` is the invariant of heaps: shapes and objects agree in type, a prototype lies
at a lower place than the objects that have it, transitions lead to the layouts they stand for, the
global object is the one object of its class and in dictionary mode.

A program may ask for an elements transition to any kind, also to a narrower one, but no object
ever follows such a transition: `h.Widened t` says that only widening ones lead to the shape `t`,
and the shapes that objects have, or can get by another kind of transition, are all of this sort.

The facts that `Rules` name are asked of the operations that could break them, not of the heap, and
each rule only buys the part of the invariant that names it.

The invariant can only last if the functions of the host keep to the rules too. `Host.Lawful rules`
says that what they do to a well-formed heap is a sequence of allowed operations, and `h.Obeys rules`
that the heap is well formed and its host lawful. `WellFormed.step` reduces the invariant of a grown
heap to what is new in it.
-/

namespace Speculation

/-- Every elements transition that leads to the shape `t` starts from a less general kind. -/
def Heap.Widened (h : Heap) (t : ShapeId) : Prop :=
  ∀ (s : ShapeId) (k : ElementsKind), (h.shape s).elementsTransitions.get? k = some t →
    (h.shape s).elementsKind.le k

/-- The shape `target` has the layout of `t` with a descriptor of the name `n` more; a field takes
the next index. -/
def Shape.Appends (t : Shape) (h : Heap) (n : Name) (target : ShapeId) : Prop :=
  target.index < h.shapes.size ∧ h.Widened target ∧ ∃ d : Descriptor, d.name = n ∧
    (∀ i, d.kind = .field i → i = t.fieldCount) ∧
    (h.shape target).derive = { t.derive with descriptors := t.descriptors ++ [d] }

/-- The shape `target` has the layout of `t` with another elements kind. -/
def Shape.Generalizes (t : Shape) (h : Heap) (k : ElementsKind) (target : ShapeId) : Prop :=
  target.index < h.shapes.size ∧ (h.shape target).derive = { t.derive with elementsKind := k } ∧
    t.elementsKind ≠ k

/-- The invariant of a shape in a heap. -/
structure Shape.Legal (rules : Rules) (h : Heap) (t : Shape) : Prop where
  prototype_lt : ∀ {p}, t.prototype = .object p → p.index < h.cells.size
  /-- Chains end at null. -/
  prototype_reference : t.prototype = .null ∨ ∃ p, t.prototype = .object p
  /-- Dictionaries hold the data properties. -/
  accessors : t.isDictionary → ∀ d ∈ t.descriptors, d.kind.isAccessor
  stored : ∀ d ∈ t.descriptors, d.kind ≠ .normal
  prototype_object : rules.objectPrototypes → t.prototype = .null ∨ h.isJsObject t.prototype
  names : rules.freshNames → (t.descriptors.map (·.name)).Nodup
  index_lt : rules.freshNames → ∀ d ∈ t.descriptors, ∀ i, d.kind = .field i → i < t.fieldCount
  index_inj : rules.freshNames → ∀ d ∈ t.descriptors, ∀ e ∈ t.descriptors, ∀ i,
    d.kind = .field i → e.kind = .field i → d = e
  array : rules.plainArrays → t.instanceType = .array →
    ∀ d ∈ t.descriptors, d.name = .length → d.kind.isAccessor
  transitions : ∀ {n target}, t.transitions.get? n = some target → t.Appends h n target
  elementsTransitions : ∀ {k target}, t.elementsTransitions.get? k = some target →
    t.Generalizes h k target
  widens : rules.widening → ∀ {k target}, t.elementsTransitions.get? k = some target →
    t.elementsKind.generalizesTo k

/-- The invariant of an object in a heap. -/
structure JsObject.Fits (rules : Rules) (h : Heap) (id : ObjectId) (o : JsObject) : Prop where
  shape_lt : o.shape.index < h.shapes.size
  widened : h.Widened o.shape
  type : (h.shapeOf o).instanceType = o.objectClass.instanceType
  prototype_lt : ∀ {p}, (h.shapeOf o).prototype = .object p → p.index < id.index
  global : o.objectClass = .global → id = Heap.globalObject ∧ (h.shapeOf o).isDictionary
  proxy : ∀ {g}, o.objectClass = .globalProxy g →
    g = Heap.globalObject ∧ (h.shapeOf o).prototype = .object Heap.globalObject
  fields : rules.freshNames → o.fields.length = (h.shapeOf o).fieldCount
  /-- Only objects in dictionary mode use their dictionary. -/
  fast : (h.shapeOf o).isDictionary = false → o.dictionary = {}
  array : rules.plainArrays → o.objectClass = .array → o.dictionary.get? .length = none
  wrapper : rules.stringWrappers → ∀ {v}, o.objectClass = .stringWrapper v → h.isString v
  /-- Arguments are not specialized to numbers. -/
  arguments : ∀ {callee strict}, o.objectClass = .arguments callee strict →
    (h.shapeOf o).elementsKind.storage = .tagged
  /-- The `prototype` of a function is a plain object. -/
  function : ∀ {d}, o.objectClass = .function d →
    ∃ p x, d.prototype = .object p ∧ h.object? p = some x ∧ x.objectClass = .plain

namespace Heap

/-- The layout of the first shape of plain objects with a prototype. -/
def initialLayout (key : Option ObjectId) : Shape :=
  .make .object ((key.map Value.object).getD .null) .packedSmi

/-- The invariant of heaps, for programs that keep to some rules. -/
structure WellFormed (rules : Rules) (h : Heap) : Prop where
  roots : roots.Grows h
  shape : ∀ {s : ShapeId}, s.index < h.shapes.size → (h.shape s).Legal rules h
  object : ∀ {id : ObjectId} {o : JsObject}, h.object? id = some o → o.Fits rules h id
  /-- A shape is made by one elements transition at most. -/
  source : ∀ {s s' : ShapeId} {k k' : ElementsKind} {t : ShapeId},
    (h.shape s).elementsTransitions.get? k = some t →
    (h.shape s').elementsTransitions.get? k' = some t → s = s'
  rootShapes : ∀ {s : ShapeId}, s.index < Heap.roots.shapes.size → h.Widened s
  initialShapes : ∀ {key : Option ObjectId} {s : ShapeId}, h.initialShapes.get? key = some s →
    s.index < h.shapes.size ∧ h.Widened s ∧ (h.shape s).derive = initialLayout key
  initialShapes_none : h.initialShapes.get? none = some rootShape

end Heap

/-- Whatever a function of the host does to a well-formed heap amounts to operations that the rules
allow, and that satisfy `P` where they are performed. -/
def Host.Does (host : Host) (rules : Rules) (P : Heap → HeapOperation → Prop) : Prop :=
  ∀ h : Heap, h.host = host → h.WellFormed rules → ∀ i receiver args,
    h.Steps (fun g op => op.Allowed rules g ∧ P g op)
      { h with toMemory := (host.run i receiver args h.toMemory).2 }

/-- The functions of the host keep to the rules. -/
def Host.Lawful (host : Host) (rules : Rules) : Prop := host.Does rules fun _ _ => True

/-- A host that acts by operations of any sort is lawful. -/
theorem Host.Does.lawful {host : Host} {rules : Rules} {P : Heap → HeapOperation → Prop}
    (does : host.Does rules P) : host.Lawful rules :=
  fun h same well i receiver args =>
    (does h same well i receiver args).mono fun _ _ ok => ⟨ok.1, trivial⟩

/-- A host that only answers changes nothing. -/
theorem Host.answering_does (v : Value) (rules : Rules) (P : Heap → HeapOperation → Prop) :
    (Host.answering v).Does rules P :=
  fun _ _ _ _ _ _ => .refl

/-- A host that does nothing does nothing else. -/
theorem Host.idle_does (rules : Rules) (P : Heap → HeapOperation → Prop) : Host.idle.Does rules P :=
  Host.answering_does .undefined rules P

namespace Heap

/-- The heap is well formed, and its host keeps it so. -/
structure Obeys (rules : Rules) (h : Heap) : Prop extends WellFormed rules h where
  host : h.host.Lawful rules

end Heap

/-! ### What growth keeps -/

section Monotone

variable {rules : Rules} {h h' : Heap}

/-- The number of fields is a matter of the layout. -/
theorem Shape.fieldCount_of_derive {t t' : Shape} (e : t'.derive = t.derive) :
    t'.fieldCount = t.fieldCount := by
  have hd : t'.descriptors = t.descriptors := by simpa using congrArg Shape.descriptors e
  rw [fieldCount, fieldCount, hd]

namespace Heap.Grows

theorem isJsObject (g : h.Grows h') {v : Value} (hv : h.isJsObject v) : h'.isJsObject v := by
  unfold Heap.isJsObject asObject? at *
  cases v with
  | object id =>
    obtain ⟨o, ho⟩ := Option.isSome_iff_exists.1 hv
    obtain ⟨o', ho', -⟩ := g.object ho
    exact Option.isSome_iff_exists.2 ⟨o', ho'⟩
  | _ => exact hv

theorem isString (g : h.Grows h') {v : Value} (hv : h.isString v) : h'.isString v := by
  unfold Heap.isString Heap.get? at *
  cases v with
  | object id =>
    simp only [Value.objectId?, Option.bind_some] at hv ⊢
    split at hv
    · rename_i s i hc
      rw [g.primitive hc (by simp)]
    · simp at hv
  | _ => simp [Value.objectId?] at hv

theorem plain (g : h.Grows h') {id : ObjectId} {o : JsObject} (ho : h.object? id = some o)
    (hc : o.objectClass = .plain) : ∃ o', h'.object? id = some o' ∧ o'.objectClass = .plain := by
  obtain ⟨o', ho', e, -⟩ := g.object ho
  refine ⟨o', ho', ?_⟩
  rw [hc] at e
  cases hc' : o'.objectClass <;> simp_all [ObjectClass.fixed]

theorem derive_shapeOf (g : h.Grows h') {o : JsObject} (hs : o.shape.index < h.shapes.size) :
    (h'.shapeOf o).derive = (h.shapeOf o).derive := g.layout hs

end Heap.Grows

namespace Heap

/-- Only shapes of the heap have transitions. -/
theorem index_lt_of_transition {s t : ShapeId} {n : Name}
    (e : (h.shape s).transitions.get? n = some t) : s.index < h.shapes.size := by
  by_contra hs
  rw [shape_eq_default (Nat.le_of_not_lt hs)] at e
  cases e

theorem index_lt_of_elementsTransition {s t : ShapeId} {k : ElementsKind}
    (e : (h.shape s).elementsTransitions.get? k = some t) : s.index < h.shapes.size := by
  by_contra hs
  rw [shape_eq_default (Nat.le_of_not_lt hs)] at e
  cases e

/-- Transitions to a shape that exists are not new. -/
theorem Widened.mono {t : ShapeId} (w : h.Widened t) (g : h.Grows h')
    (ht : t.index < h.shapes.size) : h'.Widened t := by
  intro s k e
  rcases g.introduced e with e | hle
  · have kind : (h'.shape s).elementsKind = (h.shape s).elementsKind := by
      simpa using congrArg Shape.elementsKind (g.layout (index_lt_of_elementsTransition e))
    rw [kind]
    exact w s k e
  · omega

end Heap

/-- The invariant of a shape is a matter of its layout and of where its transitions lead. -/
theorem Shape.Legal.of_layout {t t' : Shape} (l : t.Legal rules h) (g : h.Grows h')
    (layout : t'.derive = t.derive)
    (transitions : ∀ {n target}, t'.transitions.get? n = some target → t'.Appends h' n target)
    (elementsTransitions : ∀ {k target}, t'.elementsTransitions.get? k = some target →
      t'.Generalizes h' k target)
    (widens : rules.widening → ∀ {k target}, t'.elementsTransitions.get? k = some target →
      t'.elementsKind.generalizesTo k) : t'.Legal rules h' := by
  -- All but the transitions speaks of the layout alone.
  have hd : t'.descriptors = t.descriptors := by simpa using congrArg Shape.descriptors layout
  have hp : t'.prototype = t.prototype := by simpa using congrArg Shape.prototype layout
  have hi : t'.isDictionary = t.isDictionary := by simpa using congrArg Shape.isDictionary layout
  have hy : t'.instanceType = t.instanceType := by simpa using congrArg Shape.instanceType layout
  have hc : t'.fieldCount = t.fieldCount := Shape.fieldCount_of_derive layout
  refine ⟨?_, ?_, ?_, ?_, ?_, ?_, ?_, ?_, ?_, transitions, elementsTransitions, widens⟩
  · rw [hp]
    exact fun e => Nat.lt_of_lt_of_le (l.prototype_lt e) g.cells
  · rw [hp]
    exact l.prototype_reference
  · rw [hi, hd]
    exact l.accessors
  · rw [hd]
    exact l.stored
  · rw [hp]
    exact fun r => (l.prototype_object r).imp id g.isJsObject
  · rw [hd]
    exact l.names
  · rw [hd, hc]
    exact l.index_lt
  · rw [hd]
    exact l.index_inj
  · rw [hy, hd]
    exact l.array

theorem Shape.Appends.mono {t t' : Shape} {n : Name} {target : ShapeId} (a : t.Appends h n target)
    (g : h.Grows h') (layout : t'.derive = t.derive) : t'.Appends h' n target := by
  obtain ⟨hlt, w, d, hn, hf, hl⟩ := a
  have hd : t'.descriptors = t.descriptors := by simpa using congrArg Shape.descriptors layout
  refine ⟨Nat.lt_of_lt_of_le hlt g.shapes, w.mono g hlt, d, hn, ?_, ?_⟩
  · rwa [Shape.fieldCount_of_derive layout]
  · rw [g.layout hlt, hl, layout, hd]

theorem Shape.Generalizes.mono {t t' : Shape} {k : ElementsKind} {target : ShapeId}
    (a : t.Generalizes h k target) (g : h.Grows h') (layout : t'.derive = t.derive) :
    t'.Generalizes h' k target := by
  obtain ⟨hlt, hl, other⟩ := a
  have hk : t'.elementsKind = t.elementsKind := by simpa using congrArg Shape.elementsKind layout
  exact ⟨Nat.lt_of_lt_of_le hlt g.shapes, by rw [g.layout hlt, hl, layout], hk ▸ other⟩

/-- The invariant of a shape survives growth as long as the shape gains no transition. -/
theorem Shape.Legal.mono {t t' : Shape} (l : t.Legal rules h) (g : h.Grows h')
    (layout : t'.derive = t.derive) (ht : t'.transitions = t.transitions)
    (he : t'.elementsTransitions = t.elementsTransitions) : t'.Legal rules h' := by
  have hk : t'.elementsKind = t.elementsKind := by simpa using congrArg Shape.elementsKind layout
  refine l.of_layout g layout (fun e => (l.transitions (ht ▸ e)).mono g layout)
    (fun e => (l.elementsTransitions (he ▸ e)).mono g layout) fun r {k target} e => ?_
  rw [hk]
  exact l.widens r (he ▸ e)

/-- The invariant of an object survives growth as long as the object does not change. -/
theorem JsObject.Fits.mono {id : ObjectId} {o : JsObject} (f : o.Fits rules h id)
    (g : h.Grows h') : o.Fits rules h' id := by
  have e := g.derive_shapeOf f.shape_lt
  have p := Shape.Precedes.of_derive e
  exact {
    shape_lt := Nat.lt_of_lt_of_le f.shape_lt g.shapes
    widened := f.widened.mono g f.shape_lt
    type := p.instanceType.trans f.type
    prototype_lt := fun hp => f.prototype_lt (p.prototype.symm.trans hp)
    global := fun hc => ⟨(f.global hc).1, p.dictionary (f.global hc).2⟩
    proxy := fun hc => ⟨(f.proxy hc).1, p.prototype.trans (f.proxy hc).2⟩
    fields := fun r => (f.fields r).trans (Shape.fieldCount_of_derive e).symm
    fast := fun hi => f.fast (by simpa [hi] using (congrArg Shape.isDictionary e).symm)
    array := f.array
    wrapper := fun r _ hc => g.isString (f.wrapper r hc)
    arguments := fun hc => ElementsKind.tagged_of_le p.elements (f.arguments hc)
    function := fun hc => by
      obtain ⟨q, x, hq, hx, plain⟩ := f.function hc
      obtain ⟨x', hx', plain'⟩ := g.plain hx plain
      exact ⟨q, x', hq, hx', plain'⟩ }

namespace Heap

/-- Elements transitions lead to shapes that exist. -/
theorem WellFormed.target_lt (ob : h.WellFormed rules) {s t : ShapeId} {k : ElementsKind}
    (e : (h.shape s).elementsTransitions.get? k = some t) : t.index < h.shapes.size :=
  ((ob.shape (index_lt_of_elementsTransition e)).elementsTransitions e).1

/-- A grown heap is well formed if its new shapes, the shapes with new transitions and the new or
changed objects are. -/
theorem WellFormed.step (ob : h.WellFormed rules) (g : h.Grows h')
    (shape : ∀ s : ShapeId, s.index < h'.shapes.size →
      (s.index < h.shapes.size ∧ (h'.shape s).transitions = (h.shape s).transitions ∧
        (h'.shape s).elementsTransitions = (h.shape s).elementsTransitions) ∨
      (h'.shape s).Legal rules h')
    (object : ∀ id o, h'.object? id = some o → h.object? id = some o ∨ o.Fits rules h' id)
    (source : ∀ {s s' : ShapeId} {k k' : ElementsKind} {t : ShapeId},
      (h'.shape s).elementsTransitions.get? k = some t →
      (h'.shape s').elementsTransitions.get? k' = some t → h.shapes.size ≤ t.index → s = s')
    (initial : h'.initialShapes = h.initialShapes) : h'.WellFormed rules where
  roots := ob.roots.trans g
  shape := fun {s} hs => by
    rcases shape s hs with ⟨hlt, ht, he⟩ | hl
    · exact (ob.shape hlt).mono g (g.layout hlt) ht he
    · exact hl
  -- => What the step left alone is well-formed since the heap only grew.
  object := fun {id o} ho =>
    (object id o ho).elim (fun h0 => (ob.object h0).mono g) fun hf => hf
  source := fun {s s' k k' t} e e' => by
    rcases g.introduced e with e₀ | hle
    · rcases g.introduced e' with e₀' | hle
      · exact ob.source e₀ e₀'
      · exact absurd (ob.target_lt e₀) (by omega)
    · exact source e e' hle
  rootShapes := fun {s} hs =>
    (ob.rootShapes hs).mono g (Nat.lt_of_lt_of_le hs ob.roots.shapes)
  initialShapes := fun {key s} e => by
    obtain ⟨hlt, w, hl⟩ := ob.initialShapes (initial ▸ e)
    exact ⟨Nat.lt_of_lt_of_le hlt g.shapes, w.mono g hlt, (g.layout hlt).trans hl⟩
  initialShapes_none := initial ▸ ob.initialShapes_none

/-- Where there are no new elements transitions, none leads to a new shape. -/
theorem WellFormed.no_source (ob : h.WellFormed rules)
    (same : ∀ {s : ShapeId} {k : ElementsKind} {t : ShapeId},
      (h'.shape s).elementsTransitions.get? k = some t →
      (h.shape s).elementsTransitions.get? k = some t)
    {s s' : ShapeId} {k k' : ElementsKind} {t : ShapeId}
    (e : (h'.shape s).elementsTransitions.get? k = some t)
    (_ : (h'.shape s').elementsTransitions.get? k' = some t) (hle : h.shapes.size ≤ t.index) :
    s = s' := by
  have := ob.target_lt (same e)
  omega

/-- The invariant is a matter of cells, shapes and initial shapes. -/
theorem WellFormed.of_eq (ob : h.WellFormed rules) (hc : h'.cells = h.cells)
    (hs : h'.shapes = h.shapes) (hi : h'.initialShapes = h.initialShapes) : h'.WellFormed rules := by
  have shape : ∀ s, h'.shape s = h.shape s := fun s => by simp [Heap.shape, hs]
  refine ob.step (.of_eq hc hs) (fun s hlt => .inl ⟨by rwa [hs] at hlt, by rw [shape], by rw [shape]⟩)
    (fun id o ho => .inl ?_) (ob.no_source fun {s k t} e => by rwa [shape s] at e) hi
  simpa [object?, cell?, hc] using ho

/-- Another host that keeps to the rules. -/
theorem Obeys.rehost (ob : h.Obeys rules) {host : Host} (lawful : host.Lawful rules) :
    Obeys rules { h with host } :=
  ⟨ob.of_eq rfl rfl rfl, lawful⟩

end Heap

end Monotone

namespace Heap

/-! ### Primitive changes -/

/-- A well-formed heap that comes from another one. -/
structure Leads (rules : Rules) (h h' : Heap) : Prop where
  obeys : h'.Obeys rules
  grows : h.Grows h'
  host : h'.host = h.host
  log : h.invocations <+: h'.invocations

variable {rules : Rules} {h h' h'' : Heap}

theorem Obeys.leads (ob : h.Obeys rules) : Leads rules h h := ⟨ob, .refl h, rfl, List.prefix_rfl⟩

/-- A heap that has grown well formed, with the same host. -/
theorem Obeys.leads_of_wellFormed (ob : h.Obeys rules) (well : h'.WellFormed rules)
    (g : h.Grows h') (same : h'.outside = h.outside) : Leads rules h h' := by
  have host := host_of_outside same
  exact ⟨⟨well, host ▸ ob.host⟩, g, host, (log_of_outside same).symm ▸ List.prefix_rfl⟩

theorem Leads.trans (a : Leads rules h h') (b : Leads rules h' h'') : Leads rules h h'' :=
  ⟨b.obeys, a.grows.trans b.grows, b.host.trans a.host, a.log.trans b.log⟩

/-- Changes of the memory, but not of cells, shapes and initial shapes. -/
theorem Obeys.leads_of_eq (ob : h.Obeys rules) (hc : h'.cells = h.cells)
    (hs : h'.shapes = h.shapes) (hi : h'.initialShapes = h.initialShapes)
    (same : h'.outside = h.outside) : Leads rules h h' :=
  ob.leads_of_wellFormed (ob.of_eq hc hs hi) (.of_eq hc hs) same

/-- A new cell. -/
theorem Obeys.leads_push (ob : h.Obeys rules) (c : Cell)
    (fits : ∀ o, c = .object o → o.Fits rules h ⟨h.cells.size⟩) :
    Leads rules h { h with cells := h.cells.push c } := by
  have g : h.Grows { h with cells := h.cells.push c } := by
    refine ⟨by simp, Nat.le_refl _, fun _ => rfl, fun e => e, fun e => e, fun e => .inl e,
      fun e _ => cell?_push e, fun {id o} e => ⟨o, ?_, rfl, .refl _⟩⟩
    exact object?_eq_some.2 (cell?_push (object?_eq_some.1 e))
  refine ob.leads_of_wellFormed (ob.step g (fun s hlt => .inl ⟨hlt, rfl, rfl⟩) (fun id o ho => ?_)
    (ob.no_source fun e => e) rfl) g rfl
  have ho' := object?_eq_some.1 ho
  simp only [cell?, Array.getElem?_push] at ho'
  split at ho'
  · rename_i e
    refine .inr ?_
    have hid : id = ⟨h.cells.size⟩ := by cases id; simp_all
    rw [hid]
    exact (fits o (by simpa using ho')).mono g
  · exact .inl (object?_eq_some.2 ho')

/-- The elements transitions after a shape without any was added. -/
theorem elementsTransition_of_addShape {t : Shape} (bare : t.elementsTransitions = {})
    {s target : ShapeId} {k : ElementsKind}
    (e : ((h.addShape t).2.shape s).elementsTransitions.get? k = some target) :
    (h.shape s).elementsTransitions.get? k = some target := by
  have hs : s.index < h.shapes.size + 1 := by simpa using index_lt_of_elementsTransition e
  by_cases hlt : s.index < h.shapes.size
  · rwa [shape_addShape_of_lt hlt] at e
  · obtain rfl : s = ⟨h.shapes.size⟩ := by
      cases s
      simp at hlt hs ⊢
      omega
    rw [shape_addShape_new, bare] at e
    cases e

/-- A new shape. -/
theorem Obeys.leads_addShape (ob : h.Obeys rules) {t : Shape} (legal : t.Legal rules h)
    (bare : t.elementsTransitions = {}) : Leads rules h (h.addShape t).2 := by
  have g : h.Grows (h.addShape t).2 := by
    refine ⟨Nat.le_refl _, by simp, fun hs => by rw [shape_addShape_of_lt hs], fun {s n t'} e => ?_,
      fun {s k t'} e => ?_, fun e => .inl (elementsTransition_of_addShape bare e), fun e _ => e,
      fun {id o} e => ⟨o, e, rfl, ?_⟩⟩
    · rwa [shape_addShape_of_lt (index_lt_of_transition e)]
    · rwa [shape_addShape_of_lt (index_lt_of_elementsTransition e)]
    · rw [shapeOf, shapeOf, shape_addShape_of_lt (ob.object e).shape_lt]
      exact .refl _
  refine ob.leads_of_wellFormed (ob.step g (fun s hlt => ?_) (fun id o ho => .inl ho)
    (ob.no_source (elementsTransition_of_addShape bare)) rfl) g rfl
  by_cases hs : s.index < h.shapes.size
  · exact .inl ⟨hs, by rw [shape_addShape_of_lt hs], by rw [shape_addShape_of_lt hs]⟩
  · have hsz : s.index < h.shapes.size + 1 := by simpa using hlt
    have hid : s = ⟨h.shapes.size⟩ := by
      cases s
      simp at hs hsz ⊢
      omega
    rw [hid, shape_addShape_new]
    exact .inr (legal.mono g rfl rfl rfl)

section ModifyShape

variable {s : ShapeId} {f : Shape → Shape}

/-- Only the changed shape is another one. -/
theorem shape_modifyShape_cases (t : ShapeId) : (h.modifyShape s f).shape t = h.shape t ∨
    (t = s ∧ (h.modifyShape s f).shape t = f (h.shape s)) := by
  by_cases ht : s = t
  · subst ht
    by_cases hs : s.index < h.shapes.size
    · exact .inr ⟨rfl, shape_modifyShape_self hs⟩
    · left
      rw [shape_eq_default (Nat.le_of_not_lt hs), shape_eq_default (by simpa using hs)]
  · exact .inl (shape_modifyShape_ne ht)

theorem elementsTransitions_modifyShape
    (elements : ∀ t, (f t).elementsTransitions = t.elementsTransitions) (t : ShapeId) :
    ((h.modifyShape s f).shape t).elementsTransitions = (h.shape t).elementsTransitions := by
  rcases shape_modifyShape_cases (h := h) (s := s) (f := f) t with e | ⟨rfl, e⟩
  · rw [e]
  · rw [e, elements]

/-- A change of a shape that keeps its layout and its transitions, and adds no elements
transition. -/
theorem Grows.modifyShape (layout : ∀ t, (f t).derive = t.derive)
    (transition : ∀ n t, (h.shape s).transitions.get? n = some t →
      (f (h.shape s)).transitions.get? n = some t)
    (elements : ∀ t, (f t).elementsTransitions = t.elementsTransitions) :
    h.Grows (h.modifyShape s f) := by
  have derive : ∀ t, ((h.modifyShape s f).shape t).derive = (h.shape t).derive := by
    intro t
    rcases shape_modifyShape_cases (h := h) (s := s) (f := f) t with e | ⟨rfl, e⟩
    · rw [e]
    · rw [e, layout]
  have same := elementsTransitions_modifyShape (h := h) (s := s) elements
  refine ⟨Nat.le_refl _, by simp, fun _ => derive _, fun {t n t'} e => ?_,
    fun e => by rwa [same], fun e => .inl (by rwa [← same]), fun e _ => e,
    fun {id o} e => ⟨o, e, rfl, .of_derive (derive _)⟩⟩
  rcases shape_modifyShape_cases (h := h) (s := s) (f := f) t with e' | ⟨rfl, e'⟩
  · rwa [e']
  · rw [e']
    exact transition _ _ e

/-- A change of a shape that keeps its layout, where new transitions are legal. -/
theorem Obeys.leads_modifyShape (ob : h.Obeys rules) (g : h.Grows (h.modifyShape s f))
    (elements : ∀ t, (f t).elementsTransitions = t.elementsTransitions)
    (legal : (h.modifyShape s f).shape s = f (h.shape s) →
      (f (h.shape s)).Legal rules (h.modifyShape s f)) :
    Leads rules h (h.modifyShape s f) := by
  refine ob.leads_of_wellFormed (ob.step g (fun t hlt => ?_) (fun id o ho => .inl ho)
    (ob.no_source fun e => by rwa [elementsTransitions_modifyShape elements] at e) rfl) g rfl
  have hlt' : t.index < h.shapes.size := by simpa using hlt
  by_cases ht : s = t
  · subst ht
    have e := shape_modifyShape_self (f := f) hlt'
    exact .inr (e ▸ legal e)
  · exact .inl ⟨hlt', by rw [shape_modifyShape_ne ht], by rw [shape_modifyShape_ne ht]⟩

end ModifyShape

/-- A change of an object that keeps its class and what its shapes share. -/
theorem Obeys.leads_modifyObject (ob : h.Obeys rules) {id : ObjectId} {f : JsObject → JsObject}
    (change : ∀ o, h.object? id = some o → (f o).objectClass.fixed = o.objectClass.fixed ∧
      (h.shapeOf o).Precedes (h.shapeOf (f o)) ∧ (f o).Fits rules h id) :
    Leads rules h (h.modifyObject id f) := by
  have g : h.Grows (h.modifyObject id f) := by
    refine ⟨by simp, Nat.le_refl _, fun _ => rfl, fun e => e, fun e => e, fun e => .inl e,
      fun {j c} e hc => ?_, fun {j o} e => ?_⟩
    · by_cases hj : id = j
      · subst hj
        rw [modifyObject_of_none (by unfold object?; rw [e]; split <;> simp_all)]
        exact e
      · rwa [cell?_modifyObject_ne hj]
    · by_cases hj : id = j
      · subst hj
        obtain ⟨hc, hp, -⟩ := change o e
        exact ⟨f o, by simp [e], hc, hp⟩
      · exact ⟨o, by rwa [object?_modifyObject_ne hj], rfl, .refl _⟩
  refine ob.leads_of_wellFormed (ob.step g (fun s hlt => .inl ⟨hlt, rfl, rfl⟩) (fun j o ho => ?_)
    (ob.no_source fun e => e) rfl) g rfl
  by_cases hj : id = j
  · subst hj
    rw [object?_modifyObject_self, Option.map_eq_some_iff] at ho
    obtain ⟨o', ho', rfl⟩ := ho
    exact .inr ((change o' ho').2.2.mono g)
  · exact .inl (by rwa [object?_modifyObject_ne hj] at ho)

end Heap

end Speculation
