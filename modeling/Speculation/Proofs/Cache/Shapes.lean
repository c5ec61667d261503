import Speculation.Proofs.Cache.Session

/-!
# Shapes of reachable heaps

What the caches rely on, said of all heaps that a program can bring about.

* **Objects fit their shapes** (`objects_fit_shapes`): as long as properties are added only under new
  names, every object has one field for each field descriptor of its shape, the descriptors of a shape
  neither share a name nor a field, and data properties are in the fields of fast objects and in the
  dictionaries of the others, never in both.
* **Shapes do not change** (`shapes_immutable`): whatever a guard checks of a shape is the same at every
  later time. Only transitions are added, and they lead where their key says: to one descriptor more, or
  to a more general elements kind.

Both are read off the invariant of heaps. The first holds in each reachable session by itself, and the
second compares a session with one that a run brings about, which is where growth comes in.
-/

namespace Speculation

/-! ### Objects and their shapes -/

/-- The index of a field. -/
def PropertyKind.fieldIndex? : PropertyKind → Option Nat
  | .field i => some i
  | _ => none

theorem PropertyKind.fieldIndex?_eq_some {k : PropertyKind} {i : Nat} :
    k.fieldIndex? = some i ↔ k = .field i := by
  cases k <;> simp [fieldIndex?]

/-- The indices of the fields that a shape describes. -/
def Shape.fieldIndices (t : Shape) : List Nat := t.descriptors.filterMap fun d => d.kind.fieldIndex?

theorem Shape.mem_fieldIndices {t : Shape} {i : Nat} :
    i ∈ t.fieldIndices ↔ ∃ d ∈ t.descriptors, d.kind = .field i := by
  simp [fieldIndices, PropertyKind.fieldIndex?_eq_some]

/-- A layout in which every property has a place of its own. -/
structure Shape.Orderly (t : Shape) : Prop where
  names : (t.descriptors.map (·.name)).Nodup
  indices : t.fieldIndices.Nodup
  indices_lt : ∀ i ∈ t.fieldIndices, i < t.fieldCount
  accessors : t.isDictionary → ∀ d ∈ t.descriptors, d.kind.isAccessor

/-- An object that has what its shape describes. -/
structure Heap.Matches (h : Heap) (o : JsObject) : Prop where
  shape_lt : o.shape.index < h.shapes.size
  fields : o.fields.length = (h.shapeOf o).fieldCount
  fast : (h.shapeOf o).isDictionary = false → o.dictionary = {}

theorem Shape.Legal.orderly {rules : Rules} {h : Heap} {t : Shape} (l : t.Legal rules h)
    (fresh : rules.freshNames) : t.Orderly where
  names := l.names fresh
  indices := by
    -- Two descriptors have different names, so they are two, and no field belongs to two of them.
    have apart : t.descriptors.Nodup := (l.names fresh).of_map _
    refine List.pairwise_filterMap.mpr (apart.imp_of_mem ?_)
    rintro d e hd he ne i hi _ hi' rfl
    exact ne (l.index_inj fresh d hd e he i (PropertyKind.fieldIndex?_eq_some.mp hi)
      (PropertyKind.fieldIndex?_eq_some.mp hi'))
  indices_lt i hi := by
    obtain ⟨d, hd, kind⟩ := mem_fieldIndices.mp hi
    exact l.index_lt fresh d hd i kind
  accessors := l.accessors

/-- **Objects fit their shapes in every reachable heap**, if properties are added only under names that
the object does not own: each object has exactly the fields that its shape counts, and nothing in its
dictionary unless it is in dictionary mode; in each shape the names are distinct, the field indices are
distinct and below the count, and only accessors are left in dictionary mode. -/
theorem objects_fit_shapes {s : Session} (reachable : s.Reachable { freshNames := true }) :
    (∀ id o, s.engine.heap.object? id = some o → s.engine.heap.Matches o) ∧
      ∀ t : ShapeId, t.index < s.engine.heap.shapes.size → (s.engine.heap.shape t).Orderly := by
  have ob := reachable.sound.engine.heap
  refine ⟨fun id o ho => ?_, fun t ht => (ob.shape ht).orderly rfl⟩
  have fits := ob.object ho
  exact ⟨fits.shape_lt, fits.fields rfl, fits.fast⟩

/-- A field stored through a site, a constant that became a field, an accessor, and an object in
dictionary mode. -/
theorem objects_fit_shapes_mixed :
    let name : Name := ⟨"x"⟩
    let session := (Session.ofConfig {}).run [
      .onHeap .object,
      .onHeap (.addConstant ⟨10⟩ name (.smi 1) {}),
      .newSite .store {},
      .atSite 0 (.store (.object ⟨10⟩) ⟨"y"⟩ (.smi 2)),
      .atSite 0 (.store (.object ⟨10⟩) name (.smi 3)),
      .onHeap .object,
      .atSite 0 (.store (.object ⟨11⟩) name (.smi 4)),
      .onHeap (.normalize ⟨11⟩)]
    let h := session.engine.heap
    (h.object? ⟨10⟩).map (·.fields) = some [.smi 2, .smi 3] ∧
      (h.object? ⟨11⟩).map (fun o => (h.shapeOf o).isDictionary) = some true ∧
      (∀ id o, h.object? id = some o → h.Matches o) ∧
      ∀ t : ShapeId, t.index < session.engine.heap.shapes.size → (h.shape t).Orderly := by
  intro name session h
  let start := ((Session.ofConfig {}).perform (.onHeap .object)).engine.heap
  -- The constant is new to the object, as fresh names ask.
  have fresh : ∀ o ∈ start.object? ⟨10⟩, (start.shapeOf o).descriptor? name = none := by decide +kernel
  have reachable : session.Reachable { freshNames := true } :=
    .run (.initial {}) ⟨trivial, ⟨fun _ o ho _ => fresh o ho, fun r => by cases r⟩, trivial, trivial, trivial,
      trivial, trivial, trivial, trivial⟩
  obtain ⟨fits, orderly⟩ := objects_fit_shapes reachable
  exact ⟨by decide +kernel, by decide +kernel, fits, orderly⟩

/-! ### Shapes over time -/

/-- Shapes that agree in all but elements kind, descriptors and transitions. -/
structure Shape.Alike (t u : Shape) : Prop where
  instanceType : u.instanceType = t.instanceType
  prototype : u.prototype = t.prototype
  isDictionary : u.isDictionary = t.isDictionary
  hasInterceptor : u.hasInterceptor = t.hasInterceptor

/-- A shape `t` as it is later: only transitions were added. -/
structure Shape.Persists (t t' : Shape) : Prop extends t.Alike t' where
  elementsKind : t'.elementsKind = t.elementsKind
  descriptors : t'.descriptors = t.descriptors
  transitions : ∀ n target, t.transitions.get? n = some target → t'.transitions.get? n = some target
  elementsTransitions : ∀ k target, t.elementsTransitions.get? k = some target →
    t'.elementsTransitions.get? k = some target

/-- The layout of `u` is that of `t` with one descriptor more, of the name `n`. -/
structure Shape.GainsName (t u : Shape) (n : Name) : Prop extends t.Alike u where
  elementsKind : u.elementsKind = t.elementsKind
  descriptors : ∃ d : Descriptor, d.name = n ∧ u.descriptors = t.descriptors ++ [d]

/-- The layout of `u` is that of `t` with the elements kind `k`, which is more general. -/
structure Shape.WidensTo (t u : Shape) (k : ElementsKind) : Prop extends t.Alike u where
  elementsKind : u.elementsKind = k
  descriptors : u.descriptors = t.descriptors
  widens : t.elementsKind.generalizesTo k

/-- The transitions of a shape do not matter. -/
theorem Shape.Alike.of_derive {t u v : Shape} (layout : u.derive = v) (a : t.Alike v) : t.Alike u := by
  subst layout
  exact ⟨a.instanceType, a.prototype, a.isDictionary, a.hasInterceptor⟩

namespace Heap

variable {h h' : Heap} {rules : Rules} {s t : ShapeId}

/-- A shape persists in all heaps that grow from its own. -/
theorem Grows.persists (g : h.Grows h') (hs : s.index < h.shapes.size) :
    (h.shape s).Persists (h'.shape s) := by
  have layout := g.layout hs
  exact {
    toAlike := .of_derive layout ⟨rfl, rfl, rfl, rfl⟩
    elementsKind := by simpa using congrArg Shape.elementsKind layout
    descriptors := by simpa using congrArg Shape.descriptors layout
    transitions := fun _ _ => g.transition
    elementsTransitions := fun _ _ => g.elementsTransition }

/-- A transition for a name leads to a shape that gains it. -/
theorem Obeys.gainsName (ob : h.Obeys rules) {n : Name}
    (e : (h.shape s).transitions.get? n = some t) :
    t.index < h.shapes.size ∧ (h.shape s).GainsName (h.shape t) n := by
  obtain ⟨ht, -, d, hn, -, layout⟩ := (ob.shape (index_lt_of_transition e)).transitions e
  refine ⟨ht, ?_⟩
  exact {
    toAlike := .of_derive layout ⟨rfl, rfl, rfl, rfl⟩
    elementsKind := by simpa using congrArg Shape.elementsKind layout
    descriptors := ⟨d, hn, by simpa using congrArg Shape.descriptors layout⟩ }

/-- A transition for a kind of elements leads to a shape of this kind. -/
theorem Obeys.widensTo (ob : h.Obeys rules) (widening : rules.widening) {k : ElementsKind}
    (e : (h.shape s).elementsTransitions.get? k = some t) :
    t.index < h.shapes.size ∧ (h.shape s).WidensTo (h.shape t) k := by
  have legal := ob.shape (index_lt_of_elementsTransition e)
  obtain ⟨ht, layout, -⟩ := legal.elementsTransitions e
  refine ⟨ht, ?_⟩
  exact {
    toAlike := .of_derive layout ⟨rfl, rfl, rfl, rfl⟩
    elementsKind := by simpa using congrArg Shape.elementsKind layout
    descriptors := by simpa using congrArg Shape.descriptors layout
    widens := legal.widens widening e }

end Heap

/-- **Shapes never change in what an inline cache checks.** A shape that exists in some reachable session
persists in every session that a run brings about from there: its type, prototype, elements kind, flags
and descriptors stay, and so does every transition it has. Each transition, also a new one, leads to the
layout with one descriptor of its name more, or with the more general elements kind that is its key.
Sites may call functions of the host meanwhile, of which nothing is known but that they act on the heap
through its operations (`Host.Lawful`). -/
theorem shapes_immutable {s : Session} (reachable : s.Reachable { widening := true })
    {ops : List Operation} (allowed : s.AllowedRun { widening := true } ops) {t : ShapeId}
    (exists' : t.index < s.engine.heap.shapes.size) :
    let h := s.engine.heap
    let h' := (s.run ops).engine.heap
    t.index < h'.shapes.size ∧ (h.shape t).Persists (h'.shape t) ∧
      (∀ n u, (h'.shape t).transitions.get? n = some u →
        u.index < h'.shapes.size ∧ (h'.shape t).GainsName (h'.shape u) n) ∧
      ∀ k u, (h'.shape t).elementsTransitions.get? k = some u →
        u.index < h'.shapes.size ∧ (h'.shape t).WidensTo (h'.shape u) k := by
  intro h h'
  have grows := (reachable.sound.run_leads allowed).grows
  have ob := (reachable.run allowed).sound.engine.heap
  exact ⟨Nat.lt_of_lt_of_le exists' grows.shapes, grows.persists exists', fun _ _ => ob.gainsName,
    fun _ _ => ob.widensTo rfl⟩

/-- The first shape of arrays, while a keyed store makes the elements of an array more general and
another one gets a property. -/
theorem shapes_immutable_array :
    let session := (Session.ofConfig {}).run [
      .onHeap (.array [.smi 1]),
      .newSite .keyedStore {}]
    let later := session.run [
      .atSite 0 (.keyedStore (.object ⟨10⟩) (.smi 0) .null),
      .onHeap (.array []),
      .access (.setProperty (.object ⟨11⟩) ⟨"x"⟩ .null false)]
    let h := session.engine.heap
    let h' := later.engine.heap
    (h.shape Heap.arrayShape).Persists (h'.shape Heap.arrayShape) ∧
      (∃ u, (h'.shape Heap.arrayShape).elementsTransitions.get? .packed = some u ∧
        (h'.shape Heap.arrayShape).WidensTo (h'.shape u) .packed) ∧
      ∃ u, (h'.shape Heap.arrayShape).transitions.get? ⟨"x"⟩ = some u ∧
        (h'.shape Heap.arrayShape).GainsName (h'.shape u) ⟨"x"⟩ := by
  intro session later h h'
  have reachable : session.Reachable { widening := true } := .run (.initial {}) ⟨trivial, trivial, trivial⟩
  have allowed : session.AllowedRun { widening := true } [
      .atSite 0 (.keyedStore (.object ⟨10⟩) (.smi 0) .null),
      .onHeap (.array []),
      .access (.setProperty (.object ⟨11⟩) ⟨"x"⟩ .null false)] := ⟨trivial, trivial, trivial, trivial⟩
  obtain ⟨-, persists, gains, widens⟩ :=
    shapes_immutable reachable allowed (t := Heap.arrayShape) (by decide +kernel)
  have wide : ((h'.shape Heap.arrayShape).elementsTransitions.get? .packed).isSome := by decide +kernel
  have named : ((h'.shape Heap.arrayShape).transitions.get? ⟨"x"⟩).isSome := by decide +kernel
  obtain ⟨u, hu⟩ := Option.isSome_iff_exists.mp wide
  obtain ⟨v, hv⟩ := Option.isSome_iff_exists.mp named
  exact ⟨persists, ⟨u, hu, (widens _ u hu).2⟩, v, hv, (gains _ v hv).2⟩

end Speculation
