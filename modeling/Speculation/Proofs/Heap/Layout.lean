import Mathlib.Data.List.Nodup
import Speculation.Heap.Elements
import Speculation.Proofs.Heap.Invariant

/-!
# Changing layouts keeps heaps well formed

Every change of an object's layout goes to a shape that is derived from the object's own: one
descriptor more, another elements kind, an interceptor, dictionary mode. `Shape.Admits` says which
descriptors may be appended. The two kinds of transitions have a specification each, which says
that they lead to the layout they stand for whether they were known or not
(`transitionTarget_spec`, `elementsTransition_spec`); the operations on objects follow from these
by `Obeys.leads_move`. An elements transition is no place for objects unless it widens the kind
(`elementsTransition_settles`).
-/

namespace Speculation

/-! ### Derived shapes -/

namespace Shape

variable {rules : Rules} {h : Heap} {t t' : Shape}

/-- Which descriptors may be appended to a shape. -/
structure Admits (rules : Rules) (t : Shape) (d : Descriptor) : Prop where
  stored : d.kind ≠ .normal
  accessor : t.isDictionary → d.kind.isAccessor
  index : ∀ i, d.kind = .field i → i = t.fieldCount
  fresh : rules.freshNames → t.descriptor? d.name = none
  array : rules.plainArrays → t.instanceType = .array → d.name = .length → d.kind.isAccessor

/-- The invariant of a shape that has no transitions yet, with what it shares with another one. -/
theorem Legal.derived (l : t.Legal rules h) (hp : t'.prototype = t.prototype)
    (ht : t'.transitions = {}) (he : t'.elementsTransitions = {})
    (accessors : t'.isDictionary → ∀ d ∈ t'.descriptors, d.kind.isAccessor)
    (stored : ∀ d ∈ t'.descriptors, d.kind ≠ .normal)
    (names : rules.freshNames → (t'.descriptors.map (·.name)).Nodup)
    (index_lt : rules.freshNames → ∀ d ∈ t'.descriptors, ∀ i, d.kind = .field i →
      i < t'.fieldCount)
    (index_inj : rules.freshNames → ∀ d ∈ t'.descriptors, ∀ e ∈ t'.descriptors, ∀ i,
      d.kind = .field i → e.kind = .field i → d = e)
    (array : rules.plainArrays → t'.instanceType = .array →
      ∀ d ∈ t'.descriptors, d.name = .length → d.kind.isAccessor) : t'.Legal rules h where
  prototype_lt := hp ▸ l.prototype_lt
  prototype_reference := hp ▸ l.prototype_reference
  accessors := accessors
  stored := stored
  prototype_object := hp ▸ l.prototype_object
  names := names
  index_lt := index_lt
  index_inj := index_inj
  array := array
  transitions := fun e => by simp [ht, Table.get?, Table.find?] at e
  elementsTransitions := fun e => by simp [he, Table.get?, Table.find?] at e
  widens := fun _ _ _ e => by simp [he, Table.get?, Table.find?] at e

/-- A change that leaves the properties alone. -/
theorem Legal.same_descriptors (l : t.Legal rules h) (hp : t'.prototype = t.prototype)
    (hy : t'.instanceType = t.instanceType) (hd : t'.descriptors = t.descriptors)
    (hi : t'.isDictionary = t.isDictionary) (ht : t'.transitions = {})
    (he : t'.elementsTransitions = {}) : t'.Legal rules h := by
  have hc : t'.fieldCount = t.fieldCount := by rw [fieldCount, fieldCount, hd]
  refine l.derived hp ht he ?_ ?_ ?_ ?_ ?_ ?_
  · rw [hi, hd]
    exact l.accessors
  · rw [hd]
    exact l.stored
  · rw [hd]
    exact l.names
  · rw [hd, hc]
    exact l.index_lt
  · rw [hd]
    exact l.index_inj
  · rw [hy, hd]
    exact l.array

/-- A shape without properties. -/
theorem Legal.make (type : InstanceType) {prototype : Value} (kind : ElementsKind)
    (allocated : ∀ {p}, prototype = .object p → p.index < h.cells.size)
    (object : rules.objectPrototypes → prototype = .null ∨ h.isJsObject prototype)
    (reference : prototype = .null ∨ ∃ p, prototype = .object p) :
    (Shape.make type prototype kind).Legal rules h where
  prototype_lt := allocated
  prototype_reference := reference
  accessors _ := by simp [Shape.make]
  stored := by simp [Shape.make]
  prototype_object := object
  names _ := by simp [Shape.make]
  index_lt _ := by simp [Shape.make]
  index_inj _ := by simp [Shape.make]
  array _ _ := by simp [Shape.make]
  transitions e := by cases e
  elementsTransitions e := by cases e
  widens _ _ _ e := by cases e

/-! ### One descriptor more -/

/-- The layout with one descriptor more. -/
def extended (t : Shape) (d : Descriptor) : Shape :=
  { t.derive with descriptors := t.descriptors ++ [d] }

@[simp] theorem descriptors_extended (d : Descriptor) :
    (t.extended d).descriptors = t.descriptors ++ [d] := rfl

theorem fieldCount_extended (d : Descriptor) :
    (t.extended d).fieldCount = t.fieldCount + if d.kind.isField then 1 else 0 := by
  simp only [fieldCount, descriptors_extended, List.countP_append, List.countP_singleton]

theorem precedes_extended (d : Descriptor) : t.Precedes (t.extended d) :=
  ⟨rfl, rfl, id, ElementsKind.le_refl _⟩

theorem name_ne_of_descriptor? {n : Name} (hn : t.descriptor? n = none) :
    ∀ d ∈ t.descriptors, d.name ≠ n := by
  unfold descriptor? at hn
  simpa using hn

/-- A descriptor that a shape admits keeps it legal. -/
theorem Legal.extended (l : t.Legal rules h) {d : Descriptor} (a : t.Admits rules d) :
    (t.extended d).Legal rules h := by
  have mem : ∀ e, e ∈ (t.extended d).descriptors ↔ e ∈ t.descriptors ∨ e = d := by simp
  -- Each condition holds of the descriptors there were by `l`, and of the one added by `a`.
  refine l.derived rfl rfl rfl ?_ ?_ ?_ ?_ ?_ ?_
  · intro hi e he
    rcases (mem e).1 he with he | rfl
    · exact l.accessors hi e he
    · exact a.accessor hi
  · intro e he
    rcases (mem e).1 he with he | rfl
    · exact l.stored e he
    · exact a.stored
  · intro r
    simp only [descriptors_extended, List.map_append, List.map_cons, List.map_nil]
    refine (l.names r).append (by simp) ?_
    simpa [List.disjoint_singleton] using name_ne_of_descriptor? (a.fresh r)
  · intro r e he i hi
    rw [fieldCount_extended]
    rcases (mem e).1 he with he | rfl
    · have := l.index_lt r e he i hi
      omega
    · have := a.index i hi
      simp [hi, PropertyKind.isField, this]
  · intro r e he e' he' i hi hi'
    rcases (mem e).1 he with m | rfl <;> rcases (mem e').1 he' with m' | rfl
    · exact l.index_inj r e m e' m' i hi hi'
    · have := l.index_lt r e m i hi
      have := a.index i hi'
      omega
    · have := l.index_lt r e' m' i hi'
      have := a.index i hi
      omega
    · rfl
  · intro r hy e he hn
    rcases (mem e).1 he with he | rfl
    · exact l.array r hy e he hn
    · exact a.array r hy hn

/-! ### Dictionary mode -/

/-- The layout in dictionary mode: only the accessors stay. -/
def normalized (t : Shape) : Shape :=
  { t.derive with
    isDictionary := true
    descriptors := t.descriptors.filter fun d => d.kind.isAccessor }

/-- Only accessors are still described in dictionary mode. -/
theorem mem_normalized {d : Descriptor} :
    d ∈ t.normalized.descriptors ↔ d ∈ t.descriptors ∧ d.kind.isAccessor := by
  simp [normalized]

theorem precedes_normalized : t.Precedes t.normalized :=
  ⟨rfl, rfl, fun _ => rfl, ElementsKind.le_refl _⟩

theorem fieldCount_normalized : t.normalized.fieldCount = 0 := by
  rw [fieldCount, List.countP_eq_zero]
  intro d hd
  have := (mem_normalized.1 hd).2
  cases hk : d.kind <;> simp_all [PropertyKind.isAccessor, PropertyKind.isField]

/-- Dictionary mode is legal. -/
theorem Legal.normalized (l : t.Legal rules h) : t.normalized.Legal rules h := by
  have field : ∀ d ∈ t.normalized.descriptors, ∀ i, d.kind ≠ .field i := by
    intro d hd i hi
    simpa [hi, PropertyKind.isAccessor] using (mem_normalized.1 hd).2
  refine l.derived rfl rfl rfl ?_ ?_ ?_ ?_ ?_ ?_
  · exact fun _ d hd => (mem_normalized.1 hd).2
  · exact fun d hd => l.stored d (mem_normalized.1 hd).1
  · exact fun r => (l.names r).sublist (List.filter_sublist.map _)
  · exact fun _ d hd i hi => absurd hi (field d hd i)
  · exact fun _ d hd _ _ i hi => absurd hi (field d hd i)
  · exact fun r hy d hd => l.array r hy d (mem_normalized.1 hd).1

/-! ### Elements kinds and interceptors -/

/-- The layout with another elements kind. -/
def withElements (t : Shape) (k : ElementsKind) : Shape := { t.derive with elementsKind := k }

theorem precedes_withElements {k : ElementsKind} (le : t.elementsKind.le k) :
    t.Precedes (t.withElements k) :=
  ⟨rfl, rfl, id, le⟩

/-- A kind of elements keeps a shape legal. -/
theorem Legal.withElements (l : t.Legal rules h) (k : ElementsKind) :
    (t.withElements k).Legal rules h :=
  l.same_descriptors rfl rfl rfl rfl rfl rfl

/-- The layout with an interceptor. -/
def intercepted (t : Shape) : Shape := { t.derive with hasInterceptor := true }

theorem precedes_intercepted : t.Precedes t.intercepted :=
  ⟨rfl, rfl, id, ElementsKind.le_refl _⟩

/-- An interceptor keeps a shape legal. -/
theorem Legal.intercepted (l : t.Legal rules h) : t.intercepted.Legal rules h :=
  l.same_descriptors rfl rfl rfl rfl rfl rfl

/-! ### Constants that become fields -/

/-- The layout in which a name is a field. -/
def withField (t : Shape) (n : Name) (index : Nat) : Shape :=
  { t.derive with
    descriptors := t.descriptors.map fun d =>
      if d.name = n then { d with kind := .field index } else d }

theorem precedes_withField {n : Name} {i : Nat} : t.Precedes (t.withField n i) :=
  ⟨rfl, rfl, id, ElementsKind.le_refl _⟩

/-- A descriptor of `withField` is a new field or an old descriptor of another name. -/
theorem mem_withField {n : Name} {i : Nat} {d : Descriptor}
    (hd : d ∈ (t.withField n i).descriptors) :
    ∃ e ∈ t.descriptors,
      e.name = n ∧ d = { e with kind := .field i } ∨ e.name ≠ n ∧ d = e := by
  obtain ⟨e, he, rfl⟩ := List.mem_map.1 hd
  refine ⟨e, he, ?_⟩
  by_cases hn : e.name = n <;> simp [hn]

/-- A name belongs to one descriptor only. -/
theorem Legal.eq_of_name (l : t.Legal rules h) (r : rules.freshNames) {d e : Descriptor}
    (hd : d ∈ t.descriptors) (he : e ∈ t.descriptors) (hn : d.name = e.name) : d = e :=
  List.inj_on_of_nodup_map (l.names r) hd he hn

theorem mem_of_descriptor? {n : Name} {d : Descriptor} (hd : t.descriptor? n = some d) :
    d ∈ t.descriptors ∧ d.name = n :=
  ⟨List.mem_of_find?_eq_some hd, by simpa using List.find?_some hd⟩

/-- A constant is no matter of a dictionary. -/
theorem Legal.not_dictionary (l : t.Legal rules h) {d : Descriptor} (hd : d ∈ t.descriptors)
    (hk : ¬ d.kind.isAccessor) : t.isDictionary = false := by
  rw [Bool.eq_false_iff]
  exact fun hi => hk (l.accessors hi d hd)

private theorem countP_withField {n : Name} {i : Nat} :
    ∀ {ds : List Descriptor}, (ds.map (·.name)).Nodup →
      (∃ d ∈ ds, d.name = n ∧ d.kind.isField = false) →
      (ds.map fun d => if d.name = n then { d with kind := .field i } else d).countP
        (fun d => d.kind.isField) = ds.countP (fun d => d.kind.isField) + 1
  | [], _, ⟨_, hd, _⟩ => by simp at hd
  | e :: ds, nodup, ⟨d, hd, hn, hk⟩ => by
    simp only [List.map_cons, List.nodup_cons] at nodup
    by_cases he : e.name = n
    · -- The other descriptors have other names and stay as they are.
      have same : (ds.map fun d => if d.name = n then { d with kind := .field i } else d) = ds := by
        rw [List.map_congr_left (g := id), List.map_id]
        intro d hd
        have : d.name ≠ n := fun e' => nodup.1 (he ▸ e' ▸ List.mem_map_of_mem hd)
        simp [this]
      have hd' : d = e := by
        rcases List.mem_cons.1 hd with rfl | hd
        · rfl
        · exact absurd (he ▸ hn ▸ List.mem_map_of_mem hd) nodup.1
      subst hd'
      rw [List.map_cons, same, List.countP_cons, List.countP_cons, if_pos he, hk]
      simp [PropertyKind.isField]
    · have hd' : d ∈ ds := by
        rcases List.mem_cons.1 hd with rfl | hd
        · exact absurd hn he
        · exact hd
      have ih := countP_withField (i := i) nodup.2 ⟨d, hd', hn, hk⟩
      simp only [List.map_cons, he, if_false, List.countP_cons]
      omega

/-- A constant that turns into a field takes one more. -/
theorem Legal.fieldCount_withField (l : t.Legal rules h) (r : rules.freshNames) {n : Name}
    {d : Descriptor} {i : Nat} (hd : t.descriptor? n = some d) (hk : d.kind.isField = false) :
    (t.withField n i).fieldCount = t.fieldCount + 1 :=
  countP_withField (l.names r) ⟨d, (mem_of_descriptor? hd).1, (mem_of_descriptor? hd).2, hk⟩

/-- A constant that turns into the next field keeps a shape legal. -/
theorem Legal.withField (l : t.Legal rules h) {n : Name} {d : Descriptor} {v : Value}
    (hd : t.descriptor? n = some d) (hk : d.kind = .constant v) :
    (t.withField n t.fieldCount).Legal rules h := by
  obtain ⟨hm, hn⟩ := mem_of_descriptor? hd
  have hi : t.isDictionary = false := l.not_dictionary hm (by simp [hk, PropertyKind.isAccessor])
  -- The new field has the next index, so it collides with none of the fields there were.
  refine l.derived rfl rfl rfl ?_ ?_ ?_ ?_ ?_ ?_
  · intro hi'
    exact absurd (hi.symm.trans hi') (by simp)
  · intro e he
    obtain ⟨e', he', ⟨-, rfl⟩ | ⟨-, rfl⟩⟩ := mem_withField he
    · simp
    · exact l.stored _ he'
  · intro r
    have : (t.withField n t.fieldCount).descriptors.map (·.name) = t.descriptors.map (·.name) := by
      simp only [Shape.withField, List.map_map]
      refine List.map_congr_left fun e _ => ?_
      by_cases he : e.name = n <;> simp [he]
    rw [this]
    exact l.names r
  · intro r e he i hi
    rw [l.fieldCount_withField r hd (by simp [hk, PropertyKind.isField])]
    obtain ⟨e', he', ⟨-, rfl⟩ | ⟨-, rfl⟩⟩ := mem_withField he
    · simp at hi
      omega
    · have := l.index_lt r _ he' i hi
      omega
  · intro r e he f hf i hi hi'
    obtain ⟨e', he', ⟨hen, rfl⟩ | ⟨hen, rfl⟩⟩ := mem_withField he <;>
      obtain ⟨f', hf', ⟨hfn, rfl⟩ | ⟨hfn, rfl⟩⟩ := mem_withField hf
    · rw [l.eq_of_name r he' hf' (hen.trans hfn.symm)]
    · have := l.index_lt r _ hf' i hi'
      simp at hi
      omega
    · have := l.index_lt r _ he' i hi
      simp at hi'
      omega
    · exact l.index_inj r _ he' _ hf' i hi hi'
  · intro r hy e he hl
    obtain ⟨e', he', ⟨hen, rfl⟩ | ⟨-, rfl⟩⟩ := mem_withField he
    · -- An array has no constant `length` to turn into a field.
      have := l.array r hy d hm (hn.trans (hen.symm.trans hl))
      simp [hk, PropertyKind.isAccessor] at this
    · exact l.array r hy _ he' hl

end Shape

namespace Heap

variable {rules : Rules} {h : Heap} {s : ShapeId} {id : ObjectId} {o : JsObject}

/-! ### Transitions -/

/-- What an operation that looks for a shape does: it may add shapes, and ends at a shape with the
given layout. -/
structure Finds (rules : Rules) (h : Heap) (layout : Shape) (r : ShapeId × Heap) : Prop where
  leads : Leads rules h r.2
  index_lt : r.1.index < r.2.shapes.size
  layout : (r.2.shape r.1).derive = layout.derive
  cells : r.2.cells = h.cells

/-- What an operation does that looks for a shape which objects may have. -/
structure Settles (rules : Rules) (h : Heap) (layout : Shape) (r : ShapeId × Heap) : Prop
    extends Finds rules h layout r where
  widened : r.2.Widened r.1

namespace Finds

variable {t : Shape} {r : ShapeId × Heap}

theorem object? (f : Finds rules h t r) : r.2.object? id = h.object? id := by
  simp [Heap.object?, cell?, f.cells]

/-- The shape found precedes whatever its layout precedes. -/
theorem precedes (f : Finds rules h t r) {u : Shape} (p : u.Precedes t) :
    u.Precedes (r.2.shape r.1) :=
  p.trans (.of_derive f.layout)

end Finds

/-- A new shape is found where it was added. -/
theorem Obeys.settles_new (ob : h.Obeys rules) {t : Shape} (legal : t.Legal rules h)
    (bare : t.elementsTransitions = {}) : Settles rules h t (h.addShape t) where
  leads := ob.leads_addShape legal bare
  index_lt := by simp
  layout := by simp
  cells := rfl
  widened s k e := by
    have := ob.target_lt (elementsTransition_of_addShape bare e)
    simp at this

/-- The target of a transition is the shape with one descriptor more. -/
theorem transitionTarget_spec (ob : h.Obeys rules) (hs : s.index < h.shapes.size) {d : Descriptor}
    (a : (h.shape s).Admits rules d) :
    Settles rules h ((h.shape s).extended d) (h.transitionTarget s d) := by
  have new := ob.settles_new ((ob.shape hs).extended a) rfl
  unfold transitionTarget
  split
  · rename_i target htarget
    obtain ⟨hlt, w, d', -, -, hl⟩ := (ob.shape hs).transitions htarget
    split
    · rename_i hlast
      have hd : (h.shape target).descriptors = (h.shape s).descriptors ++ [d'] := by
        simpa using congrArg Shape.descriptors hl
      have : d' = d := by simpa [Shape.lastAdded?, hd] using hlast
      subst this
      exact ⟨⟨ob.leads, hlt, hl, rfl⟩, w⟩
    · exact new
  · rename_i hnone
    -- The shape is new, and so is the transition to it.
    let f := fun t : Shape => { t with transitions := t.transitions.insert d.name ⟨h.shapes.size⟩ }
    have elements : ∀ t : Shape, (f t).elementsTransitions = t.elementsTransitions := fun _ => rfl
    have same : (h.addShape ((h.shape s).extended d)).2.shape s = h.shape s :=
      shape_addShape_of_lt hs
    have g : (h.addShape ((h.shape s).extended d)).2.Grows
        ((h.addShape ((h.shape s).extended d)).2.modifyShape s f) := by
      refine .modifyShape (fun _ => rfl) (fun n t e => ?_) elements
      rw [same] at e ⊢
      have hn : d.name ≠ n := fun hn => by rw [← hn, hnone] at e; cases e
      simpa [f, hn] using e
    have w := new.widened.mono g new.index_lt
    have hne : s ≠ ⟨h.shapes.size⟩ := fun e => by simp [e] at hs
    have l : Leads rules (h.addShape ((h.shape s).extended d)).2
        ((h.addShape ((h.shape s).extended d)).2.modifyShape s f) := by
      refine new.leads.obeys.leads_modifyShape g elements fun _ => ?_
      have l := new.leads.obeys.shape (s := s) (by simp; omega)
      refine l.of_layout g rfl (fun {n target} e => ?_)
        (fun e => (l.elementsTransitions e).mono g rfl) l.widens
      simp only [f, Table.get?_insert] at e
      split at e
      · rename_i hn
        obtain rfl : (⟨h.shapes.size⟩ : ShapeId) = target := by simpa using e
        refine ⟨by simp, w, d, hn, ?_, ?_⟩
        · rw [same]
          exact a.index
        · rw [shape_modifyShape_ne hne, shape_addShape_new, same]
          rfl
      · exact (l.transitions e).mono g rfl
    have layout : (((h.addShape ((h.shape s).extended d)).2.modifyShape s f).shape
        ⟨h.shapes.size⟩).derive = ((h.shape s).extended d).derive := by
      rw [shape_modifyShape_ne hne, shape_addShape_new]
    exact ⟨⟨new.leads.trans l, Nat.lt_of_lt_of_le new.index_lt g.shapes, layout, rfl⟩, w⟩

/-! ### Elements transitions -/

/-- The heap in which a new elements transition is recorded. -/
def recordElements (h : Heap) (s : ShapeId) (k : ElementsKind) : Heap :=
  (h.addShape ((h.shape s).withElements k)).2.modifyShape s fun t =>
    { t with elementsTransitions := t.elementsTransitions.insert k ⟨h.shapes.size⟩ }

section Record

variable {k : ElementsKind} (hs : s.index < h.shapes.size)

include hs

theorem shape_recordElements_self : (h.recordElements s k).shape s =
    { h.shape s with
      elementsTransitions := (h.shape s).elementsTransitions.insert k ⟨h.shapes.size⟩ } := by
  rw [recordElements, shape_modifyShape_self (by simp; omega), shape_addShape_of_lt hs]

theorem shape_recordElements_new :
    (h.recordElements s k).shape ⟨h.shapes.size⟩ = (h.shape s).withElements k := by
  rw [recordElements, shape_modifyShape_ne (fun e => by simp [e] at hs), shape_addShape_new]

omit hs in
theorem shape_recordElements_ne {t : ShapeId} (ht : t.index < h.shapes.size) (hne : s ≠ t) :
    (h.recordElements s k).shape t = h.shape t := by
  rw [recordElements, shape_modifyShape_ne hne, shape_addShape_of_lt ht]

/-- The transition that is recorded is the only new one. -/
theorem elementsTransition_of_record {t t' : ShapeId} {j : ElementsKind}
    (e : ((h.recordElements s k).shape t).elementsTransitions.get? j = some t') :
    (h.shape t).elementsTransitions.get? j = some t' ∨
      t = s ∧ j = k ∧ t' = ⟨h.shapes.size⟩ := by
  rcases shape_modifyShape_cases (h := (h.addShape ((h.shape s).withElements k)).2) (s := s)
    (f := fun t => { t with elementsTransitions := t.elementsTransitions.insert k ⟨h.shapes.size⟩ })
    t with e' | ⟨rfl, -⟩
  · rw [recordElements, e'] at e
    exact .inl (elementsTransition_of_addShape rfl e)
  · rw [shape_recordElements_self hs, Table.get?_insert] at e
    split at e
    · rename_i hk
      exact .inr ⟨rfl, hk.symm, (Option.some.inj e).symm⟩
    · exact .inl e

theorem derive_recordElements {t : ShapeId} (ht : t.index < h.shapes.size) :
    ((h.recordElements s k).shape t).derive = (h.shape t).derive := by
  by_cases hne : s = t
  · subst hne
    rw [shape_recordElements_self hs]
    rfl
  · rw [shape_recordElements_ne ht hne]

/-- Recording a transition lets the heap grow. -/
theorem Obeys.grows_recordElements (ob : h.Obeys rules)
    (unknown : (h.shape s).elementsTransitions.get? k = none) : h.Grows (h.recordElements s k) := by
  refine ⟨Nat.le_refl _, by simp [recordElements], derive_recordElements hs, fun {t n t'} e => ?_,
    fun {t j t'} e => ?_, fun e => ?_, fun e _ => e, fun {id o} e => ⟨o, e, rfl, ?_⟩⟩
  · by_cases hne : s = t
    · subst hne
      rwa [shape_recordElements_self hs]
    · rwa [shape_recordElements_ne (index_lt_of_transition e) hne]
  · by_cases hne : s = t
    · subst hne
      have hk : k ≠ j := fun hk => by rw [← hk, unknown] at e; cases e
      rw [shape_recordElements_self hs]
      simpa [hk] using e
    · rwa [shape_recordElements_ne (index_lt_of_elementsTransition e) hne]
  · rcases elementsTransition_of_record hs e with e | ⟨-, -, rfl⟩
    · exact .inl e
    · exact .inr (Nat.le_refl _)
  · exact .of_derive (derive_recordElements hs (ob.object e).shape_lt)

/-- A new transition of elements leads to a shape of the new kind. -/
theorem Obeys.finds_recordElements (ob : h.Obeys rules)
    (unknown : (h.shape s).elementsTransitions.get? k = none) (other : (h.shape s).elementsKind ≠ k)
    (widens : rules.widening → (h.shape s).elementsKind.generalizesTo k) :
    Finds rules h ((h.shape s).withElements k) (⟨h.shapes.size⟩, h.recordElements s k) := by
  have g := ob.grows_recordElements hs unknown
  have size : (h.recordElements s k).shapes.size = h.shapes.size + 1 := by simp [recordElements]
  refine ⟨ob.leads_of_wellFormed
      (ob.step g (fun t ht => ?_) (fun _ _ ho => .inl ho) (fun e e' hle => ?_) rfl) g rfl,
    by simp [size], by rw [shape_recordElements_new hs], rfl⟩
  -- The shape is an old one, the one that the transition is recorded at, or the new one.
  · by_cases hlt : t.index < h.shapes.size
    · by_cases hne : s = t
      · subst hne
        have legal := ob.shape hlt
        refine .inr (legal.of_layout g (derive_recordElements hs hlt) (fun e => ?_) (fun e => ?_)
          fun r {j target} e => ?_)
        · rw [shape_recordElements_self hs] at e
          exact (legal.transitions e).mono g (derive_recordElements hs hlt)
        · rcases elementsTransition_of_record hs e with e | ⟨-, rfl, rfl⟩
          · exact (legal.elementsTransitions e).mono g (derive_recordElements hs hlt)
          · rw [shape_recordElements_self hs]
            refine ⟨by simp [size], ?_, other⟩
            rw [shape_recordElements_new hs]
            rfl
        · rw [shape_recordElements_self hs]
          rcases elementsTransition_of_record hs e with e | ⟨-, rfl, -⟩
          · exact legal.widens r e
          · exact widens r
      · rw [shape_recordElements_ne hlt hne]
        exact .inl ⟨hlt, rfl, rfl⟩
    · obtain rfl : t = ⟨h.shapes.size⟩ := by
        cases t
        simp [size] at hlt ht ⊢
        omega
      rw [shape_recordElements_new hs]
      exact .inr (((ob.shape hs).withElements k).mono g rfl rfl rfl)
  · rcases elementsTransition_of_record hs e with e | ⟨rfl, -, -⟩
    · exact absurd (ob.target_lt e) (by omega)
    · rcases elementsTransition_of_record hs e' with e' | ⟨rfl, -, -⟩
      · exact absurd (ob.target_lt e') (by omega)
      · rfl

end Record

/-- A transition of elements leads to the same layout with the other kind. -/
theorem elementsTransition_spec (ob : h.Obeys rules) (hs : s.index < h.shapes.size)
    {k : ElementsKind} (le : rules.widening → (h.shape s).elementsKind.le k) :
    Finds rules h ((h.shape s).withElements k) (h.elementsTransition s k) := by
  unfold elementsTransition
  split
  · rename_i hk
    exact ⟨ob.leads, hs, by subst hk; rfl, rfl⟩
  rename_i hk
  split
  · rename_i target htarget
    obtain ⟨hlt, hl, -⟩ := (ob.shape hs).elementsTransitions htarget
    exact ⟨ob.leads, hlt, hl, rfl⟩
  · exact ob.finds_recordElements hs ‹_› hk fun r => ElementsKind.generalizesTo_of_le (le r) hk

/-- A transition to a more general kind leads to a shape that objects may have. -/
theorem elementsTransition_settles (ob : h.Obeys rules) (hs : s.index < h.shapes.size)
    (w : h.Widened s) {k : ElementsKind} (le : (h.shape s).elementsKind.le k) :
    Settles rules h ((h.shape s).withElements k) (h.elementsTransition s k) := by
  refine ⟨elementsTransition_spec ob hs fun _ => le, ?_⟩
  unfold elementsTransition
  split
  · exact w
  split
  · rename_i target htarget
    intro s' k' e
    obtain rfl := ob.source htarget e
    -- The kind of the target says under which kind it is recorded.
    have hl := ((ob.shape hs).elementsTransitions htarget).2.1
    have hl' := ((ob.shape hs).elementsTransitions e).2.1
    have hk : k = k' := by simpa using congrArg Shape.elementsKind (hl.symm.trans hl')
    rwa [← hk]
  · have new : (h.recordElements s k).Widened ⟨h.shapes.size⟩ := by
      intro s' k' e
      rcases elementsTransition_of_record hs e with e | ⟨rfl, rfl, -⟩
      · exact absurd (ob.target_lt e) (by simp)
      · rwa [shape_recordElements_self hs]
    exact new

/-! ### Moving objects -/

/-- An object that changes its data, or moves to a shape that its own precedes. -/
theorem Obeys.leads_move (ob : h.Obeys rules) {f : JsObject → JsObject}
    (move : ∀ o, h.object? id = some o → (f o).objectClass = o.objectClass ∧
      (f o).shape.index < h.shapes.size ∧ h.Widened (f o).shape ∧
      (h.shapeOf o).Precedes (h.shapeOf (f o)) ∧
      (rules.freshNames → (f o).fields.length = (h.shapeOf (f o)).fieldCount) ∧
      (rules.plainArrays → o.objectClass = .array → (f o).dictionary.get? .length = none) ∧
      ((h.shapeOf (f o)).isDictionary = false → o.dictionary = {} → (f o).dictionary = {})) :
    Leads rules h (h.modifyObject id f) := by
  refine ob.leads_modifyObject fun o ho => ?_
  obtain ⟨hc, hlt, w, p, hf, ha, hd⟩ := move o ho
  have fits := ob.object ho
  refine ⟨by rw [hc], p, ?_⟩
  exact {
    shape_lt := hlt
    widened := w
    type := by rw [hc, p.instanceType, fits.type]
    prototype_lt := fun e => fits.prototype_lt (p.prototype ▸ e)
    global := fun e => ⟨(fits.global (hc ▸ e)).1, p.dictionary (fits.global (hc ▸ e)).2⟩
    proxy := fun e => ⟨(fits.proxy (hc ▸ e)).1, p.prototype.trans (fits.proxy (hc ▸ e)).2⟩
    fields := hf
    fast := fun hi => by
      refine hd hi (fits.fast ?_)
      rw [Bool.eq_false_iff] at hi ⊢
      exact fun e => hi (p.dictionary e)
    array := fun r e => ha r (hc ▸ e)
    wrapper := fun r _ e => fits.wrapper r (hc ▸ e)
    arguments := fun e => ElementsKind.tagged_of_le p.elements (fits.arguments (hc ▸ e))
    function := fun e => fits.function (hc ▸ e) }

/-- An object that changes its data but neither its class, its shape nor its properties. -/
theorem Obeys.leads_data (ob : h.Obeys rules) {f : JsObject → JsObject}
    (same : ∀ o, (f o).objectClass = o.objectClass ∧ (f o).shape = o.shape ∧
      (f o).fields.length = o.fields.length ∧ (f o).dictionary = o.dictionary) :
    Leads rules h (h.modifyObject id f) := by
  refine ob.leads_move fun o ho => ?_
  obtain ⟨hc, hs, hf, hd⟩ := same o
  have fits := ob.object ho
  refine ⟨hc, by rw [hs]; exact fits.shape_lt, by rw [hs]; exact fits.widened, ?_, fun r => ?_,
    fun r e => ?_, fun _ e => hd.trans e⟩
  · simp only [shapeOf, hs]
    exact .refl _
  · simp only [shapeOf, hs, hf]
    exact fits.fields r
  · rw [hd]
    exact fits.array r e

/-- An object that moves to a shape which was found for it. -/
theorem Settles.leads_move {t : Shape} {r : ShapeId × Heap} {f : JsObject → JsObject}
    (fd : Settles rules h t r) (ob : h.Obeys rules) (ho : h.object? id = some o)
    (hc : (f o).objectClass = o.objectClass) (hs : (f o).shape = r.1)
    (p : (h.shapeOf o).Precedes t)
    (fields : rules.freshNames → (f o).fields.length = t.fieldCount)
    (array : rules.plainArrays → o.objectClass = .array → (f o).dictionary.get? .length = none)
    (dictionary : t.isDictionary = false → o.dictionary = {} → (f o).dictionary = {}) :
    Leads rules h (r.2.modifyObject id f) := by
  have before : (r.2.shapeOf o).Precedes (h.shapeOf o) :=
    .of_derive (fd.leads.grows.derive_shapeOf (ob.object ho).shape_lt).symm
  refine fd.leads.trans (fd.leads.obeys.leads_move fun o' ho' => ?_)
  obtain rfl : o = o' := by simpa [ho] using fd.object?.symm.trans ho'
  have after : r.2.shapeOf (f o) = r.2.shape r.1 := by rw [shapeOf, hs]
  refine ⟨hc, by rw [hs]; exact fd.index_lt, by rw [hs]; exact fd.widened, ?_, fun r' => ?_, array, ?_⟩
  · rw [after]
    exact before.trans (fd.precedes p)
  · rw [after, Shape.fieldCount_of_derive fd.layout]
    exact fields r'
  · rw [after]
    exact fun hi => dictionary (by simpa [hi] using (congrArg Shape.isDictionary fd.layout).symm)

/-! ### Properties -/

theorem MayAdd.admits {name : Name} (m : MayAdd rules h id name) (ho : h.object? id = some o)
    (hi : (h.shapeOf o).isDictionary = false) (ob : h.Obeys rules) {d : Descriptor}
    (hn : d.name = name) (stored : d.kind ≠ .normal)
    (index : ∀ i, d.kind = .field i → i = (h.shapeOf o).fieldCount) :
    (h.shapeOf o).Admits rules d where
  stored := stored
  accessor := fun e => absurd (hi.symm.trans e) (by simp)
  index := index
  fresh := fun r => hn ▸ m.fresh r o ho hi
  array := fun r e hl => by
    refine absurd ?_ (m.array r (hn ▸ hl) o ho)
    exact ObjectClass.instanceType_eq_array.1 ((ob.object ho).type ▸ e)

/-- A new entry in the dictionary of an object that is in dictionary mode. -/
theorem putEntry_leads (ob : h.Obeys rules) {name : Name} (m : MayAdd rules h id name)
    (mode : ∀ o, h.object? id = some o → (h.shapeOf o).isDictionary) (e : DictionaryEntry) :
    Leads rules h (h.putEntry id name e) := by
  refine ob.leads_move fun o ho => ?_
  have fits := ob.object ho
  refine ⟨rfl, fits.shape_lt, fits.widened, .refl _, fits.fields, fun r hc => ?_,
    fun hi => absurd (mode o ho) (by simpa [shapeOf] using hi)⟩
  have hn : name ≠ .length := fun hn => m.array r hn o ho hc
  simpa [hn] using fits.array r hc

theorem addProperty_leads (ob : h.Obeys rules) {name : Name} (m : MayAdd rules h id name)
    (v : Value) (a : Attributes) : Leads rules h (h.addProperty id name v a) := by
  unfold addProperty
  split
  · exact ob.leads
  rename_i o ho
  have fits := ob.object ho
  by_cases hi : (h.shapeOf o).isDictionary
  · simp only [hi, if_true]
    refine putEntry_leads ob m (fun o' ho' => ?_) _
    obtain rfl := Option.some.inj (ho.symm.trans ho')
    exact hi
  · simp only [hi]
    have hi' : (h.shapeOf o).isDictionary = false := by simpa using hi
    have fd := transitionTarget_spec ob fits.shape_lt
      (d := ⟨name, .field (h.shapeOf o).fieldCount, a⟩)
      (m.admits ho hi' ob rfl (by simp) (by simp))
    refine fd.leads_move ob ho rfl rfl (Shape.precedes_extended _) (fun r => ?_)
      (fun r hc => fits.array r hc) fun _ e => e
    rw [Shape.fieldCount_extended]
    simpa [PropertyKind.isField, shapeOf] using fits.fields r

theorem addConstant_leads (ob : h.Obeys rules) {name : Name} (m : MayAdd rules h id name)
    (v : Value) (a : Attributes) : Leads rules h (h.addConstant id name v a) := by
  unfold addConstant
  split
  · exact ob.leads
  rename_i o ho
  have fits := ob.object ho
  by_cases hi : (h.shapeOf o).isDictionary
  · simp only [hi, if_true]
    exact addProperty_leads ob m v a
  · simp only [hi]
    have fd := transitionTarget_spec ob fits.shape_lt (d := ⟨name, .constant v, a⟩)
      (m.admits ho (by simpa using hi) ob rfl (by simp) (by simp))
    refine fd.leads_move ob ho rfl rfl (Shape.precedes_extended _) (fun r => ?_)
      (fun r hc => fits.array r hc) fun _ e => e
    rw [Shape.fieldCount_extended]
    simpa [PropertyKind.isField, shapeOf] using fits.fields r

theorem addAccessor_leads (ob : h.Obeys rules) {name : Name}
    (fresh : rules.freshNames → ∀ o, h.object? id = some o →
      (h.shapeOf o).descriptor? name = none) (getter setter : Value) :
    Leads rules h (h.addAccessor id name getter setter) := by
  unfold addAccessor
  split
  · exact ob.leads
  rename_i o ho
  have fits := ob.object ho
  have fd := transitionTarget_spec ob fits.shape_lt
    (d := ⟨name, .accessor getter setter, { dontEnum := true }⟩)
    ⟨by simp, fun _ => rfl, by simp, fun r => fresh r o ho, fun _ _ _ => rfl⟩
  refine fd.leads_move ob ho rfl rfl (Shape.precedes_extended _) (fun r => ?_)
    (fun r hc => fits.array r hc) fun _ e => e
  rw [Shape.fieldCount_extended]
  simpa [PropertyKind.isField, shapeOf] using fits.fields r

theorem constantToField_leads (ob : h.Obeys rules) {name : Name} (v : Value)
    (constant : ∀ o, h.object? id = some o → ∃ d c,
      (h.shapeOf o).descriptor? name = some d ∧ d.kind = .constant c) :
    Leads rules h (h.constantToField id name v) := by
  unfold constantToField
  split
  · exact ob.leads
  rename_i o ho
  have fits := ob.object ho
  obtain ⟨d, c, hd, hk⟩ := constant o ho
  have legal := ob.shape fits.shape_lt
  have fd := ob.settles_new (legal.withField hd hk) rfl
  refine fd.leads_move ob ho rfl rfl Shape.precedes_withField (fun r => ?_)
    (fun r hc => fits.array r hc) fun _ e => e
  have hc := legal.fieldCount_withField (i := (h.shapeOf o).fieldCount) r hd
    (by simp [hk, PropertyKind.isField])
  simp only [List.length_append, List.length_singleton, fits.fields r]
  exact hc.symm

theorem setInterceptor_leads (ob : h.Obeys rules) (values : Table Name Value) :
    Leads rules h (h.setInterceptor id values) := by
  unfold setInterceptor
  split
  · exact ob.leads
  rename_i o ho
  have fits := ob.object ho
  have fd := ob.settles_new (ob.shape fits.shape_lt).intercepted rfl
  exact fd.leads_move ob ho rfl rfl Shape.precedes_intercepted fits.fields fits.array
    fun _ e => e

theorem setField_leads (ob : h.Obeys rules) (index : Nat) (v : Value) :
    Leads rules h (h.setField id index v) :=
  ob.leads_data fun _ => ⟨rfl, rfl, by simp, rfl⟩

theorem setDictionaryValue_leads (ob : h.Obeys rules) (name : Name) (v : Value) :
    Leads rules h (h.setDictionaryValue id name v) := by
  refine ob.leads_move fun o ho => ?_
  have fits := ob.object ho
  split
  · rename_i e he
    refine ⟨rfl, fits.shape_lt, fits.widened, .refl _, fits.fields, fun r hc => ?_, fun _ empty => ?_⟩
    · have hn : name ≠ .length := fun hn => by simp [hn, fits.array r hc] at he
      simpa [hn] using fits.array r hc
    · rw [empty] at he
      cases he
  · exact ⟨rfl, fits.shape_lt, fits.widened, .refl _, fits.fields, fits.array, fun _ e => e⟩

theorem setCallHandler_leads (ob : h.Obeys rules) (handler : ObjectId) :
    Leads rules h (h.setCallHandler id handler) :=
  ob.leads_data fun _ => ⟨rfl, rfl, rfl, rfl⟩

end Heap

end Speculation
