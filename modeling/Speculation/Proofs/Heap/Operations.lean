import Speculation.Heap.Create
import Speculation.Proofs.Action
import Speculation.Proofs.Heap.Lookup

/-!
# Operations keep heaps well formed

For every operation of the heap that calls nothing, a lemma says that it leads from a well-formed
heap to a well-formed heap that has grown, whatever its result. Those that add properties, wrap
values or take a prototype ask that the rules are kept.
-/

namespace Speculation

namespace Heap

variable {rules : Rules} {h h' : Heap} {id : ObjectId} {o : JsObject}

/-! ### Dictionary mode -/

/-- A property may be added where there is none. -/
theorem mayAdd_of_ownReal {name : Name} (hr : h.resolveProxy id = id)
    (hf : h.ownReal id name = .notFound)
    (harr : ¬ (name = .length ∧ h.isArray (.object id))) : MayAdd rules h id name where
  fresh := fun _ o ho _ => by
    rw [ownReal_eq hr ho, Lookup.ofOwned_eq_notFound] at hf
    exact Shape.descriptor?_of_owned?_none hf
  array := fun _ hn o ho hc => harr ⟨hn, isArray_eq_true.2 ⟨o, ho, hc⟩⟩

theorem get?_foldl_insert {es : List (Name × DictionaryEntry)} {n : Name}
    (t : Table Name DictionaryEntry) (he : ∀ e ∈ es, e.1 ≠ n) :
    (es.foldl (fun t e => t.insert e.1 e.2) t).get? n = t.get? n := by
  induction es generalizing t with
  | nil => rfl
  | cons e es ih =>
    rw [List.forall_mem_cons] at he
    rw [List.foldl_cons, ih _ he.2, Table.get?_insert, if_neg he.1]

/-- Entries of one name that agree. -/
theorem get?_foldl_insert_of_mem {es : List (Name × DictionaryEntry)} {n : Name}
    {x : DictionaryEntry} (t : Table Name DictionaryEntry) (mem : ∃ e ∈ es, e.1 = n)
    (agree : ∀ e ∈ es, e.1 = n → e.2 = x) :
    (es.foldl (fun t e => t.insert e.1 e.2) t).get? n = some x := by
  induction es generalizing t with
  | nil => simp at mem
  | cons e es ih =>
    rw [List.forall_mem_cons] at agree
    by_cases later : ∃ e ∈ es, e.1 = n
    · exact ih _ later agree.2
    · obtain ⟨e', he', hn⟩ := mem
      obtain rfl : e' = e := by
        rcases List.mem_cons.mp he' with same | he'
        · exact same
        · exact absurd ⟨e', he', hn⟩ later
      rw [List.foldl_cons, get?_foldl_insert _ fun e he hn => later ⟨e, he, hn⟩,
        Table.get?_insert, if_pos hn, agree.1 hn]

/-- A data descriptor turns into an entry of its name. -/
theorem entryOf?_eq_some {fields : List Value} {d : Descriptor} {e : Name × DictionaryEntry}
    (he : entryOf? fields d = some e) : e.1 = d.name ∧ ¬ d.kind.isAccessor := by
  unfold entryOf? at he
  cases hk : d.kind <;> simp_all [PropertyKind.isAccessor] <;> simp [← he]

theorem normalize_leads (ob : h.Obeys rules) (id : ObjectId) :
    Leads rules h (h.normalize id) := by
  unfold normalize
  split
  · exact ob.leads
  rename_i o ho
  by_cases hi : (h.shapeOf o).isDictionary
  · simpa only [hi, if_true] using ob.leads
  simp only [hi]
  have fits := ob.object ho
  have legal := ob.shape fits.shape_lt
  refine (ob.settles_new legal.normalized rfl).leads_move ob ho rfl rfl Shape.precedes_normalized
    (fun _ => by rw [Shape.fieldCount_normalized]; rfl) (fun r hc => ?_) fun hi => by cases hi
  refine (get?_foldl_insert _ fun e he => ?_).trans (fits.array r hc)
  obtain ⟨d, hd, he⟩ := List.mem_filterMap.1 he
  obtain ⟨hn, hk⟩ := entryOf?_eq_some he
  have hy : (h.shapeOf o).instanceType = .array := by rw [fits.type, hc]; rfl
  exact fun hl => hk (legal.array r hy d hd (hn.symm.trans hl))

theorem eraseEntry_leads (ob : h.Obeys rules) (id : ObjectId) (name : Name) :
    Leads rules h (h.modifyObject id fun o => { o with dictionary := o.dictionary.erase name }) := by
  refine ob.leads_move fun o ho => ?_
  have fits := ob.object ho
  refine ⟨rfl, fits.shape_lt, fits.widened, .refl _, fits.fields, fun r hc => ?_,
    fun _ empty => by rw [empty]; rfl⟩
  by_cases hn : name = .length <;> simp [hn, fits.array r hc]

theorem delete_leads (ob : h.Obeys rules) (id : ObjectId) (name : Name) :
    Leads rules h (h.delete id name).2 := by
  simp only [delete]
  split
  · exact ob.leads
  have norm := normalize_leads ob (h.resolveProxy id)
  split
  · exact norm
  split
  · split
    · exact norm
    · exact norm.trans (eraseEntry_leads norm.obeys _ name)
  · exact norm

/-! ### Elements -/

theorem generalizeElements_leads (ob : h.Obeys rules) (id : ObjectId) (kind : ElementsKind) :
    Leads rules h (h.generalizeElements id kind) := by
  unfold generalizeElements
  split
  · exact ob.leads
  rename_i o ho
  split
  · rename_i general
    have fits := ob.object ho
    have le := ElementsKind.le_of_generalizesTo general
    exact (elementsTransition_settles ob fits.shape_lt fits.widened le).leads_move ob ho rfl rfl
      (Shape.precedes_withElements le) fits.fields fits.array fun _ e => e
  · exact ob.leads

theorem writeElement_leads (ob : h.Obeys rules) (id : ObjectId) (index : Nat) (v : Value) :
    Leads rules h (h.writeElement id index v) :=
  ob.leads_data fun _ => ⟨rfl, rfl, rfl, rfl⟩

theorem storeElement_leads (ob : h.Obeys rules) {index : Nat} {v : Value}
    (hs : h.storeElement id index v = .ok h') : Leads rules h h' := by
  unfold storeElement at hs
  split at hs
  · cases hs
    exact ob.leads
  · dsimp only at hs
    split at hs
    · cases hs
    · injection hs with hs
      rw [← hs]
      have g := generalizeElements_leads ob id
      exact (g _).trans (writeElement_leads (g _).obeys id index v)

theorem storeArrayLength_leads (ob : h.Obeys rules) {v : Value}
    (hs : h.storeArrayLength id v = .ok h') : Leads rules h h' := by
  unfold storeArrayLength at hs
  split at hs
  · cases hs
  split at hs
  · cases hs
    exact ob.leads
  split at hs
  · cases hs
  · injection hs with hs
    rw [← hs]
    have data : ∀ {g : Heap} {length : Nat}, g.Obeys rules →
        Leads rules g (g.modifyObject id fun o => { o with elements := resize o.elements length }) :=
      fun ob => ob.leads_data fun _ => ⟨rfl, rfl, rfl, rfl⟩
    split
    · have g := generalizeElements_leads ob id
      exact (g _).trans (data (g _).obeys)
    · exact data ob

/-! ### New cells and objects -/

theorem allocate_leads (ob : h.Obeys rules) {c : Cell}
    (fits : ∀ o, c = .object o → o.Fits rules h ⟨h.cells.size⟩) :
    Leads rules h (allocate c h).2 := by
  simp only [allocate, Computation.get_bind]
  split
  · exact ob.leads_push c fits
  · exact ob.leads

/-- A new object of a shape that its class may have. -/
theorem allocateObject_leads (ob : h.Obeys rules) {s : ShapeId} {c : ObjectClass}
    (elements : Array Value) (hs : s.index < h.shapes.size) (w : h.Widened s)
    (type : (h.shape s).instanceType = c.instanceType) (global : c ≠ .global)
    (proxy : ∀ g, c ≠ .globalProxy g)
    (wrapper : rules.stringWrappers → ∀ v, c = .stringWrapper v → h.isString v)
    (arguments : ∀ callee strict, c = .arguments callee strict →
      (h.shape s).elementsKind.storage = .tagged)
    (function : ∀ d, c = .function d →
      ∃ p x, d.prototype = .object p ∧ h.object? p = some x ∧ x.objectClass = .plain) :
    Leads rules h (allocateObject s c elements h).2 := by
  simp only [allocateObject, Computation.get_bind]
  refine allocate_leads ob fun o ho => ?_
  cases ho
  exact {
    shape_lt := hs
    widened := w
    type := type
    prototype_lt := (ob.shape hs).prototype_lt
    global := fun e => absurd e global
    proxy := fun e => absurd e (proxy _)
    fields := fun _ => by simp [shapeOf]
    fast := fun _ => rfl
    array := fun _ _ => rfl
    wrapper := fun r _ e => wrapper r _ e
    arguments := fun e => arguments _ _ e
    function := fun e => function _ e }

/-- A root shape keeps its layout, and objects may have it. -/
theorem Obeys.root_shape (ob : h.Obeys rules) {s : ShapeId}
    (hs : s.index < Heap.roots.shapes.size) : s.index < h.shapes.size ∧ h.Widened s ∧
      (h.shape s).instanceType = (Heap.roots.shape s).instanceType ∧
      (h.shape s).elementsKind = (Heap.roots.shape s).elementsKind :=
  ⟨Nat.lt_of_lt_of_le hs ob.roots.shapes, ob.rootShapes hs,
    (Shape.Precedes.of_derive (ob.roots.layout hs)).instanceType,
    by simpa using congrArg Shape.elementsKind (ob.roots.layout hs)⟩

theorem boxNumber_leads (ob : h.Obeys rules) (d : Double) : Leads rules h (boxNumber d h).2 := by
  unfold boxNumber
  exact Computation.bind_rel Leads.trans (allocate_leads ob (by simp))
    fun _ _ => (allocate_leads ob (by simp)).obeys.leads

theorem newString_leads (ob : h.Obeys rules) (s : String) : Leads rules h (newString s h).2 := by
  unfold newString
  exact Computation.bind_rel Leads.trans (allocate_leads ob (by simp))
    fun _ _ => (allocate_leads ob (by simp)).obeys.leads

theorem newNumber_leads (ob : h.Obeys rules) (d : Double) : Leads rules h (newNumber d h).2 := by
  unfold newNumber
  cases smiOfNumber? d with
  | some v => exact ob.leads
  | none => exact boxNumber_leads ob d

theorem internalize_leads (ob : h.Obeys rules) (s : String) :
    Leads rules h (internalize s h).2 := by
  simp only [internalize, Computation.get_bind]
  cases h.internalized.get? s with
  | some id => exact ob.leads
  | none =>
    have a := allocate_leads (c := .string s true) ob (by simp)
    refine Computation.bind_rel Leads.trans a fun _ _ => ?_
    exact a.obeys.leads_of_eq rfl rfl rfl rfl

theorem newObject_leads (ob : h.Obeys rules) : Leads rules h (newObject h).2 := by
  obtain ⟨hs, w, ht, -⟩ := ob.root_shape (s := objectShape) (by decide)
  exact allocateObject_leads ob _ hs w ht (by simp) (by simp) (by simp) (by simp) (by simp)

/-- A first shape for plain objects with a prototype. -/
theorem Obeys.leads_initial (ob : h.Obeys rules) {p : ObjectId} {s : ShapeId}
    (hs : s.index < h.shapes.size) (w : h.Widened s)
    (hl : (h.shape s).derive = initialLayout (some p)) :
    Leads rules h { h with initialShapes := h.initialShapes.insert (some p) s } := by
  have g : h.Grows { h with initialShapes := h.initialShapes.insert (some p) s } :=
    .of_eq rfl rfl
  refine ob.leads_of_wellFormed ?_ g rfl
  exact {
    roots := ob.roots.trans g
    shape := fun hs => (ob.shape hs).mono g rfl rfl rfl
    object := fun ho => (ob.object ho).mono g
    source := ob.source
    rootShapes := ob.rootShapes
    initialShapes := fun {key s'} e => by
      rw [Table.get?_insert] at e
      split at e
      · rename_i hk
        cases e
        exact ⟨hs, w, hk ▸ hl⟩
      · exact ob.initialShapes e
    initialShapes_none := by simpa using ob.initialShapes_none }

/-- The first shape for a prototype is the one kept for it. -/
theorem initialShape_spec (ob : h.Obeys rules) {prototype : Value}
    (m : MayInherit rules h prototype) :
    Settles rules h (initialLayout prototype.objectId?) (h.initialShape prototype) := by
  cases e : h.initialShapes.get? prototype.objectId? with
  | some s =>
    obtain ⟨hs, w, hl⟩ := ob.initialShapes e
    simp only [initialShape, e]
    exact ⟨⟨ob.leads, hs, hl, rfl⟩, w⟩
  | none =>
    simp only [initialShape, e]
    obtain ⟨p, rfl⟩ : ∃ p, prototype = .object p := by
      cases prototype with
      | object p => exact ⟨p, rfl⟩
      | _ => simp [Value.objectId?, ob.initialShapes_none] at e
    have legal : (Shape.make .object (.object p) .packedSmi).Legal rules h :=
      .make _ _ m.allocated (fun r => .inr (m.object r p rfl)) (.inr ⟨p, rfl⟩)
    have fd := ob.settles_new legal rfl
    have g := fd.leads.obeys.leads_initial (p := p) fd.index_lt fd.widened fd.layout
    exact ⟨⟨fd.leads.trans g, fd.index_lt, fd.layout, rfl⟩, fd.widened⟩

theorem newObjectWithPrototype_leads (ob : h.Obeys rules) {prototype : Value}
    (m : MayInherit rules h prototype) :
    Leads rules h (newObjectWithPrototype prototype h).2 := by
  have fd := initialShape_spec ob m
  unfold newObjectWithPrototype
  refine Computation.bind_rel Leads.trans fd.leads fun s hs => ?_
  obtain rfl := Except.ok.inj hs
  refine allocateObject_leads fd.leads.obeys _ fd.index_lt fd.widened ?_ (by simp) (by simp)
    (by simp) (by simp) (by simp)
  exact (Shape.Precedes.of_derive fd.layout).instanceType

section Arrays

variable (ob : h.Obeys rules)

include ob

/-- Every kind is at least as general as that of an empty array. -/
theorem arrayShape_settles (kind : ElementsKind) :
    Settles rules h ((h.shape arrayShape).withElements kind)
      (h.elementsTransition arrayShape kind) := by
  obtain ⟨hs, w, -, hk⟩ := ob.root_shape (s := arrayShape) (by decide)
  exact elementsTransition_settles ob hs w (by rw [hk]; exact ElementsKind.packedSmi_le _)

theorem allocateArray_leads (kind : ElementsKind) (elements : Array Value) :
    let r := h.elementsTransition arrayShape kind
    Leads rules r.2 (allocateObject r.1 .array elements r.2).2 := by
  have fd := arrayShape_settles ob kind
  obtain ⟨-, -, ht, -⟩ := ob.root_shape (s := arrayShape) (by decide)
  refine allocateObject_leads fd.leads.obeys _ fd.index_lt fd.widened ?_ (by simp) (by simp)
    (by simp) (by simp) (by simp)
  exact (Shape.Precedes.of_derive fd.layout).instanceType.trans ht

theorem newArray_leads (elements : List Value) : Leads rules h (newArray elements h).2 := by
  simp only [newArray, Computation.get_bind]
  refine Computation.bind_rel Leads.trans (arrayShape_settles ob _).leads fun s hs => ?_
  obtain rfl := Except.ok.inj hs
  exact allocateArray_leads ob _ elements.toArray

end Arrays

theorem newStringWrapper_leads (ob : h.Obeys rules) {string : Value}
    (wraps : rules.stringWrappers → h.isString string) :
    Leads rules h (newStringWrapper string h).2 := by
  obtain ⟨hs, w, ht, -⟩ := ob.root_shape (s := stringWrapperShape) (by decide)
  refine allocateObject_leads ob _ hs w ht (by simp) (by simp) (fun r v hv => ?_) (by simp) (by simp)
  cases hv
  exact wraps r

/-- An allocation hands out the next place. -/
theorem allocate_eq_ok {c : Cell} (ha : (allocate c h).1 = .ok id) :
    id = ⟨h.cells.size⟩ ∧ (allocate c h).2 = { h with cells := h.cells.push c } := by
  simp only [allocate, Computation.get_bind] at ha ⊢
  cases hc : h.allocationAllowed with
  | false => simp [hc] at ha
  | true =>
    simp only [hc, if_true, Computation.set_bind, Computation.pure_apply] at ha ⊢
    exact ⟨(Except.ok.inj ha).symm, trivial⟩

/-- The object that was allocated last. -/
theorem object?_allocateObject {s : ShapeId} {c : ObjectClass} {elements : Array Value}
    (ha : (allocateObject s c elements h).1 = .ok id) :
    (allocateObject s c elements h).2.object? id = some
      { shape := s, objectClass := c, elements
        fields := List.replicate (h.shape s).fieldCount .undefined } := by
  simp only [allocateObject, Computation.get_bind] at ha ⊢
  obtain ⟨rfl, e⟩ := allocate_eq_ok ha
  rw [e]
  simp [object?, cell?]

section Arguments

variable (ob : h.Obeys rules) (callee : Value) (values : List Value) (strict : Bool)

include ob

theorem allocateArguments_leads : Leads rules h
    (allocateObject argumentsShape (.arguments callee strict) values.toArray h).2 := by
  obtain ⟨hs, w, ht, hk⟩ := ob.root_shape (s := argumentsShape) (by decide)
  exact allocateObject_leads ob values.toArray hs w ht (by simp) (by simp) (by simp)
    (fun _ _ _ => by rw [hk]; rfl) (by simp)

/-- New arguments may be given a length. -/
theorem mayAdd_argumentsLength
    (created : (allocateObject argumentsShape (.arguments callee strict) values.toArray h).1 = .ok id) :
    MayAdd rules (allocateObject argumentsShape (.arguments callee strict) values.toArray h).2 id
      .length := by
  have obeys := (allocateArguments_leads ob callee values strict).obeys
  have ho := object?_allocateObject created
  refine ⟨fun _ o ho' _ => ?_, fun _ _ o ho' hc => ?_⟩
  · -- The new object has the root shape, which describes no property.
    obtain rfl := Option.some.inj (ho.symm.trans ho')
    have hd := congrArg Shape.descriptors (obeys.roots.layout (s := argumentsShape) (by decide))
    exact congrArg (List.find? _) hd
  · obtain rfl := Option.some.inj (ho.symm.trans ho')
    cases hc

theorem argumentsLength_leads
    (created : (allocateObject argumentsShape (.arguments callee strict) values.toArray h).1 = .ok id)
    (v : Value) (attributes : Attributes) :
    let h' := (allocateObject argumentsShape (.arguments callee strict) values.toArray h).2
    Leads rules h' (h'.addProperty id .length v attributes) :=
  addProperty_leads (allocateArguments_leads ob callee values strict).obeys
    (mayAdd_argumentsLength ob callee values strict created) _ _

theorem newArguments_leads : Leads rules h (newArguments callee values strict h).2 := by
  unfold newArguments
  exact Computation.bind_rel Leads.trans (allocateArguments_leads ob callee values strict)
    fun id created => argumentsLength_leads ob callee values strict created _ _

end Arguments

/-! ### Functions -/

theorem newShared_leads (ob : h.Obeys rules) (name : String) (formals : Nat)
    (code : Option CodeId) : Leads rules h (newShared name formals code h).2 :=
  ob.leads_of_eq rfl rfl rfl rfl

theorem newClosure_leads (ob : h.Obeys rules) (shared : SharedId) (code : Option CodeId)
    (host : Option HostFunction) : Leads rules h (newClosure shared code host h).2 := by
  unfold newClosure
  have a := newObject_leads ob
  refine Computation.bind_rel Leads.trans a fun p hp => ?_
  obtain ⟨hs, w, ht, -⟩ := a.obeys.root_shape (s := functionShape) (by decide)
  refine allocateObject_leads a.obeys _ hs w ht (by simp) (by simp) (by simp) (by simp) fun d hd => ?_
  cases hd
  exact ⟨p, _, rfl, object?_allocateObject hp, rfl⟩

theorem newFunction_leads (ob : h.Obeys rules) (shared : SharedId) :
    Leads rules h (newFunction shared h).2 := by
  -- By rewriting: simplification would leave it to the kernel to compare two computations.
  rw [newFunction, Computation.get_bind]
  exact newClosure_leads ob shared _ none

theorem newHostFunction_leads (ob : h.Obeys rules) (name : String) (formals : Nat)
    (host : HostFunction) : Leads rules h (newHostFunction name formals host h).2 := by
  have a := newShared_leads ob name formals none
  unfold newHostFunction
  exact Computation.bind_rel Leads.trans a fun shared _ => newClosure_leads a.obeys shared _ _

theorem modifyShared_leads (ob : h.Obeys rules) (s : SharedId) (f : SharedInfo → SharedInfo) :
    Leads rules h (h.modifyShared s f) :=
  ob.leads_of_eq rfl rfl rfl rfl

theorem intern_leads (ob : h.Obeys rules) (n : Name) : Leads rules h (h.intern n) := by
  unfold intern
  split
  · exact ob.leads
  · exact ob.leads_of_eq rfl rfl rfl rfl

/-- A change of the code or the context of a function. -/
theorem modifyFunction_leads (ob : h.Obeys rules) {f : FunctionData → FunctionData}
    (same : ∀ d, ({ f d with code := none, context := .undefined } : FunctionData) =
      { d with code := none, context := .undefined }) :
    Leads rules h (h.modifyFunction id f) := by
  refine ob.leads_modifyObject fun o ho => ?_
  have fits := ob.object ho
  cases hc : o.objectClass with
  | function d =>
    refine ⟨by simp [ObjectClass.fixed, same], .refl _, ?_⟩
    exact {
      shape_lt := fits.shape_lt
      widened := fits.widened
      type := fits.type.trans (by rw [hc]; rfl)
      prototype_lt := fits.prototype_lt
      global := fun e => by cases e
      proxy := fun e => by cases e
      fields := fits.fields
      fast := fits.fast
      array := fun _ e => by cases e
      wrapper := fun _ _ e => by cases e
      arguments := fun e => by cases e
      function := fun e => by
        obtain ⟨p, x, hp, hx⟩ := fits.function hc
        cases e
        exact ⟨p, x, (congrArg FunctionData.prototype (same d)).trans hp, hx⟩ }
  | _ => exact ⟨by simp [hc], .refl _, fits⟩

/-! ### The initial heap -/

/-- The first shapes have no transitions of elements. -/
theorem no_elementsTransition_roots {s t : ShapeId} {k : ElementsKind}
    (e : (Heap.roots.shape s).elementsTransitions.get? k = some t) : False := by
  obtain ⟨i⟩ := s
  have hi : i < 11 := index_lt_of_elementsTransition e
  interval_cases i <;> cases e

theorem widened_roots (s : ShapeId) : Heap.roots.Widened s :=
  fun _ _ e => (no_elementsTransition_roots e).elim

/-- The first heap is well formed. -/
theorem wellFormed_roots (rules : Rules) : Heap.roots.WellFormed rules where
  roots := .refl _
  shape {s} hs := by
    obtain ⟨i⟩ := s
    have hi : i < 11 := hs
    interval_cases i
    · exact .make .object .packedSmi (by simp) (fun _ => .inl rfl) (.inl rfl)
    · exact .make .object .packedSmi (by simp [Heap.roots, objectPrototype])
        (fun _ => .inr rfl) (.inr ⟨_, rfl⟩)
    · exact .make .object .packedSmi (by simp [Heap.roots, objectPrototype])
        (fun _ => .inr rfl) (.inr ⟨_, rfl⟩)
    · exact .make .array .packedSmi (by simp [Heap.roots, arrayPrototype])
        (fun _ => .inr rfl) (.inr ⟨_, rfl⟩)
    · exact .make .function .packedSmi (by simp [Heap.roots, functionPrototype])
        (fun _ => .inr rfl) (.inr ⟨_, rfl⟩)
    · exact .make .arguments .packed (by simp [Heap.roots, objectPrototype])
        (fun _ => .inr rfl) (.inr ⟨_, rfl⟩)
    · exact .make .stringWrapper .packedSmi (by simp [Heap.roots, stringPrototype])
        (fun _ => .inr rfl) (.inr ⟨_, rfl⟩)
    · exact .make .string .packedSmi (by simp [Heap.roots, stringPrototype])
        (fun _ => .inr rfl) (.inr ⟨_, rfl⟩)
    · exact .make .heapNumber .packedSmi (by simp [Heap.roots, objectPrototype])
        (fun _ => .inr rfl) (.inr ⟨_, rfl⟩)
    · exact .make .globalObject .packedSmi (by simp [Heap.roots, objectPrototype])
        (fun _ => .inr rfl) (.inr ⟨_, rfl⟩)
    · exact .make .globalProxy .packedSmi (by simp [Heap.roots, Heap.globalObject])
        (fun _ => .inr rfl) (.inr ⟨_, rfl⟩)
  object {id o} ho := by
    obtain ⟨i⟩ := id
    have hi : i < 6 := index_lt_of_object? ho
    have w := widened_roots
    interval_cases i <;> obtain rfl := Option.some.inj ho
    · exact ⟨by decide, w _, rfl, by rintro _ ⟨⟩, by simp, by simp, fun _ => rfl,
        fun _ => rfl, by simp, by simp, by simp, by simp⟩
    · exact ⟨by decide, w _, rfl, by rintro _ ⟨⟩; decide, by simp, by simp, fun _ => rfl,
        fun _ => rfl, by simp, by simp, by simp, by simp⟩
    · exact ⟨by decide, w _, rfl, by rintro _ ⟨⟩; decide, by simp, by simp, fun _ => rfl,
        fun _ => rfl, by simp, by simp, by simp, by simp⟩
    · exact ⟨by decide, w _, rfl, by rintro _ ⟨⟩; decide, by simp, by simp, fun _ => rfl,
        fun _ => rfl, by simp, by simp, by simp, by simp⟩
    · exact ⟨by decide, w _, rfl, by rintro _ ⟨⟩; decide, fun _ => ⟨rfl, rfl⟩, by simp,
        fun _ => rfl, fun _ => rfl, by simp, by simp, by simp, by simp⟩
    · exact ⟨by decide, w _, rfl, by rintro _ ⟨⟩; decide, by simp,
        by rintro _ ⟨⟩; exact ⟨rfl, rfl⟩, fun _ => rfl, fun _ => rfl, by simp, by simp, by simp, by simp⟩
  source e := (no_elementsTransition_roots e).elim
  rootShapes _ := widened_roots _
  initialShapes {key s} e := by
    have hk : key = some objectPrototype ∧ s = objectShape ∨ key = none ∧ s = rootShape := by
      simp only [Heap.roots, Table.ofList, List.foldl, Table.get?_insert, Table.get?_empty] at e
      grind -ring -linarith
    obtain ⟨rfl, rfl⟩ | ⟨rfl, rfl⟩ := hk <;> exact ⟨by decide, widened_roots _, rfl⟩
  initialShapes_none := rfl

theorem installStringMethod_leads (ob : h.Obeys rules) {name : Name} {host : HostFunction}
    (m : MayAdd rules (newHostFunction name.text 1 host h).2 stringPrototype name)
    (method : StringMethod) : Leads rules h (installStringMethod name host method h).2 := by
  have a := newHostFunction_leads ob name.text 1 host
  unfold installStringMethod
  refine Computation.bind_rel Leads.trans a fun id _ => ?_
  simp only [Computation.modify_bind, Computation.modify_apply]
  generalize (newHostFunction name.text 1 host h).2 = h' at a m ⊢
  cases h'.functionData? (.object id) with
  | none => exact addConstant_leads a.obeys m _ _
  | some d =>
    have b := modifyShared_leads a.obeys d.shared fun s => { s with method := some method }
    exact b.trans (addConstant_leads b.obeys ⟨m.fresh, m.array⟩ _ _)

/-- Every program starts with a well-formed heap. -/
theorem obeys_initial {rules : Rules} {host : Host} (lawful : host.Lawful rules) :
    Obeys rules { Heap.initial with host } := by
  have roots : Heap.roots.Obeys rules := ⟨wellFormed_roots rules, Host.idle_does rules _⟩
  have a : Leads rules Heap.roots (installStringMethod .charAt .charAt .charAt Heap.roots).2 := by
    refine installStringMethod_leads roots ⟨fun _ o ho _ => ?_, by simp [Name.charAt,
      Name.length]⟩ .charAt
    obtain rfl := Option.some.inj ho
    rfl
  suffices Leads rules Heap.roots Heap.initial from this.obeys.rehost lawful
  refine Computation.bind_rel Leads.trans a fun _ _ => ?_
  refine installStringMethod_leads a.obeys ⟨fun _ o ho _ => ?_, by simp [Name.charCodeAt,
    Name.length]⟩ .charCodeAt
  obtain rfl := Option.some.inj ho
  rfl

end Heap

end Speculation
