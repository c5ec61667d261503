import Speculation.Proofs.Heap.Elements
import Speculation.Proofs.Property.Own

/-!
# Writing one property

To write a named property is to lay out one object anew: it moves to another shape, or stays at its own,
and has other fields or another dictionary. `Relaid` says no more than this, and every write has one lemma
for it. What follows is the same for all of them: `h.Updates h' id name q` says that `h'` differs from `h`
in what one object owns under one name, and in nothing else that a program can see. Other objects may have
the same shape; they keep it, since a shape keeps its layout.

Global proxies own what the global object owns, so that an object is the one a reference stands for. A
store of an element is no write of this kind: it leaves the named properties of all objects.
-/

namespace Speculation

/-- Layouts that differ only in where properties are. -/
structure Shape.Resembles (t t' : Shape) : Prop where
  prototype : t'.prototype = t.prototype
  elementsKind : t'.elementsKind = t.elementsKind
  hasInterceptor : t'.hasInterceptor = t.hasInterceptor

theorem Shape.Resembles.of_derive {t t' : Shape} (layout : t'.derive = t.derive) : t.Resembles t' where
  prototype := by simpa using congrArg Shape.prototype layout
  elementsKind := by simpa using congrArg Shape.elementsKind layout
  hasInterceptor := by simpa using congrArg Shape.hasInterceptor layout

theorem Shape.Resembles.trans {t t' t'' : Shape} (a : t.Resembles t') (b : t'.Resembles t'') :
    t.Resembles t'' :=
  ⟨b.prototype.trans a.prototype, b.elementsKind.trans a.elementsKind,
    b.hasInterceptor.trans a.hasInterceptor⟩

namespace Heap

variable {rules : Rules} {h h' h'' : Heap} {id : ObjectId} {o o' o'' : JsObject} {name : Name}
  {q q' : Option OwnProperty} {p : Properties} {v : Value}

/-! ### Two heaps that differ in one property -/

/-- What an object keeps when a named property of it is written. -/
structure Unmoved (h : Heap) (o : JsObject) (h' : Heap) (o' : JsObject) : Prop where
  objectClass : o'.objectClass = o.objectClass
  elements : o'.elements = o.elements
  interceptor : o'.interceptor = o.interceptor
  callHandler : o'.callHandler = o.callHandler
  shape : (h.shapeOf o).Resembles (h'.shapeOf o')

theorem Unmoved.trans (a : Unmoved h o h' o') (b : Unmoved h' o' h'' o'') : Unmoved h o h'' o'' :=
  ⟨b.objectClass.trans a.objectClass, b.elements.trans a.elements,
    b.interceptor.trans a.interceptor, b.callHandler.trans a.callHandler, a.shape.trans b.shape⟩

/-- The heap `h'` is `h` with `q` as the property of the object `id` under `name`. -/
structure Updates (h h' : Heap) (id : ObjectId) (name : Name) (q : Option OwnProperty) : Prop where
  size : h'.cells.size = h.cells.size
  cell : ∀ j, j ≠ id ∨ h.object? j = none → h'.cell? j = h.cell? j
  object : ∀ {j o}, h.object? j = some o → ∃ o', h'.object? j = some o' ∧ Unmoved h o h' o'
  property : ∀ j n, h'.ownProperty? j n =
    if h.resolveProxy j = id ∧ name = n then q else h.ownProperty? j n

namespace Updates

theorem refl (h : Heap) (id : ObjectId) (name : Name) (same : ∀ j, h.resolveProxy j = id →
    h.ownProperty? j name = q) : h.Updates h id name q where
  size := rfl
  cell _ _ := rfl
  object ho := ⟨_, ho, ⟨rfl, rfl, rfl, rfl, .of_derive rfl⟩⟩
  property j n := by
    split
    · rename_i this
      rw [← this.2, same j this.1]
    · rfl

theorem absent (u : h.Updates h' id name q) {j : ObjectId} (ho : h.object? j = none) :
    h'.object? j = none := by
  rw [← ho]
  simp only [object?, u.cell j (.inr ho)]

theorem resolveProxy (u : h.Updates h' id name q) (j : ObjectId) :
    h'.resolveProxy j = h.resolveProxy j := by
  cases ho : h.object? j with
  | some o =>
    obtain ⟨o', ho', same⟩ := u.object ho
    simp only [Heap.resolveProxy, ho, ho', same.objectClass]
  | none => simp only [Heap.resolveProxy, ho, u.absent ho]

theorem trans (a : h.Updates h' id name q) (b : h'.Updates h'' id name q') :
    h.Updates h'' id name q' where
  size := b.size.trans a.size
  cell j hj := (b.cell j (hj.imp_right a.absent)).trans (a.cell j hj)
  object ho := by
    obtain ⟨o', ho', same⟩ := a.object ho
    obtain ⟨o'', ho'', same'⟩ := b.object ho'
    exact ⟨o'', ho'', same.trans same'⟩
  property j n := by
    rw [b.property, a.property, a.resolveProxy]
    split <;> rfl

end Updates

/-! ### Laying out one object -/

/-- The object `id`, which was `o`, has its named properties where `p` says; everything else is as it
was. -/
structure Relaid (h h' : Heap) (id : ObjectId) (o : JsObject) (p : Properties) : Prop where
  size : h'.cells.size = h.cells.size
  cell : ∀ j, j ≠ id → h'.cell? j = h.cell? j
  layout : ∀ s : ShapeId, s.index < h.shapes.size → (h'.shape s).derive = (h.shape s).derive
  object : ∃ s, h'.object? id =
    some { o with shape := s, fields := p.fields, dictionary := p.dictionary } ∧
      (h'.shape s).derive = p.shape.derive

/-- An object that is written in place is laid out anew. -/
theorem relaid_modifyObject (ho : h.object? id = some o) {f : JsObject → JsObject}
    (write : f o = { o with fields := p.fields, dictionary := p.dictionary })
    (stay : p.shape = h.shapeOf o) : Relaid h (h.modifyObject id f) id o p where
  size := by simp
  cell j hj := cell?_modifyObject_ne (Ne.symm hj)
  layout _ _ := rfl
  object := ⟨o.shape, by rw [object?_modifyObject_self, ho, Option.map_some, write], by rw [stay]; rfl⟩

/-- An object that moves to a shape which was found for it. -/
theorem Finds.relaid {r : ShapeId × Heap} (found : Finds rules h p.shape r)
    (ho : h.object? id = some o) {f : JsObject → JsObject}
    (write : f o = { o with shape := r.1, fields := p.fields, dictionary := p.dictionary }) :
    Relaid h (r.2.modifyObject id f) id o p where
  size := by simp [found.cells]
  cell j hj := by
    rw [cell?_modifyObject_ne (Ne.symm hj), cell?, cell?, found.cells]
  layout _ hs := found.leads.grows.layout hs
  object := by
    refine ⟨r.1, ?_, found.layout⟩
    rw [object?_modifyObject_self, found.object?, ho, Option.map_some, write]

namespace Relaid

variable (laid : Relaid h h' id o p) (ho : h.object? id = some o)

include laid

theorem object?_ne {j : ObjectId} (hj : j ≠ id) : h'.object? j = h.object? j := by
  simp only [object?, laid.cell j hj]

include ho

theorem resolveProxy (j : ObjectId) : h'.resolveProxy j = h.resolveProxy j := by
  obtain ⟨s, ho', -⟩ := laid.object
  by_cases hj : j = id
  · subst hj
    simp only [Heap.resolveProxy, ho, ho']
  · simp only [Heap.resolveProxy, laid.object?_ne hj]

/-- The properties of an object that was laid out anew are the new ones. -/
theorem ownProperty? (ob : h.Obeys rules) (ob' : h'.Obeys rules) (j : ObjectId) (n : Name) :
    h'.ownProperty? j n = if h.resolveProxy j = id then p.get? n else h.ownProperty? j n := by
  obtain ⟨s, ho', layout⟩ := laid.object
  rw [ob'.ownProperty?_eq, ob.ownProperty?_eq, laid.resolveProxy ho]
  generalize h.resolveProxy j = k
  split
  · rename_i hk
    rw [hk, ho', Option.bind_some]
    exact Properties.get?_of_derive layout n
  · -- Objects of the same shape keep it: transitions come to a shape, but its layout stays.
    rename_i hk
    rw [laid.object?_ne hk]
    cases hx : h.object? k with
    | none => rfl
    | some x =>
      exact Properties.get?_of_derive (p := h.propertiesOf x)
        (laid.layout x.shape (ob.object hx).shape_lt) n

/-- If its layout keeps what the layout of an object shares, the object keeps it. -/
theorem unmoved (ob : h.Obeys rules) (same : (h.shapeOf o).Resembles p.shape) {j : ObjectId}
    {x : JsObject} (hx : h.object? j = some x) :
    ∃ x', h'.object? j = some x' ∧ Unmoved h x h' x' := by
  by_cases hj : j = id
  · subst hj
    obtain ⟨s, ho', layout⟩ := laid.object
    obtain rfl := Option.some.inj (ho.symm.trans hx)
    exact ⟨_, ho', rfl, rfl, rfl, rfl, same.trans (.of_derive layout)⟩
  · exact ⟨x, (laid.object?_ne hj).trans hx, rfl, rfl, rfl, rfl,
      .of_derive (laid.layout x.shape (ob.object hx).shape_lt)⟩

end Relaid

/-- What is laid out anew differs in one property if the layouts do. -/
theorem Obeys.updates (ob : h.Obeys rules) (ob' : h'.Obeys rules) (ho : h.object? id = some o)
    (laid : Relaid h h' id o p) (same : (h.shapeOf o).Resembles p.shape)
    (write : (h.propertiesOf o).Updates p name q) :
    h.Updates h' id name q := by
  refine ⟨laid.size, fun j hj => laid.cell j ?_, laid.unmoved ho ob same, fun j n => ?_⟩
  · rcases hj with hj | absent
    · exact hj
    · rintro rfl
      rw [ho] at absent
      cases absent
  · rw [laid.ownProperty? ho ob ob', ob.ownProperty?_eq]
    by_cases hk : h.resolveProxy j = id
    · rw [if_pos hk, hk, ho, write n, Option.bind_some]
      simp only [true_and]
    · rw [if_neg hk, if_neg fun e => hk e.1]

/-! ### Stores -/

section Writes

variable (ob : h.Obeys rules) (ho : h.object? id = some o) {a : Attributes}

include ob ho

/-- A write to a field updates one property. -/
theorem setField_updates (fit : (h.propertiesOf o).Fit) {i : Nat}
    (owned : (h.shapeOf o).owned? o.dictionary name = some (.field i, a)) (v : Value) :
    h.Updates (h.setField id i v) id name (some ⟨.data v, a⟩) :=
  ob.updates (setField_leads ob i v).obeys ho
    (relaid_modifyObject (p := { h.propertiesOf o with fields := o.fields.set i v }) ho rfl rfl)
    (.of_derive rfl) (fit.updates_field owned v)

/-- A write to an entry updates one property. -/
theorem setDictionaryValue_updates
    (owned : (h.shapeOf o).owned? o.dictionary name = some (.normal, a)) (v : Value) :
    h.Updates (h.setDictionaryValue id name v) id name (some ⟨.data v, a⟩) := by
  have legal := ob.shape (ob.object ho).shape_lt
  obtain ⟨mode, e, he, rfl⟩ := legal.entry_of_owned? owned
  refine ob.updates (setDictionaryValue_leads ob name v).obeys ho
    (relaid_modifyObject ho (p := { h.propertiesOf o with
      dictionary := o.dictionary.insert name { e with value := v } }) ?_ rfl)
    (.of_derive rfl) (Properties.updates_entry (legal.accessors mode) mode name { e with value := v })
  simp only [he]
  rfl

/-- A constant that turns into a field updates one property. -/
theorem constantToField_updates (fit : (h.propertiesOf o).Fit) {c : Value}
    (owned : (h.shapeOf o).owned? o.dictionary name = some (.constant c, a)) (v : Value) :
    h.Updates (h.constantToField id name v) id name (some ⟨.data v, a⟩) := by
  have described := Shape.descriptor?_of_owned? owned (by simp)
  have legal : (h.shapeOf o).Legal rules h := ob.shape (ob.object ho).shape_lt
  have l : Leads rules h (h.constantToField id name v) := by
    refine constantToField_leads ob v fun x hx => ?_
    obtain rfl := Option.some.inj (ho.symm.trans hx)
    exact ⟨_, c, described, rfl⟩
  have found := ob.settles_new (legal.withField described rfl) rfl
  unfold constantToField at l ⊢
  rw [ho] at l ⊢
  exact ob.updates l.obeys ho
    (Finds.relaid (p := { h.propertiesOf o with
      shape := (h.shapeOf o).withField name (h.shapeOf o).fieldCount
      fields := o.fields ++ [v] }) found.toFinds ho rfl)
    ⟨rfl, rfl, rfl⟩ (fit.updates_constant owned v)

/-- A data property is written where it is. -/
theorem writeOwn_updates (fit : (h.propertiesOf o).Fit) {kind : PropertyKind}
    (owned : (h.shapeOf o).owned? o.dictionary name = some (kind, a))
    (data : kind.isAccessor = false) (v : Value) :
    h.Updates (h.writeOwn id name kind v) id name (some ⟨.data v, a⟩) := by
  cases kind with
  | field i => exact setField_updates ob ho fit owned v
  | normal => exact setDictionaryValue_updates ob ho owned v
  | constant c => exact constantToField_updates ob ho fit owned v
  | accessor g s => cases data

/-- A property is added where its object keeps new ones. -/
theorem addProperty_updates (hr : h.resolveProxy id = id) (fit : (h.propertiesOf o).Fit)
    (absent : h.ownReal id name = .notFound) (array : ¬ (name = .length ∧ h.isArray (.object id)))
    (v : Value) (a : Attributes) :
    h.Updates (h.addProperty id name v a) id name (some ⟨.data v, a⟩) := by
  have may : MayAdd rules h id name := mayAdd_of_ownReal hr absent array
  have l := addProperty_leads ob may v a
  have legal : (h.shapeOf o).Legal rules h := ob.shape (ob.object ho).shape_lt
  rw [ownReal_eq hr ho, Lookup.ofOwned_eq_notFound] at absent
  unfold addProperty at l ⊢
  rw [ho] at l ⊢
  -- A slow object gains an entry, and a fast one a descriptor and a field.
  by_cases mode : (h.shapeOf o).isDictionary
  · simp only [mode, if_true] at l ⊢
    exact ob.updates l.obeys ho
      (relaid_modifyObject (p := { h.propertiesOf o with
        dictionary := o.dictionary.insert name ⟨v, a⟩ }) ho rfl rfl)
      (.of_derive rfl) (Properties.updates_entry (legal.accessors mode) mode name ⟨v, a⟩)
  · have fast : (h.shapeOf o).isDictionary = false := by simpa using mode
    simp only [fast, Bool.false_eq_true, if_false] at l ⊢
    have found := transitionTarget_spec ob (ob.object ho).shape_lt
      (d := ⟨name, .field (h.shapeOf o).fieldCount, a⟩)
      (may.admits ho fast ob rfl (by simp) (by simp))
    exact ob.updates l.obeys ho
      (Finds.relaid (p := { h.propertiesOf o with
        shape := (h.shapeOf o).extended ⟨name, .field (h.shapeOf o).fieldCount, a⟩
        fields := o.fields ++ [v] }) found.toFinds ho rfl)
      ⟨rfl, rfl, rfl⟩ (fit.updates_extended fast (Shape.descriptor?_of_owned?_none absent) v a)

end Writes

/-! ### Dictionary mode -/

theorem Relaid.refl (ho : h.object? id = some o) : Relaid h h id o (h.propertiesOf o) where
  size := rfl
  cell _ _ := rfl
  layout _ _ := rfl
  object := ⟨o.shape, ho, rfl⟩

/-- Dictionary mode lays an object out anew. -/
theorem normalize_relaid (ob : h.Obeys rules) (ho : h.object? id = some o) :
    Relaid h (h.normalize id) id o (h.propertiesOf o).normalized := by
  have found := ob.settles_new (ob.shape (ob.object ho).shape_lt).normalized rfl
  unfold normalize
  rw [ho]
  dsimp only
  split
  · rename_i mode
    rw [show (h.propertiesOf o).normalized = h.propertiesOf o from if_pos mode]
    exact .refl ho
  · rename_i fast
    rw [show (h.propertiesOf o).normalized = _ from if_neg fast]
    exact Finds.relaid (p := ⟨(h.shapeOf o).normalized, [], _⟩) found.toFinds ho rfl

theorem resembles_normalized (p : Properties) : p.shape.Resembles p.normalized.shape := by
  unfold Properties.normalized
  split
  · exact .of_derive rfl
  · exact ⟨rfl, rfl, rfl⟩

/-- Every property of an object is still there when it has gone to dictionary mode. -/
theorem normalize_updates (ob : h.Obeys rules) (hr : h.resolveProxy id = id)
    (ho : h.object? id = some o) (fit : (h.propertiesOf o).Fit) (name : Name) :
    h.Updates (h.normalize id) id name (h.ownProperty? id name) := by
  refine ob.updates (normalize_leads ob id).obeys ho (normalize_relaid ob ho)
    (resembles_normalized (h.propertiesOf o)) fun n => ?_
  rw [fit.get?_normalized (ob.shape (ob.object ho).shape_lt).stored, ob.ownProperty?_eq, hr, ho]
  split
  · rename_i hn
    rw [hn, Option.bind_some]
  · rfl

/-! ### Elements -/

theorem Obeys.ownProperty?_modifyObject (ob : h.Obeys rules) {f : JsObject → JsObject}
    (ob' : (h.modifyObject id f).Obeys rules)
    (same : ∀ o, (f o).objectClass = o.objectClass ∧ (f o).shape = o.shape ∧
      (f o).fields = o.fields ∧ (f o).dictionary = o.dictionary) (j : ObjectId) (n : Name) :
    (h.modifyObject id f).ownProperty? j n = h.ownProperty? j n := by
  have proxy : (h.modifyObject id f).resolveProxy j = h.resolveProxy j := by
    have object : (h.modifyObject id f).object? j = _ := object?_modifyObject j f
    cases ho : h.object? j with
    | none => simp [resolveProxy, object, ho]
    | some o => by_cases hj : id = j <;> simp [resolveProxy, object, ho, hj, (same o).1]
  rw [ob'.ownProperty?_eq, ob.ownProperty?_eq, proxy, object?_modifyObject]
  split
  · cases h.object? (h.resolveProxy j) with
    | none => rfl
    | some o =>
      obtain ⟨-, hs, hf, hd⟩ := same o
      simp only [Option.map_some, Option.bind_some, propertiesOf, shapeOf, shape_modifyObject, hs, hf,
        hd]
  · rfl

/-- Other kinds of elements are a matter of the shape, but none of its properties. -/
theorem Obeys.ownProperty?_generalizeElements (ob : h.Obeys rules) (kind : ElementsKind)
    (j : ObjectId) (n : Name) :
    (h.generalizeElements id kind).ownProperty? j n = h.ownProperty? j n := by
  have leads := generalizeElements_leads ob id kind
  unfold generalizeElements at leads ⊢
  split
  · rfl
  rename_i o ho
  simp only [ho] at leads
  split
  · rename_i wider
    simp only [wider, if_true] at leads
    have found := elementsTransition_spec ob (ob.object ho).shape_lt
      fun _ => ElementsKind.le_of_generalizesTo wider
    have laid := Finds.relaid (f := fun x => { x with shape := (h.elementsTransition o.shape kind).1 })
      (p := { h.propertiesOf o with shape := (h.shapeOf o).withElements kind }) found ho rfl
    refine (laid.ownProperty? ho ob leads.obeys j n).trans ?_
    rw [ob.ownProperty?_eq]
    split
    · rename_i hj
      rw [hj, ho, Option.bind_some]
      exact Properties.get?_congr rfl (fun _ _ _ => rfl) rfl
    · rfl
  · rfl

/-- A store of an element leaves the named properties of all objects. -/
theorem Obeys.storeElement_ownProperty? (ob : h.Obeys rules) {i : Nat}
    (stored : h.storeElement id i v = .ok h') (j : ObjectId) (n : Name) :
    h'.ownProperty? j n = h.ownProperty? j n := by
  cases ho : h.object? id with
  | none =>
    simp only [storeElement, ho] at stored
    cases stored
    rfl
  | some o =>
    obtain ⟨kind, -, -, -, rfl⟩ := storeElement_eq_ok ho stored
    have ob' := (generalizeElements_leads ob id kind).obeys
    refine (ob'.ownProperty?_modifyObject (writeElement_leads ob' id i v).obeys
      (fun _ => ⟨rfl, rfl, rfl, rfl⟩) j n).trans ?_
    exact ob.ownProperty?_generalizeElements kind j n

end Heap

end Speculation
