import Speculation.Proofs.Heap.Calls

/-!
# Read-only properties

A store asks the lookup before it writes, and is refused where the property is read-only. Whatever
else it does then, calling setters included, leaves every read-only data property of every object
with the value it has: `KeepsReadOnly` is a relation that is closed under stores
(`storeClosed_readOnly`). Fields are the case to look at. Their values are kept apart from the
descriptors, by index, so that no two descriptors may share one; this is what fresh names are for.
-/

namespace Speculation

/-- The value of a read-only data property, for an object of a shape. -/
def Shape.readOnly? (t : Shape) (fields : List Value) (dictionary : Table Name DictionaryEntry)
    (name : Name) : Option Value :=
  match t.owned? dictionary name with
  | some (kind, a) =>
    if a.readOnly then
      match kind with
      | .field i => some (fields.getD i .undefined)
      | .constant v => some v
      | .normal => (dictionary.get? name).map (·.value)
      | .accessor _ _ => none
    else none
  | none => none

namespace Heap

/-- The value of a read-only data property of an object. -/
def readOnlyValue? (h : Heap) (id : ObjectId) (name : Name) : Option Value :=
  match h.ownReal id name with
  | .property holder kind a =>
    if a.readOnly then
      match kind with
      | .field i => some (h.fieldValue holder i)
      | .constant v => some v
      | .normal => h.dictionaryValue? holder name
      | .accessor _ _ => none
    else none
  | _ => none

/-- Read-only properties keep their values. -/
def KeepsReadOnly (h h' : Heap) : Prop :=
  ∀ id name v, h.readOnlyValue? id name = some v → h'.readOnlyValue? id name = some v

variable {rules : Rules} {h h' h'' : Heap} {id : ObjectId} {o : JsObject} {name : Name}

theorem KeepsReadOnly.refl (h : Heap) : h.KeepsReadOnly h := fun _ _ _ e => e

theorem KeepsReadOnly.trans (a : h.KeepsReadOnly h') (b : h'.KeepsReadOnly h'') :
    h.KeepsReadOnly h'' := fun id name v e => b id name v (a id name v e)

/-! ### One object -/

/-- A value that cannot be written is found in the object. -/
theorem readOnlyValue?_eq (hr : h.resolveProxy id = id) (ho : h.object? id = some o) :
    h.readOnlyValue? id name = (h.shapeOf o).readOnly? o.fields o.dictionary name := by
  simp only [readOnlyValue?, ownReal_eq hr ho, Shape.readOnly?, fieldValue, dictionaryValue?,
    dictionarySlot?]
  rcases (h.shapeOf o).owned? o.dictionary name with _ | ⟨kind, a⟩
  · rfl
  · cases kind <;> simp only [Lookup.ofOwned, ho, Option.bind_some]

/-- A proxy has the values of its global object. -/
theorem readOnlyValue?_resolveProxy (ob : h.Obeys rules) :
    h.readOnlyValue? (h.resolveProxy id) name = h.readOnlyValue? id name := by
  simp only [readOnlyValue?, ownReal, ob.resolveProxy_resolveProxy]

end Heap

namespace Shape

variable {t t' : Shape} {fields fields' : List Value}
  {dictionary dictionary' : Table Name DictionaryEntry} {name : Name}

theorem owned?_congr (e : dictionary'.get? name = dictionary.get? name) :
    t.owned? dictionary' name = t.owned? dictionary name := by
  simp only [owned?, e]

theorem descriptor?_withField_eq (n : Name) (i : Nat) (name : Name) :
    (t.withField n i).descriptor? name =
      (t.descriptor? name).map fun d => if d.name = n then { d with kind := .field i } else d := by
  have names : ((fun d : Descriptor => d.name == name) ∘
      fun d => if d.name = n then { d with kind := .field i } else d) = fun d => d.name == name := by
    funext d
    by_cases hd : d.name = n <;> simp [hd]
  simp only [descriptor?, withField, List.find?_map, names]

theorem descriptor?_withField {n : Name} {i : Nat} (hn : name ≠ n) :
    (t.withField n i).descriptor? name = t.descriptor? name := by
  rw [descriptor?_withField_eq]
  cases e : t.descriptor? name with
  | none => rfl
  | some d => simp [(mem_of_descriptor? e).2, hn]

/-- A new descriptor hides none. -/
theorem descriptor?_extended {d : Descriptor} (hd : t.descriptor? name = some d)
    (e : Descriptor) : (t.extended e).descriptor? name = some d := by
  rw [descriptor?, descriptors_extended, List.find?_append, ← descriptor?, hd]
  rfl

/-- A read-only property keeps its value where its descriptor and its slot stay. -/
theorem readOnly?_keep {v : Value} (e : t.readOnly? fields dictionary name = some v)
    (keep : ∀ kind a, t.owned? dictionary name = some (kind, a) → a.readOnly →
      t'.owned? dictionary' name = some (kind, a) ∧
      (∀ i, kind = .field i → fields'[i]? = fields[i]?) ∧
      (kind = .normal → dictionary'.get? name = dictionary.get? name)) :
    t'.readOnly? fields' dictionary' name = some v := by
  unfold readOnly? at e
  split at e
  · rename_i kind a owned
    split at e
    · rename_i ro
      obtain ⟨owned', field, entry⟩ := keep kind a owned ro
      unfold readOnly?
      rw [owned']
      cases kind with
      | field i => simpa [ro, List.getD_eq_getElem?_getD, field i rfl] using e
      | normal => simpa [ro, entry rfl] using e
      | constant c => simpa [ro] using e
      | accessor g s => cases e
    · cases e
  · cases e

end Shape

namespace Heap

variable {rules : Rules} {h h' : Heap} {id : ObjectId} {o : JsObject}

/-- An operation on one object keeps read-only properties if it does so at that object. -/
theorem Leads.keepsReadOnly (id : ObjectId) (l : Leads rules h h') (ob : h.Obeys rules)
    (others : ∀ j, j ≠ id → h'.object? j = h.object? j)
    (this : ∀ o, h.object? id = some o → ∃ o', h'.object? id = some o' ∧ ∀ name v,
      (h.shapeOf o).readOnly? o.fields o.dictionary name = some v →
      (h'.shapeOf o').readOnly? o'.fields o'.dictionary name = some v) :
    h.KeepsReadOnly h' := by
  intro j name v e
  cases hj : h.object? (h.resolveProxy j) with
  | none => simp [readOnlyValue?, ownReal, hj] at e
  | some x =>
    have hr := ob.resolveProxy_resolveProxy j
    have hr' := (l.grows.resolveProxy hj).trans hr
    -- An object stays the proxy it was, so the property is looked for in the same place.
    have same : h'.resolveProxy j = h.resolveProxy j := by
      cases hx : h.object? j with
      | some y => exact l.grows.resolveProxy hx
      | none =>
        have : h.resolveProxy j = j := by simp [resolveProxy, hx]
        rw [this, hx] at hj
        cases hj
    rw [← readOnlyValue?_resolveProxy ob, readOnlyValue?_eq hr hj] at e
    rw [← readOnlyValue?_resolveProxy l.obeys, same]
    by_cases hid : h.resolveProxy j = id
    · rw [hid] at hj hr hr' ⊢
      obtain ⟨o', ho', keep⟩ := this x hj
      rw [readOnlyValue?_eq hr' ho']
      exact keep name v e
    · have hj' := (others _ hid).trans hj
      rw [readOnlyValue?_eq hr' hj']
      refine Shape.readOnly?_keep e fun kind a owned _ => ⟨?_, fun _ _ => rfl, fun _ => rfl⟩
      rw [Shape.owned?_of_derive (l.grows.derive_shapeOf (ob.object hj).shape_lt), owned]

/-- An object that changes its data but not its shape. -/
theorem Leads.keepsReadOnly_data {f : JsObject → JsObject}
    (l : Leads rules h (h.modifyObject id f)) (ob : h.Obeys rules) (hs : ∀ o, (f o).shape = o.shape)
    (keep : ∀ o, h.object? id = some o → ∀ name v,
      (h.shapeOf o).readOnly? o.fields o.dictionary name = some v →
      (h.shapeOf o).readOnly? (f o).fields (f o).dictionary name = some v) :
    h.KeepsReadOnly (h.modifyObject id f) := by
  refine l.keepsReadOnly id ob (fun j hj => object?_modifyObject_ne (Ne.symm hj)) ?_
  intro o ho
  refine ⟨f o, by simp [ho], ?_⟩
  have same : (h.modifyObject id f).shapeOf (f o) = h.shapeOf o := by
    rw [shapeOf_modifyObject, shapeOf, shapeOf, hs]
  rw [same]
  exact keep o ho

/-- An object that moves to a shape which was found for it. -/
theorem Finds.keepsReadOnly {t : Shape} {r : ShapeId × Heap} {f : JsObject → JsObject}
    (fd : Finds rules h t r) (l : Leads rules h (r.2.modifyObject id f)) (ob : h.Obeys rules)
    (ho : h.object? id = some o) (hs : (f o).shape = r.1)
    (keep : ∀ name v, (h.shapeOf o).readOnly? o.fields o.dictionary name = some v →
      t.readOnly? (f o).fields (f o).dictionary name = some v) :
    h.KeepsReadOnly (r.2.modifyObject id f) := by
  refine l.keepsReadOnly id ob
    (fun j hj => (object?_modifyObject_ne (Ne.symm hj)).trans fd.object?) fun x hx => ?_
  obtain rfl := Option.some.inj (ho.symm.trans hx)
  refine ⟨f o, by simp [fd.object?, ho], fun name v e => ?_⟩
  refine Shape.readOnly?_keep (keep name v e) fun kind a owned _ => ⟨?_, fun _ _ => rfl, fun _ => rfl⟩
  rw [shapeOf_modifyObject, shapeOf, hs, Shape.owned?_of_derive fd.layout, owned]

/-- A field that is owned is there. -/
theorem Obeys.index_lt_length (ob : h.Obeys rules) (r : rules.freshNames)
    (ho : h.object? id = some o) {name : Name} {i : Nat} {a : Attributes}
    (owned : (h.shapeOf o).owned? o.dictionary name = some (.field i, a)) :
    i < o.fields.length := by
  have fits := ob.object ho
  have hd := (Shape.mem_of_descriptor? (Shape.descriptor?_of_owned? owned (by simp))).1
  rw [fits.fields r]
  exact (ob.shape fits.shape_lt).index_lt r _ hd i rfl

/-! ### Writing -/

section Write

variable (ob : h.Obeys rules) (r : rules.freshNames) {name : Name} {a : Attributes}
  (hr : h.resolveProxy id = id) (ha : a.readOnly = false)

include ob r hr ha

/-- No read-only property shares a field with another one. -/
theorem setField_keepsReadOnly {i : Nat} (own : h.ownReal id name = .property id (.field i) a)
    (v : Value) : h.KeepsReadOnly (h.setField id i v) := by
  refine (setField_leads ob i v).keepsReadOnly_data ob (fun _ => rfl) fun o ho n w e => ?_
  refine Shape.readOnly?_keep e fun kind b owned hb => ⟨owned, fun k hk => ?_, fun _ => rfl⟩
  subst hk
  rw [ownReal_eq hr ho, Lookup.ofOwned_eq_property] at own
  have legal := ob.shape (ob.object ho).shape_lt
  have hne : i ≠ k := by
    rintro rfl
    have hd := (Shape.mem_of_descriptor? (Shape.descriptor?_of_owned? own.2 (by simp))).1
    have hd' := (Shape.mem_of_descriptor? (Shape.descriptor?_of_owned? owned (by simp))).1
    cases legal.index_inj r _ hd _ hd' i rfl rfl
    simp [ha] at hb
  simp [hne]

omit r in
/-- A write to an entry leaves what cannot be written. -/
theorem setDictionaryValue_keepsReadOnly (own : h.ownReal id name = .property id .normal a)
    (v : Value) : h.KeepsReadOnly (h.setDictionaryValue id name v) := by
  refine (setDictionaryValue_leads ob name v).keepsReadOnly_data ob (fun o => ?_)
    fun o ho n w e => ?_
  · split <;> rfl
  · rw [ownReal_eq hr ho, Lookup.ofOwned_eq_property] at own
    split
    · refine Shape.readOnly?_keep e fun kind b owned hb => ?_
      have hne : name ≠ n := by
        rintro rfl
        cases own.2.symm.trans owned
        simp [ha] at hb
      have same (x : DictionaryEntry) :
          (o.dictionary.insert name x).get? n = o.dictionary.get? n := by
        rw [Table.get?_insert, if_neg hne]
      exact ⟨(Shape.owned?_congr (same _)).trans owned, fun _ _ => rfl, fun _ => same _⟩
    · exact e

/-- The other descriptors stay, and their fields come before the new one. -/
theorem constantToField_keepsReadOnly {c : Value}
    (own : h.ownReal id name = .property id (.constant c) a) (v : Value) :
    h.KeepsReadOnly (h.constantToField id name v) := by
  have l : Leads rules h (h.constantToField id name v) := writeOwn_leads ob hr own v
  unfold constantToField at l ⊢
  split
  · exact .refl h
  rename_i o ho
  rw [ho] at l
  rw [ownReal_eq hr ho, Lookup.ofOwned_eq_property] at own
  have legal : (h.shapeOf o).Legal rules h := ob.shape (ob.object ho).shape_lt
  have hd := Shape.descriptor?_of_owned? own.2 (by simp)
  have fast := legal.fast_of_owned? own.2 (by simp) rfl
  have fd := ob.settles_new (legal.withField hd rfl) rfl
  refine fd.keepsReadOnly l ob ho rfl fun n w e => ?_
  refine Shape.readOnly?_keep e fun kind b owned hb => ⟨?_, fun k hk => ?_, fun _ => rfl⟩
  -- The constant is writable, so it is not the one whose value is kept.
  · have hne : n ≠ name := by
      rintro rfl
      cases own.2.symm.trans owned
      simp [ha] at hb
    rw [Shape.owned?_fast fast] at owned
    rw [Shape.owned?_fast (by exact fast), Shape.descriptor?_withField hne]
    exact owned
  · subst hk
    exact List.getElem?_append_left (ob.index_lt_length r ho owned)

/-- So does a write to an own property. -/
theorem writeOwn_keepsReadOnly {kind : PropertyKind}
    (own : h.ownReal id name = .property id kind a) (v : Value) :
    h.KeepsReadOnly (h.writeOwn id name kind v) := by
  cases kind with
  | field i => exact setField_keepsReadOnly ob r hr ha own v
  | normal => exact setDictionaryValue_keepsReadOnly ob hr ha own v
  | constant c => exact constantToField_keepsReadOnly ob r hr ha own v
  | accessor g s => exact .refl h

end Write

/-! ### Adding -/

/-- So does a new property. -/
theorem addProperty_keepsReadOnly (ob : h.Obeys rules) (r : rules.freshNames) {name : Name}
    (hr : h.resolveProxy id = id) (own : h.ownReal id name = .notFound)
    (harr : ¬ (name = .length ∧ h.isArray (.object id))) (v : Value) (a : Attributes) :
    h.KeepsReadOnly (h.addProperty id name v a) := by
  have may : MayAdd rules h id name := mayAdd_of_ownReal hr own harr
  have l := addProperty_leads ob may v a
  unfold addProperty at l ⊢
  split
  · exact .refl h
  rename_i o ho
  rw [ho] at l
  rw [ownReal_eq hr ho, Lookup.ofOwned_eq_notFound] at own
  -- The object owns nothing under the name added, so every property it owns has another.
  have absent {n : Name} {p : PropertyKind × Attributes}
      (owned : (h.shapeOf o).owned? o.dictionary n = some p) : name ≠ n := by
    rintro rfl
    rw [own] at owned
    cases owned
  by_cases hd : (h.shapeOf o).isDictionary
  · simp only [hd, if_true] at l ⊢
    refine l.keepsReadOnly_data ob (fun _ => rfl) fun x hx n w e => ?_
    obtain rfl := Option.some.inj (ho.symm.trans hx)
    refine Shape.readOnly?_keep e fun kind b owned _ => ?_
    have same : (o.dictionary.insert name ⟨v, a⟩).get? n = o.dictionary.get? n := by
      rw [Table.get?_insert, if_neg (absent owned)]
    exact ⟨(Shape.owned?_congr same).trans owned, fun _ _ => rfl, fun _ => same⟩
  · simp only [hd] at l ⊢
    have fast : (h.shapeOf o).isDictionary = false := by simpa using hd
    have fd := transitionTarget_spec ob (ob.object ho).shape_lt
      (d := ⟨name, .field (h.shapeOf o).fieldCount, a⟩)
      (may.admits ho fast ob rfl (by simp) (by simp))
    refine fd.keepsReadOnly l ob ho rfl fun n w e => ?_
    refine Shape.readOnly?_keep e fun kind b owned _ => ⟨?_, fun k hk => ?_, fun _ => rfl⟩
    · rw [Shape.owned?_fast fast] at owned
      rw [Shape.owned?_fast (by exact fast)]
      obtain ⟨d, hd, e⟩ := Option.map_eq_some_iff.1 owned
      exact Option.map_eq_some_iff.2 ⟨d, Shape.descriptor?_extended hd _, e⟩
    · subst hk
      exact List.getElem?_append_left (ob.index_lt_length r ho owned)

/-! ### Elements -/

theorem generalizeElements_keepsReadOnly (ob : h.Obeys rules) (id : ObjectId)
    (kind : ElementsKind) : h.KeepsReadOnly (h.generalizeElements id kind) := by
  have l := generalizeElements_leads ob id kind
  unfold generalizeElements at l ⊢
  split
  · exact .refl h
  rename_i o ho
  simp only [ho] at l
  split
  · rename_i hk
    simp only [hk, if_true] at l
    have fd := elementsTransition_spec ob (ob.object ho).shape_lt
      fun _ => ElementsKind.le_of_generalizesTo hk
    exact fd.keepsReadOnly l ob ho rfl fun _ _ e => e
  · exact .refl h

theorem storeArrayLength_keepsReadOnly (ob : h.Obeys rules) {v : Value}
    (hs : h.storeArrayLength id v = .ok h') : h.KeepsReadOnly h' := by
  unfold storeArrayLength at hs
  split at hs
  · cases hs
  split at hs
  · cases hs
    exact .refl h
  split at hs
  · cases hs
  · injection hs with hs
    rw [← hs]
    have data : ∀ {g : Heap} {length : Nat}, g.Obeys rules → g.KeepsReadOnly
        (g.modifyObject id fun o => { o with elements := resize o.elements length }) := by
      intro g length ob
      have l : Leads rules g
          (g.modifyObject id fun o => { o with elements := resize o.elements length }) :=
        ob.leads_data fun _ => ⟨rfl, rfl, rfl, rfl⟩
      exact l.keepsReadOnly_data ob (fun _ => rfl) fun _ _ _ _ e => e
    split
    · have g := generalizeElements_leads ob id
      exact (generalizeElements_keepsReadOnly ob id _).trans (data (g _).obeys)
    · exact data ob

/-! ### Stores -/

/-- **Stores keep read-only properties**, with everything that they call. -/
theorem storeClosed_readOnly (r : rules.freshNames) :
    StoreClosed rules fun h h' => Leads rules h h' ∧ h.KeepsReadOnly h' where
  leads l := l.1
  refl ob := ⟨ob.leads, .refl _⟩
  trans a b := ⟨a.1.trans b.1, a.2.trans b.2⟩
  intern n ob := ⟨intern_leads ob n, by
    unfold intern
    split
    · exact .refl _
    · exact fun _ _ _ e => e⟩
  push {h c} ob hc := by
    have l := ob.leads_push c fun o e => absurd e (hc o)
    refine ⟨l, l.keepsReadOnly ⟨h.cells.size⟩ ob (fun j hj => ?_) fun o ho => ?_⟩
    · have hne : j.index ≠ h.cells.size := fun e => hj (by cases j; simp_all)
      simp [object?, cell?, Array.getElem?_push, hne]
    · exact absurd (index_lt_of_object? ho) (by simp)
  arrayLength ob _ e := ⟨storeArrayLength_leads ob e, storeArrayLength_keepsReadOnly ob e⟩
  write v ob hr ho ha := ⟨writeOwn_leads ob hr ho v, writeOwn_keepsReadOnly ob r hr ha ho v⟩
  add v ob adds :=
    ⟨addProperty_leads ob (mayAdd_of_ownReal adds.real adds.absent adds.array) v {},
      addProperty_keepsReadOnly ob r adds.real adds.absent adds.array v {}⟩

end Heap

/-- The functions of the host write no read-only property. -/
def Host.KeepsReadOnly (host : Host) (rules : Rules) : Prop :=
  host.Does rules fun h op => h.KeepsReadOnly (op.perform h)

/-- What a heap becomes by a store, if the host writes no read-only property. -/
def Heap.StoresReadOnly (rules : Rules) : Heap → Heap → Prop :=
  Heap.Under rules (fun h op => h.KeepsReadOnly (op.perform h)) fun h h' =>
    Heap.Leads rules h h' ∧ h.KeepsReadOnly h'

/-- **Calls keep read-only properties** as long as the host does. -/
theorem Heap.callClosed_readOnly {rules : Rules} (r : rules.freshNames) :
    CallClosed rules (StoresReadOnly rules) :=
  (storeClosed_readOnly r).under
    (fun f receiver args ob => ⟨noteCall_leads ob f receiver args, fun _ _ _ e => e⟩)
    fun op ob allowed keeps => ⟨operation_leads ob op allowed, keeps⟩

/-- A store leaves what cannot be written if the functions of the host do. -/
theorem Heap.StoresReadOnly.keeps {rules : Rules} {h h' : Heap} (stores : StoresReadOnly rules h h')
    (host : h.host.KeepsReadOnly rules) : h.KeepsReadOnly h' := (stores.2 host).2

end Speculation
