import Mathlib.Data.List.Pairwise
import Speculation.Proofs.Cache.Shapes
import Speculation.Proofs.Heap.Getters
import Speculation.Proofs.Heap.ReadOnly

/-!
# What own properties hold

What an object owns under a name is a value or a pair of accessors, with attributes, wherever its
layout keeps it: in a field, in the shape, or in the dictionary. `Properties.get?` reads it off the
shape, the fields and the dictionary of an object, and `Heap.ownProperty?` is what the lookup of own
properties finds in a heap.

Each way to write a property is a change of these three, and has one equation that says what is owned
afterwards under **every** name (`Properties.Updates`). Other names are where the layout matters: a field
may be written because no other descriptor has its index, and a new one is appended where the next index
points, which is what `Properties.Fit` is for.
-/

namespace Speculation

/-- What a property gives: a value, or the functions that stand for one. -/
inductive Content where
  | data (value : Value)
  | accessor (getter setter : Value)
deriving DecidableEq, Repr

/-- An own property. -/
structure OwnProperty where
  content : Content
  attributes : Attributes
deriving DecidableEq, Repr

namespace Shape

variable {t : Shape}

/-- The accessors that a shape describes under a name. -/
def accessor? (t : Shape) (name : Name) : Option OwnProperty :=
  (t.descriptor? name).bind fun d =>
    match d.kind with
    | .accessor getter setter => some ⟨.accessor getter setter, d.attributes⟩
    | _ => none

theorem accessor?_ne_data (t : Shape) (name : Name) (v : Value) (a : Attributes) :
    t.accessor? name ≠ some ⟨.data v, a⟩ := by
  intro e
  obtain ⟨d, -, e⟩ := Option.bind_eq_some_iff.mp e
  cases kind : d.kind <;> simp [kind] at e

/-- Accessors are a matter of the layout. -/
theorem accessor?_of_derive {t' : Shape} (layout : t'.derive = t.derive) (name : Name) :
    t'.accessor? name = t.accessor? name := by
  have descriptors : t'.descriptors = t.descriptors := by
    simpa using congrArg Shape.descriptors layout
  simp only [accessor?, descriptor?, descriptors]

theorem Orderly.index_lt_fieldCount (orderly : t.Orderly) {d : Descriptor} (hd : d ∈ t.descriptors)
    {i : Nat} (hi : d.kind = .field i) : i < t.fieldCount :=
  orderly.indices_lt i (mem_fieldIndices.mpr ⟨d, hd, hi⟩)

/-- A field belongs to one descriptor only. -/
theorem Orderly.eq_of_index (orderly : t.Orderly) {d e : Descriptor} (hd : d ∈ t.descriptors)
    (he : e ∈ t.descriptors) {i : Nat} (hi : d.kind = .field i) (hi' : e.kind = .field i) :
    d = e := by
  by_contra ne
  have symmetric : Std.Symm fun d e : Descriptor => ∀ i, d.kind.fieldIndex? = some i →
      ∀ j, e.kind.fieldIndex? = some j → i ≠ j :=
    ⟨fun _ _ distinct i hi j hj => Ne.symm (distinct j hj i hi)⟩
  have apart := List.pairwise_filterMap.mp orderly.indices
  exact apart.forall hd he ne i (PropertyKind.fieldIndex?_eq_some.mpr hi) i
    (PropertyKind.fieldIndex?_eq_some.mpr hi') rfl

theorem descriptor?_withField_self {name : Name} {d : Descriptor} {i : Nat}
    (described : t.descriptor? name = some d) :
    (t.withField name i).descriptor? name = some { d with kind := .field i } := by
  rw [descriptor?_withField_eq, described, Option.map_some, if_pos (mem_of_descriptor? described).2]

/-- A name has the descriptor that has the name. -/
theorem Orderly.descriptor?_eq_some (orderly : t.Orderly) {name : Name} {d : Descriptor} :
    t.descriptor? name = some d ↔ d ∈ t.descriptors ∧ d.name = name := by
  refine ⟨mem_of_descriptor?, fun ⟨hd, hn⟩ => ?_⟩
  cases described : t.descriptor? name with
  | none => exact absurd hn (name_ne_of_descriptor? described d hd)
  | some e =>
    obtain ⟨he, hn'⟩ := mem_of_descriptor? described
    rw [List.inj_on_of_nodup_map orderly.names he hd (hn'.trans hn.symm)]

/-- Transitions and stubs do not matter. -/
theorem Orderly.of_derive {t' : Shape} (orderly : t.Orderly) (layout : t'.derive = t.derive) :
    t'.Orderly := by
  have descriptors : t'.descriptors = t.descriptors := by
    simpa using congrArg Shape.descriptors layout
  have mode : t'.isDictionary = t.isDictionary := by simpa using congrArg Shape.isDictionary layout
  have indices : t'.fieldIndices = t.fieldIndices := by rw [fieldIndices, fieldIndices, descriptors]
  refine ⟨?_, ?_, ?_, ?_⟩
  · rw [descriptors]
    exact orderly.names
  · rw [indices]
    exact orderly.indices
  · rw [indices, fieldCount_of_derive layout]
    exact orderly.indices_lt
  · rw [mode, descriptors]
    exact orderly.accessors

/-- Dictionary mode is orderly. -/
theorem Orderly.normalized (orderly : t.Orderly) : t.normalized.Orderly where
  names := orderly.names.sublist (List.filter_sublist.map _)
  indices := orderly.indices.sublist (List.filter_sublist.filterMap _)
  indices_lt i hi := by
    obtain ⟨d, hd, kind⟩ := mem_fieldIndices.mp hi
    simpa [kind, PropertyKind.isAccessor] using (mem_normalized.mp hd).2
  accessors _ _ hd := (mem_normalized.mp hd).2

/-- Dictionary mode keeps the accessors. -/
theorem Orderly.accessor?_normalized (orderly : t.Orderly) (name : Name) :
    t.normalized.accessor? name = t.accessor? name := by
  have described : t.normalized.descriptor? name =
      (t.descriptor? name).filter fun d => d.kind.isAccessor := by
    ext d
    rw [orderly.normalized.descriptor?_eq_some, mem_normalized, Option.filter_eq_some_iff,
      orderly.descriptor?_eq_some, and_right_comm]
  rw [accessor?, accessor?, described]
  cases t.descriptor? name with
  | none => rfl
  | some d => cases kind : d.kind <;> simp [Option.filter_some, kind, PropertyKind.isAccessor]

/-- The dictionary that data descriptors turn into. -/
theorem Orderly.get?_entries (orderly : t.Orderly) (fields : List Value) (name : Name) :
    ((t.descriptors.filterMap (Heap.entryOf? fields)).foldl (fun t e => t.insert e.1 e.2)
      ({} : Table Name DictionaryEntry)).get? name =
      ((t.descriptor? name).bind (Heap.entryOf? fields)).map (·.2) := by
  -- Names are distinct, so that every entry of the name comes from its descriptor.
  have entry {e : Name × DictionaryEntry} (he : e ∈ t.descriptors.filterMap (Heap.entryOf? fields))
      (hn : e.1 = name) : (t.descriptor? name).bind (Heap.entryOf? fields) = some e := by
    obtain ⟨d, hd, turned⟩ := List.mem_filterMap.mp he
    have described := orderly.descriptor?_eq_some.mpr
      ⟨hd, (Heap.entryOf?_eq_some turned).1.symm.trans hn⟩
    rw [described, Option.bind_some, turned]
  cases turned : (t.descriptor? name).bind (Heap.entryOf? fields) with
  | none =>
    refine Heap.get?_foldl_insert _ fun e he hn => ?_
    rw [entry he hn] at turned
    cases turned
  | some e =>
    refine Heap.get?_foldl_insert_of_mem _ ?_ fun e' he' hn => ?_
    · obtain ⟨d, described, turned⟩ := Option.bind_eq_some_iff.mp turned
      obtain ⟨hd, hn⟩ := mem_of_descriptor? described
      exact ⟨e, List.mem_filterMap.mpr ⟨d, hd, turned⟩, (Heap.entryOf?_eq_some turned).1.trans hn⟩
    · rw [entry he' hn, Option.some.injEq] at turned
      rw [turned]

end Shape

/-! ### The properties of one object -/

/-- Where the named properties of an object are. -/
structure Properties where
  shape : Shape
  fields : List Value
  dictionary : Table Name DictionaryEntry

namespace Properties

/-- What is kept for a property of a kind. -/
def content (p : Properties) (name : Name) : PropertyKind → Content
  | .field i => .data (p.fields.getD i .undefined)
  | .constant v => .data v
  | .normal => .data (((p.dictionary.get? name).map (·.value)).getD .undefined)
  | .accessor getter setter => .accessor getter setter

/-- The property of a name. -/
def get? (p : Properties) (name : Name) : Option OwnProperty :=
  (p.shape.owned? p.dictionary name).map fun q => ⟨p.content name q.1, q.2⟩

/-- Properties that are where the shape says. -/
structure Fit (p : Properties) : Prop extends p.shape.Orderly where
  fields : p.fields.length = p.shape.fieldCount
  fast : p.shape.isDictionary = false → p.dictionary = {}

/-- After a write, `q` is owned under the name `name`, and under every other name what was. -/
def Updates (p p' : Properties) (name : Name) (q : Option OwnProperty) : Prop :=
  ∀ n, p'.get? n = if name = n then q else p.get? n

variable {p p' : Properties} {name : Name} {a : Attributes}

theorem get?_of_owned? {k : PropertyKind} (owned : p.shape.owned? p.dictionary name = some (k, a)) :
    p.get? name = some ⟨p.content name k, a⟩ := by
  rw [get?, owned]
  rfl

/-- A property stays where its descriptor and its place stay. -/
theorem get?_congr (owned : p'.shape.owned? p'.dictionary name = p.shape.owned? p.dictionary name)
    (field : ∀ i a, p.shape.owned? p.dictionary name = some (.field i, a) →
      p'.fields[i]? = p.fields[i]?)
    (entry : p'.dictionary.get? name = p.dictionary.get? name) : p'.get? name = p.get? name := by
  unfold get?
  rw [owned]
  rcases hq : p.shape.owned? p.dictionary name with _ | ⟨k, a⟩
  · rfl
  · cases k with
    | field i =>
      simp only [Option.map_some, content, List.getD_eq_getElem?_getD, field i a hq]
    | normal => simp only [Option.map_some, content, entry]
    | _ => rfl

/-- Transitions and stubs of the shape do not matter. -/
theorem get?_of_derive {t : Shape} (layout : t.derive = p.shape.derive) (name : Name) :
    ({ p with shape := t } : Properties).get? name = p.get? name :=
  get?_congr (Shape.owned?_of_derive layout p.dictionary name) (fun _ _ _ => rfl) rfl

/-! ### Fields -/

namespace Fit

variable (fit : p.Fit)

include fit

theorem index_lt {i : Nat} (owned : p.shape.owned? p.dictionary name = some (.field i, a)) :
    i < p.fields.length := by
  rw [fit.fields]
  have described := Shape.descriptor?_of_owned? owned (by simp)
  exact fit.index_lt_fieldCount (Shape.mem_of_descriptor? described).1 rfl

/-- No other property has the field. -/
theorem updates_field {i : Nat}
    (owned : p.shape.owned? p.dictionary name = some (.field i, a)) (v : Value) :
    p.Updates { p with fields := p.fields.set i v } name (some ⟨.data v, a⟩) := by
  intro n
  split
  · rename_i hn
    subst hn
    have place : ({ p with fields := p.fields.set i v } : Properties).content name (.field i) =
        .data v := by
      simp [content, fit.index_lt owned]
    rw [← place]
    exact get?_of_owned? owned
  · rename_i hn
    refine get?_congr rfl (fun k b other => ?_) rfl
    -- Two names in one field would have one descriptor, which has only one name.
    have ne : i ≠ k := by
      rintro rfl
      have this := Shape.mem_of_descriptor? (Shape.descriptor?_of_owned? owned (by simp))
      have that := Shape.mem_of_descriptor? (Shape.descriptor?_of_owned? other (by simp))
      exact hn (congrArg Descriptor.name (fit.eq_of_index this.1 that.1 rfl rfl))
    exact List.getElem?_set_ne ne

/-- A field behind the others, for a shape that describes it. -/
theorem updates_append {t : Shape} (fast : p.shape.isDictionary = false)
    (fast' : t.isDictionary = false)
    (this : t.descriptor? name = some ⟨name, .field p.shape.fieldCount, a⟩)
    (others : ∀ n, name ≠ n → t.descriptor? n = p.shape.descriptor? n) (v : Value) :
    p.Updates { p with shape := t, fields := p.fields ++ [v] } name (some ⟨.data v, a⟩) := by
  intro n
  split
  · rename_i hn
    subst hn
    have owned : t.owned? p.dictionary name = some (.field p.shape.fieldCount, a) := by
      rw [Shape.owned?_fast fast', this]
      rfl
    have place : ({ p with shape := t, fields := p.fields ++ [v] } : Properties).content name
        (.field p.shape.fieldCount) = .data v := by
      simp [content, ← fit.fields]
    rw [← place]
    exact get?_of_owned? owned
  · rename_i hn
    refine get?_congr ?_ (fun k b other => ?_) rfl
    · rw [Shape.owned?_fast fast, Shape.owned?_fast fast', others n hn]
    · exact List.getElem?_append_left (fit.index_lt other)

/-- A constant becomes a field. -/
theorem updates_constant {c : Value}
    (owned : p.shape.owned? p.dictionary name = some (.constant c, a)) (v : Value) :
    p.Updates { p with
      shape := p.shape.withField name p.shape.fieldCount
      fields := p.fields ++ [v] } name (some ⟨.data v, a⟩) := by
  have described := Shape.descriptor?_of_owned? owned (by simp)
  -- A shape in dictionary mode describes nothing but accessors.
  have fast : p.shape.isDictionary = false := by
    rw [Bool.eq_false_iff]
    exact fun dictionary => by
      cases fit.accessors dictionary _ (Shape.mem_of_descriptor? described).1
  exact fit.updates_append (t := p.shape.withField name p.shape.fieldCount) fast fast
    (Shape.descriptor?_withField_self described)
    (fun n hn => Shape.descriptor?_withField (Ne.symm hn)) v

/-- A new property of a fast object. -/
theorem updates_extended (fast : p.shape.isDictionary = false)
    (absent : p.shape.descriptor? name = none) (v : Value) (a : Attributes) :
    p.Updates { p with
      shape := p.shape.extended ⟨name, .field p.shape.fieldCount, a⟩
      fields := p.fields ++ [v] } name (some ⟨.data v, a⟩) := by
  refine fit.updates_append (t := p.shape.extended ⟨name, .field p.shape.fieldCount, a⟩) fast fast
    ?_ (fun n hn => ?_) v
  · rw [Shape.descriptor?, Shape.descriptors_extended, List.find?_append, ← Shape.descriptor?, absent]
    simp
  · rw [Shape.descriptor?, Shape.descriptors_extended, List.find?_append, ← Shape.descriptor?]
    simp [hn]

end Fit

/-! ### Dictionaries -/

section Dictionary

variable (accessors : ∀ d ∈ p.shape.descriptors, d.kind.isAccessor) (mode : p.shape.isDictionary)

include accessors mode

/-- In dictionary mode, accessors are what the dictionary does not have. -/
theorem get?_dictionary (name : Name) : p.get? name =
    ((p.dictionary.get? name).map fun e => ⟨.data e.value, e.attributes⟩).or
      (p.shape.accessor? name) := by
  unfold get? Shape.owned? Shape.accessor?
  rw [if_pos mode]
  cases entry : p.dictionary.get? name with
  | some e => simp [content, entry]
  | none =>
    cases described : p.shape.descriptor? name with
    | none => rfl
    | some d =>
      have accessor := accessors d (Shape.mem_of_descriptor? described).1
      cases kind : d.kind with
      | accessor g s => simp [content, kind]
      | _ => simp [kind, PropertyKind.isAccessor] at accessor

/-- An entry that is written is the one that is found. -/
theorem updates_entry (name : Name) (e : DictionaryEntry) :
    p.Updates { p with dictionary := p.dictionary.insert name e } name
      (some ⟨.data e.value, e.attributes⟩) := by
  intro n
  have after := get?_dictionary (p := { p with dictionary := p.dictionary.insert name e }) accessors mode
  rw [after, get?_dictionary accessors mode, Table.get?_insert]
  split <;> rfl

/-- Without its entry, a property gives way to accessors. -/
theorem updates_erased (name : Name) :
    p.Updates { p with dictionary := p.dictionary.erase name } name (p.shape.accessor? name) := by
  intro n
  have after := get?_dictionary (p := { p with dictionary := p.dictionary.erase name }) accessors mode
  rw [after, get?_dictionary accessors mode, Table.get?_erase]
  split
  · rename_i hn
    rw [hn]
    rfl
  · rfl

end Dictionary

/-! ### Going to dictionary mode -/

/-- The properties of an object that goes to dictionary mode, if it is not in it. -/
def normalized (p : Properties) : Properties :=
  if p.shape.isDictionary then p
  else {
    shape := p.shape.normalized
    fields := []
    dictionary := (p.shape.descriptors.filterMap (Heap.entryOf? p.fields)).foldl
      (fun t e => t.insert e.1 e.2) p.dictionary }

@[simp] theorem isDictionary_normalized (p : Properties) : p.normalized.shape.isDictionary = true := by
  unfold Properties.normalized
  split
  · assumption
  · rfl

/-- Whether properties fit is a matter of the layout. -/
theorem Fit.of_derive (fit : p.Fit) {t : Shape} (layout : t.derive = p.shape.derive) :
    ({ p with shape := t } : Properties).Fit where
  toOrderly := fit.toOrderly.of_derive layout
  fields := fit.fields.trans (Shape.fieldCount_of_derive layout).symm
  fast fast := fit.fast ((congrArg Shape.isDictionary layout).symm.trans fast)

/-- Properties fit in dictionary mode. -/
theorem Fit.normalized (fit : p.Fit) : p.normalized.Fit := by
  unfold Properties.normalized
  split
  · exact fit
  · exact {
      toOrderly := fit.toOrderly.normalized
      fields := Shape.fieldCount_normalized.symm
      fast := fun fast => by cases fast }

theorem Fit.accessor?_normalized (fit : p.Fit) (name : Name) :
    p.normalized.shape.accessor? name = p.shape.accessor? name := by
  unfold Properties.normalized
  split
  · rfl
  · exact fit.toOrderly.accessor?_normalized name

/-- Going to dictionary mode moves properties, and changes none. -/
theorem Fit.get?_normalized (fit : p.Fit) (stored : ∀ d ∈ p.shape.descriptors, d.kind ≠ .normal)
    (name : Name) : p.normalized.get? name = p.get? name := by
  unfold Properties.normalized
  split
  · rfl
  rename_i mode
  have fast : p.shape.isDictionary = false := by simpa using mode
  have accessors : ∀ d ∈ p.shape.normalized.descriptors, d.kind.isAccessor := fun d hd =>
    (Shape.mem_normalized.mp hd).2
  rw [fit.fast fast, get?_dictionary accessors rfl, fit.get?_entries p.fields name,
    fit.toOrderly.accessor?_normalized, get?, Shape.owned?_fast fast, Shape.accessor?]
  cases described : p.shape.descriptor? name with
  | none => rfl
  | some d =>
    cases kind : d.kind with
    | normal => exact absurd kind (stored d (Shape.mem_of_descriptor? described).1)
    | _ => simp [Heap.entryOf?, content, kind]

end Properties

/-! ### The properties of a heap -/

namespace Heap

/-- Where the named properties of an object are. -/
def propertiesOf (h : Heap) (o : JsObject) : Properties := ⟨h.shapeOf o, o.fields, o.dictionary⟩

/-- What the holder of a property keeps for it. -/
def contentOf (h : Heap) (holder : ObjectId) (name : Name) : PropertyKind → Content
  | .field i => .data (h.fieldValue holder i)
  | .constant v => .data v
  | .normal => .data ((h.dictionaryValue? holder name).getD .undefined)
  | .accessor getter setter => .accessor getter setter

/-- The own property that a real lookup finds. -/
def ownProperty? (h : Heap) (id : ObjectId) (name : Name) : Option OwnProperty :=
  match h.ownReal id name with
  | .property holder kind attributes => some ⟨h.contentOf holder name kind, attributes⟩
  | _ => none

variable {rules : Rules} {h : Heap} {id : ObjectId} {o : JsObject} {name : Name}

/-- What a property holds is found in the object. -/
theorem contentOf_eq (ho : h.object? id = some o) (name : Name) (kind : PropertyKind) :
    h.contentOf id name kind = (h.propertiesOf o).content name kind := by
  cases kind <;> simp [contentOf, Properties.content, propertiesOf, fieldValue, dictionaryValue?,
    dictionarySlot?, ho]

theorem contentOf_eq_accessor {kind : PropertyKind} {getter setter : Value} :
    h.contentOf id name kind = .accessor getter setter ↔ kind = .accessor getter setter := by
  cases kind <;> simp [contentOf]

/-- What a real lookup found is read where its holder keeps it. -/
theorem readReal_property (receiver : Value) (holder : ObjectId) (kind : PropertyKind)
    (a : Attributes) (name : Name) (h : Heap) :
    readReal receiver (.property holder kind a) name h =
      match h.contentOf holder name kind with
      | .data v => (.ok v, h)
      | .accessor getter _ => callGetter getter receiver h := by
  cases kind <;> rfl

/-- The own property that was found says where it is and what it means. -/
theorem ownProperty?_of_ownReal {holder : ObjectId} {kind : PropertyKind} {a : Attributes}
    (found : h.ownReal id name = .property holder kind a) :
    h.ownProperty? id name = some ⟨h.contentOf holder name kind, a⟩ := by
  rw [ownProperty?, found]

/-- There is no property where nothing is owned. -/
theorem ownProperty?_eq_none : h.ownProperty? id name = none ↔ h.ownReal id name = .notFound := by
  rcases h.ownReal_cases id name with e | ⟨k, a, e⟩ <;> simp [ownProperty?, e]

/-- The own property of an object is found in it, or in the global object that it stands for. -/
theorem Obeys.ownProperty?_eq (ob : h.Obeys rules) (id : ObjectId) (name : Name) :
    h.ownProperty? id name =
      (h.object? (h.resolveProxy id)).bind fun o => (h.propertiesOf o).get? name := by
  rw [ownProperty?, ← ob.ownReal_resolveProxy]
  cases ho : h.object? (h.resolveProxy id) with
  | none => simp [ownReal, ob.resolveProxy_resolveProxy, ho]
  | some o =>
    rw [ownReal_eq (ob.resolveProxy_resolveProxy id) ho, Option.bind_some, Properties.get?]
    change _ = Option.map _ ((h.shapeOf o).owned? o.dictionary name)
    cases (h.shapeOf o).owned? o.dictionary name with
    | none => rfl
    | some q => simp only [Lookup.ofOwned, contentOf_eq ho, Option.map_some]

/-- With fresh names, every object fits its shape. -/
theorem Obeys.fit (ob : h.Obeys rules) (fresh : rules.freshNames) (ho : h.object? id = some o) :
    (h.propertiesOf o).Fit where
  toOrderly := (ob.shape (ob.object ho).shape_lt).orderly fresh
  fields := (ob.object ho).fields fresh
  fast := (ob.object ho).fast

end Heap

end Speculation
