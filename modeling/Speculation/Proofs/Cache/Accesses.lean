import Speculation.Proofs.Cache.Transfer
import Speculation.Proofs.Cache.Upkeep

/-!
# Running stubs

Running a stub leads from a well-formed heap to a well-formed one. For loads and calls this needs
nothing of the stub. A store may move the receiver to a shape that the stub names; that the shape
is a transition of the receiver's is what the stub's origin and its guards are needed for.

A store of an element does not ask what the general rules ask, only whether the value fits the kind
that the stub was made for. `AccessClosed` adds to what a relation between heaps has to satisfy for
general stores what these stubs may do: they write data without touching elements, they add fields
along transitions, and they put elements that fit, where the relation may ask that the stored value is
acceptable. Such a relation holds across every stub, and across every dispatch at a site, whether it
fails or not (`Across`), which moreover ends in a sound site. Growth is again the first such relation.
-/

namespace Speculation

/-- An object before and after a change of its data that touches neither its shape nor its elements. -/
structure JsObject.Steady (o o' : JsObject) : Prop where
  shape : o'.shape = o.shape
  fields : o'.fields.length = o.fields.length
  elements : o'.elements = o.elements
  callHandler : o'.callHandler = o.callHandler

namespace Heap

variable {rules : Rules} {h h' : Heap} {id : ObjectId} {o : JsObject} {key : Key} {v : Value}
  {kind : ElementsKind} {spec : StubSpec} {R : Heap → Heap → Prop} {ok : Value → Prop}

/-! ### Loads and calls -/

namespace CallClosed

variable (c : CallClosed rules R)

include c

/-- An action followed by one that changes nothing. -/
theorem bind_pure {α β : Type} {a : Action α} {f : α → Action β} (ha : R h (a h).2)
    (hf : ∀ x h', (f x h').2 = h') : R h ((a >>= f) h).2 :=
  Computation.bind_rel c.trans ha fun x _ => by
    rw [hf]
    exact c.refl (c.leads ha).obeys

variable (ob : h.Obeys rules)

include ob

theorem getByKey (receiver : Value) (key : Key) : R h (getByKey receiver key h).2 := by
  cases key with
  | named n => exact c.getNamed ob receiver n
  | computed v => exact c.getKeyed ob receiver v

theorem loadCharacter (receiver : Value) (key : Key) : R h (loadCharacter receiver key h).2 := by
  simp only [Heap.loadCharacter, Computation.get_bind]
  cases key.elementIndex? with
  | none => exact c.refl ob
  | some i =>
    cases h.string? receiver with
    | none => exact c.refl ob
    | some s =>
      dsimp only
      cases (Text.units s)[i]? with
      | none => exact c.refl ob
      | some u => exact c.bind_pure (c.newString ob _) fun _ _ => rfl

theorem loadByHandler (receiver : Value) (key : Key) :
    R h (loadByHandler spec receiver key h).2 := by
  simp only [Heap.loadByHandler, Computation.get_bind]
  cases spec.handler with
  | loadViaGetter holder getter => exact c.bind_pure (c.call _ _ _ ob) fun _ _ => rfl
  | loadInterceptor holder =>
    dsimp only
    cases key.name? h with
    | none => exact c.refl ob
    | some n =>
      dsimp only
      cases (h.holderId? receiver holder).bind fun id => h.interceptorValue? id n with
      | some v => exact c.refl ob
      | none => exact c.bind_pure (c.getProperty ob _ _) fun _ _ => rfl
  | loadStringWrapperLength => dsimp only; split <;> exact c.refl ob
  | loadElementPolymorphic targets =>
    dsimp only
    cases h.targetFor? spec.receiverShapes targets receiver with
    | none => exact c.refl ob
    | some target =>
      cases target with
      | elements kind => exact c.refl ob
      | string => exact c.loadCharacter ob receiver key
  | loadIndexedString => exact c.loadCharacter ob receiver key
  | _ => exact c.refl ob

/-- A stub for loads changes the heap like a read by the general rules. -/
theorem runLoad (receiver : Value) (key : Key) : R h (runLoad spec receiver key h).2 := by
  have guarded : R h ((do
      if (← get).guardsHold spec receiver (key.name? (← get)) then Heap.loadByHandler spec receiver key
      else return .miss : Action Outcome) h).2 := by
    simp only [Computation.get_bind]
    split
    · exact c.loadByHandler ob receiver key
    · exact c.refl ob
  unfold Heap.runLoad
  cases spec.handler with
  | fresh => exact c.refl ob
  | premonomorphic => exact c.refl ob
  | megamorphic => exact c.refl ob
  | generic => exact c.bind_pure (c.getByKey ob receiver key) fun _ _ => rfl
  | _ => exact guarded

theorem calleeByKey (receiver : Value) (key : Key) : R h (calleeByKey receiver key h).2 :=
  c.bind_pure (c.getByKey ob receiver key) fun _ _ => rfl

theorem calleeByHandler (receiver : Value) (key : Key) (args : List Value) :
    R h (calleeByHandler spec receiver key args h).2 := by
  simp only [Heap.calleeByHandler, Computation.get_bind]
  cases spec.handler with
  | callConstant f => dsimp only; split <;> exact c.refl ob
  | callInterceptor holder =>
    dsimp only
    cases key.name? h with
    | none => exact c.refl ob
    | some n => exact c.bind_pure (c.getProperty ob _ _) fun _ _ => rfl
  | callArguments =>
    dsimp only
    cases h.loadArgument receiver key <;> exact c.refl ob
  | _ => exact c.refl ob

/-- A stub for calls changes the heap like a read by the general rules. -/
theorem runCall (receiver : Value) (key : Key) (args : List Value) :
    R h (runCall spec receiver key args h).2 := by
  have guarded : R h ((do
      let h ← get
      if h.guardsHold spec receiver (key.name? h) then Heap.calleeByHandler spec receiver key args
      else return .miss : Action Outcome) h).2 := by
    simp only [Computation.get_bind]
    split
    · exact c.calleeByHandler ob receiver key args
    · exact c.refl ob
  unfold Heap.runCall
  cases spec.handler with
  | fresh => exact c.refl ob
  | premonomorphic => exact c.refl ob
  | megamorphic => exact c.refl ob
  | generic => exact c.calleeByKey ob receiver key
  | _ => exact guarded

end CallClosed

/-! ### What stubs put into elements -/

/-- The elements after a store inside them or right behind them. -/
def putElement (elements : Array Value) (i : Nat) (v : Value) : Array Value :=
  if i < elements.size then elements.set! i v else elements.push v

/-- A fast store misses and changes nothing, or it puts an element. -/
theorem storeElementFast_cases (h : Heap) (id : ObjectId) (key : Key) (v : Value)
    (kind : ElementsKind) (grow : Bool) (target : Option ShapeId) :
    (∃ m, (∀ w, m ≠ .hit w) ∧ h.storeElementFast id key v kind grow target = (m, h)) ∨
    ∃ i o, key.elementIndex? = some i ∧ h.object? id = some o ∧ i ≤ o.elements.size ∧
      h.fitsKind kind v ∧ h.storeElementFast id key v kind grow target = (.hit v,
        h.modifyObject id fun o =>
          { o with shape := target.getD o.shape, elements := putElement o.elements i v }) := by
  unfold storeElementFast
  cases hi : key.elementIndex? with
  | none => exact .inl ⟨_, by simp, rfl⟩
  | some i =>
    dsimp only
    split
    · exact .inl ⟨_, by simp, rfl⟩
    · rename_i fits
      cases ho : h.object? id with
      | none => exact .inl ⟨_, by simp, rfl⟩
      | some o =>
        simp only [Bool.or_eq_true, decide_eq_true_eq]
        split
        · rename_i room
          refine .inr ⟨i, o, rfl, rfl, ?_, by simpa using fits, ?_⟩
          · rcases room with lt | appends
            · exact Nat.le_of_lt lt
            · simp only [Bool.and_eq_true, decide_eq_true_eq] at appends
              exact Nat.le_of_eq appends.1.1
          · refine congrArg (Prod.mk (Outcome.hit v)) (modifyObject_congr fun o' ho' => ?_)
            obtain rfl := Option.some.inj (ho.symm.trans ho')
            by_cases lt : i < o.elements.size
            · simp [putElement, lt, Nat.ne_of_lt lt]
            · simp [putElement, lt, room.resolve_left lt]
        · exact .inl ⟨_, by simp, rfl⟩

/-- So does a store to an arguments object, whose elements may be anything. -/
theorem storeArgument_cases (ob : h.Obeys rules) (id : ObjectId) (key : Key) (v : Value) :
    (∃ m, (∀ w, m ≠ .hit w) ∧ h.storeArgument id key v = (m, h)) ∨
    ∃ i o, key.elementIndex? = some i ∧ h.object? id = some o ∧ i ≤ o.elements.size ∧
      h.fitsKind (h.shapeOf o).elementsKind v ∧ h.storeArgument id key v = (.hit v,
        h.modifyObject id fun o => { o with elements := putElement o.elements i v }) := by
  unfold storeArgument
  split
  · rename_i args
    cases hi : key.elementIndex? with
    | none => exact .inl ⟨_, by simp, rfl⟩
    | some i =>
      cases ho : h.object? id with
      | none => exact .inl ⟨_, by simp, rfl⟩
      | some o =>
        dsimp only
        split
        · rename_i lt
          have tagged : (h.shapeOf o).elementsKind.storage = .tagged := by
            have hc : h.classOf? (.object id) = some o.objectClass := by
              simp [classOf?, asObject?, Value.objectId?, ho]
            simp only [isNonStrictArguments, hc] at args
            split at args
            · rename_i callee e
              exact (ob.object ho).arguments (Option.some.inj e)
            · cases args
          refine .inr ⟨i, o, rfl, rfl, Nat.le_of_lt lt, by simp [fitsKind, tagged], ?_⟩
          refine congrArg (Prod.mk (Outcome.hit v)) (modifyObject_congr fun o' ho' => ?_)
          obtain rfl := Option.some.inj (ho.symm.trans ho')
          rw [putElement, if_pos lt]
        · exact .inl ⟨_, by simp, rfl⟩
  · exact .inl ⟨_, by simp, rfl⟩

/-- Where a stub may leave an object when it puts an element: at its own shape, or behind one of its
elements transitions. -/
def Widens (h : Heap) (o : JsObject) (target : Option ShapeId) : Prop :=
  ∀ t, target = some t → h.Widened t ∧ ∃ k, (h.shapeOf o).elementsTransitions.get? k = some t

/-- A relation that also holds across what stubs write. -/
structure AccessClosed (rules : Rules) (R : Heap → Heap → Prop) (ok : Value → Prop) : Prop
    extends ElementClosed rules R where
  /-- Only the stubs of shapes change. -/
  bare : ∀ {h h' : Heap}, h.Obeys rules → h'.bare = h.bare → h'.invocations = h.invocations →
    R h h'
  /-- A shape with more general elements is looked for. -/
  elementsTransition : ∀ {h : Heap} {s : ShapeId} {k : ElementsKind}, h.Obeys rules →
    s.index < h.shapes.size → h.Widened s → (h.shape s).elementsKind.le k →
    R h (h.elementsTransition s k).2
  /-- An object changes, but neither its layout nor its elements nor its call handler. -/
  data : ∀ {h : Heap} {id : ObjectId} {f : JsObject → JsObject},
    Leads rules h (h.modifyObject id f) → (∀ o : JsObject, o.Steady (f o)) → R h (h.modifyObject id f)
  /-- A stub adds a field, along a transition. -/
  newField : ∀ {h : Heap} {id : ObjectId} {o : JsObject} {name : Name} {target : ShapeId} {v : Value},
    h.Obeys rules → h.object? id = some o → (h.shapeOf o).transitions.get? name = some target →
    (h.shape target).fieldCount = (h.shapeOf o).fieldCount + 1 →
    Leads rules h (h.storeNewField id (h.shapeOf o).fieldCount target v) →
    R h (h.storeNewField id (h.shapeOf o).fieldCount target v)
  /-- A stub puts an element. -/
  put : ∀ {h : Heap} {id : ObjectId} {o : JsObject} {i : Nat} {v : Value} {target : Option ShapeId},
    h.Obeys rules → ok v → h.object? id = some o → i ≤ o.elements.size → h.Widens o target →
    h.fitsKind (h.shape (target.getD o.shape)).elementsKind v →
    R h (h.modifyObject id fun o =>
      { o with shape := target.getD o.shape, elements := putElement o.elements i v })

theorem accessClosed_leads (rules : Rules) :
    AccessClosed rules (Leads rules) fun _ => True where
  toElementClosed := elementClosed_leads rules
  bare ob e log := ob.leads_of_bare e log
  elementsTransition ob hs w le := (elementsTransition_settles ob hs w le).leads
  data l _ := l
  newField _ _ _ _ l := l
  put {h id o i v target} ob _ ho _ widens _ := by
    refine ob.leads_move fun o' ho' => ?_
    obtain rfl := Option.some.inj (ho.symm.trans ho')
    have fits := ob.object ho
    cases target with
    | none => exact ⟨rfl, fits.shape_lt, fits.widened, .refl _, fits.fields, fits.array, fun _ e => e⟩
    | some t =>
      obtain ⟨w, k, hk⟩ := widens t rfl
      obtain ⟨hlt, hl, -⟩ := (ob.shape fits.shape_lt).elementsTransitions hk
      have layout : (h.shape t).derive = ((h.shapeOf o).withElements k).derive := hl
      have p : (h.shapeOf o).Precedes (h.shape t) :=
        (Shape.precedes_withElements (w _ k hk)).trans (.of_derive layout)
      have hf : (h.shape t).fieldCount = (h.shapeOf o).fieldCount := by
        have hd : (h.shape t).descriptors = (h.shapeOf o).descriptors := by
          simpa [shapeOf] using congrArg Shape.descriptors hl
        rw [Shape.fieldCount, Shape.fieldCount, hd]
      exact ⟨rfl, hlt, w, p, fun r => (fits.fields r).trans hf.symm, fits.array, fun _ e => e⟩

/-! ### Stores -/

/-- A store of a new field, to an object whose shape has a transition for it. -/
theorem storeNewField_leads (ob : h.Obeys rules) {index : Nat} {target : ShapeId} {d : Descriptor}
    (ho : h.object? id = some o) (hlt : target.index < h.shapes.size)
    (w : h.Widened target) (hi : index = (h.shapeOf o).fieldCount) (hd : d.kind = .field index)
    (hl : (h.shape target).derive = ((h.shapeOf o).extended d).derive) (v : Value) :
    Leads rules h (h.storeNewField id index target v) := by
  refine ob.leads_move fun o' ho' => ?_
  obtain rfl := Option.some.inj (ho.symm.trans ho')
  have fits := ob.object ho
  refine ⟨rfl, hlt, w, (Shape.precedes_extended d).trans (.of_derive hl), fun r => ?_, fits.array,
    fun _ e => e⟩
  have hc : (h.shape target).fieldCount = (h.shapeOf o).fieldCount + 1 := by
    rw [Shape.fieldCount_of_derive hl, Shape.fieldCount_extended, hd]
    rfl
  have hf := fits.fields r
  simp only [shapeOf, List.length_set, List.length_append, List.length_replicate] at hf hi hc ⊢
  omega

/-- A stub for several shapes takes the target that stands at the place of the shape. -/
theorem targetFor?_eq_some {α : Type} {shapes : List ShapeId} {targets : List α} {receiver : Value}
    {s : ShapeId} {x : α} (hs : h.receiverShape? receiver = some s)
    (ht : h.targetFor? shapes targets receiver = some x) :
    ∃ i : Nat, shapes[i]? = some s ∧ targets[i]? = some x := by
  simp only [targetFor?, hs] at ht
  obtain ⟨i, hi, hx⟩ := Option.bind_eq_some_iff.1 ht
  obtain ⟨hlt, he, -⟩ := List.idxOf?_eq_some_iff.1 hi
  exact ⟨i, by rw [List.getElem?_eq_getElem hlt, he], hx⟩

theorem object_of_holderId? {receiver : Value} {id : ObjectId}
    (hid : h.holderId? receiver .receiver = some id) :
    ∃ o, receiver = .object id ∧ h.object? id = some o := by
  cases receiver with
  | object j =>
    simp only [holderId?, Value.objectId?, Option.filter] at hid
    split at hid
    · cases hid
      rename_i hj
      obtain ⟨o, ho⟩ := Option.isSome_iff_exists.1 hj
      exact ⟨o, rfl, ho⟩
    · cases hid
  | _ => cases hid

/-- The kind of a monomorphic stub is that of its receiver. -/
theorem kind_of_storeElement {grow : Bool} (sound : spec.Sound rules h)
    (hh : spec.handler = .storeElement kind grow) (ho : h.object? id = some o) {name : Option Name}
    (hold : h.guardsHold spec (.object id) name) : kind = (h.shapeOf o).elementsKind := by
  obtain ⟨h₀, -, g, c⟩ := sound
  have origin := c.origin
  simp only [StubSpec.Origin, hh] at origin
  obtain ⟨s, hs, rfl⟩ := origin
  have e : s = o.shape :=
    Option.some.inj ((guardsHold_shape hold hs).symm.trans (mapOf?_object ho))
  have usable := c.shapes s (by simp [hs])
  rw [← g.kindOfShape usable.index_lt, e]
  rfl

/-- What a polymorphic store does for an object is still right for its shape. -/
theorem storesElements_of_sound (sound : spec.Sound rules h) {targets : List ElementStore}
    (hh : spec.handler = .storeElementPolymorphic targets) {id : ObjectId} {o : JsObject}
    (ho : h.object? id = some o) {target : ElementStore}
    (ht : h.targetFor? spec.receiverShapes targets (.object id) = some target) :
    h.StoresElements spec.receiverShapes o.shape target := by
  obtain ⟨h₀, -, g, c⟩ := sound
  have hs : h.receiverShape? (.object id) = some o.shape := mapOf?_object ho
  obtain ⟨i, hi, hti⟩ := targetFor?_eq_some hs ht
  have origin := c.origin
  simp only [StubSpec.Origin, hh] at origin
  have usable := c.shapes o.shape (List.mem_of_getElem? hi)
  exact (origin.2.2 i o.shape target hi hti).mono g usable.index_lt fun t ht => (c.shapes t ht).index_lt

/-- What a store stub with guards does. -/
def guardedStore (spec : StubSpec) (receiver : Value) (key : Key) (v : Value) : Action Outcome := do
  let h ← get
  if h.guardsHold spec receiver (key.name? h) then
    match h.holderId? receiver .receiver with
    | some id => storeByHandler spec receiver id key v
    | none => return .miss
  else return .miss

namespace AccessClosed

variable (c : AccessClosed rules R ok) (ob : h.Obeys rules)

include c ob

theorem setByKey (receiver v : Value) (strict : Bool) (key : Key) :
    R h (setByKey receiver v strict key h).2 := by
  cases key with
  | named n => exact c.setNamed ob receiver n v strict
  | computed k => exact c.setKeyed ob receiver k v strict

theorem setDictionaryValue (id : ObjectId) (name : Name) (v : Value) :
    R h (h.setDictionaryValue id name v) := by
  refine c.data (setDictionaryValue_leads ob name v) fun o => ?_
  split <;> exact ⟨rfl, rfl, rfl, rfl⟩

theorem storeInDictionary (id : ObjectId) (name : Option Name) (v : Value) :
    R h (storeInDictionary id name v h).2 := by
  simp only [Heap.storeInDictionary, Computation.get_bind]
  cases name with
  | none => exact c.refl ob
  | some n =>
    dsimp only
    cases h.dictionarySlot? id n with
    | none => exact c.refl ob
    | some e =>
      dsimp only
      split
      · exact c.refl ob
      · exact c.setDictionaryValue ob id n v

variable (hv : ok v)

include hv

/-- A store of an element by a stub changes the heap like a store by the general rules. -/
theorem storeElementFast (key : Key) {grow : Bool} {target : Option ShapeId}
    (ho : h.object? id = some o) (widens : h.Widens o target)
    (hk : kind = (h.shape (target.getD o.shape)).elementsKind) :
    R h (h.storeElementFast id key v kind grow target).2 := by
  obtain ⟨m, -, e⟩ | ⟨i, o', -, ho', within, fits, e⟩ :=
    h.storeElementFast_cases id key v kind grow target
  · rw [e]
    exact c.refl ob
  · obtain rfl := Option.some.inj (ho.symm.trans ho')
    rw [e]
    exact c.put ob hv ho within widens (hk ▸ fits)

theorem storeArgument (id : ObjectId) (key : Key) : R h (h.storeArgument id key v).2 := by
  obtain ⟨m, -, e⟩ | ⟨i, o, -, ho, within, fits, e⟩ := storeArgument_cases ob id key v
  · rw [e]
    exact c.refl ob
  · rw [e]
    have widens : h.Widens o none := by simp [Widens]
    exact c.put ob hv ho within widens fits

theorem storeByHandler (sound : spec.Sound rules h) {receiver : Value}
    (hold : h.guardsHold spec receiver (key.name? h))
    (hid : h.holderId? receiver .receiver = some id) :
    R h (storeByHandler spec receiver id key v h).2 := by
  obtain ⟨o, rfl, ho⟩ := object_of_holderId? hid
  simp only [Heap.storeByHandler, Computation.get_bind]
  cases hh : spec.handler with
  | storeField index transition =>
    cases transition with
    | none => exact c.data (setField_leads ob index v) fun _ => ⟨rfl, by simp, rfl, rfl⟩
    | some target =>
      obtain ⟨h₀, name, found, holder, id₀, id', o, o', so, hk, hr, gd⟩ :=
        sound.store ob hold fun h₀ c => by simpa [StubSpec.Origin, hh] using c
      cases hr
      obtain ⟨-, -, -, hget, hlast⟩ := so.transition gd.obeys₀ hh
      obtain ⟨hget', -, hlt, rfl, hl⟩ := gd.toTwin.transition gd.obeys₀ ob gd.grows hget hlast
      have w := ((ob.shape (ob.object gd.after).shape_lt).transitions hget').2.1
      exact c.newField ob gd.after hget' ((Shape.fieldCount_of_derive hl).trans
        (Shape.fieldCount_extended _)) (storeNewField_leads ob gd.after hlt w rfl rfl hl v)
  | storeNormal => exact c.storeInDictionary ob _ _ v
  | storeGlobal global => exact c.storeInDictionary ob _ _ v
  | storeViaSetter setter => exact c.bind_pure (c.call _ _ _ ob) fun _ _ => rfl
  | storeArrayLength =>
    cases v with
    | smi i =>
      dsimp only
      split
      · rename_i sized
        have array : h.isArray (.object id) := by
          simp only [Bool.and_eq_true] at sized
          exact sized.1
        exact c.bind_pure (c.runExcept ob fun _ e => c.arrayLength ob array e) fun _ _ => rfl
      · exact c.refl ob
    | _ => exact c.refl ob
  | storeGlobalProxy =>
    dsimp only
    cases key.name? h with
    | none => exact c.refl ob
    | some n => exact c.bind_pure (c.setProperty ob _ n v _) fun _ _ => rfl
  | storeElement kind grow =>
    exact c.storeElementFast ob hv key ho (by simp [Widens])
      (kind_of_storeElement sound hh ho hold)
  | storeElementPolymorphic targets =>
    dsimp only
    cases ht : h.targetFor? spec.receiverShapes targets (.object id) with
    | none => exact c.refl ob
    | some target =>
      cases storesElements_of_sound sound hh ho ht with
      | keep => exact c.storeElementFast ob hv key ho (by simp [Widens]) rfl
      | @transition t listed other known =>
        refine c.storeElementFast ob hv key ho (fun t' e => ?_) rfl
        obtain rfl := Option.some.inj e
        exact ⟨(sound.usable t listed).widened, h.kindOfShape t, known⟩
  | storeNonStrictArguments => exact c.storeArgument ob hv id key
  | _ => exact c.refl ob

/-- A stub for stores changes the heap like stores do. -/
theorem runStore (sound : spec.Sound rules h) (receiver : Value) (key : Key) :
    R h (runStore spec receiver key v h).2 := by
  have guarded : R h (guardedStore spec receiver key v h).2 := by
    simp only [guardedStore, Computation.get_bind]
    split
    · rename_i hold
      cases hid : h.holderId? receiver .receiver with
      | none => exact c.refl ob
      | some id => exact c.storeByHandler ob hv sound hold hid
    · exact c.refl ob
  unfold Heap.runStore
  cases spec.handler with
  | fresh => exact c.refl ob
  | premonomorphic => exact c.refl ob
  | megamorphic => exact c.refl ob
  | generic => exact c.bind_pure (c.setByKey ob receiver v _ key) fun _ _ => rfl
  | _ => exact guarded

end AccessClosed

theorem runLoad_leads (ob : h.Obeys rules) (receiver : Value) (key : Key) :
    Leads rules h (runLoad spec receiver key h).2 :=
  (callClosed_leads rules).runLoad ob receiver key

theorem runStore_leads (ob : h.Obeys rules) (sound : spec.Sound rules h) (receiver : Value)
    (key : Key) (v : Value) : Leads rules h (runStore spec receiver key v h).2 :=
  (accessClosed_leads rules).runStore ob trivial sound receiver key

end Heap

namespace AtSite

variable {rules : Rules} {s t u : AtSite} {α β : Type}

/-! ### Operations at a site -/

/-- A sound site, later. -/
structure Reaches (rules : Rules) (s t : AtSite) : Prop where
  sound : t.Sound rules
  grows : s.engine.heap.Grows t.engine.heap

theorem Sound.reaches (ss : s.Sound rules) : Reaches rules s s := ⟨ss, .refl _⟩

theorem Reaches.trans (a : Reaches rules s t) (b : Reaches rules t u) : Reaches rules s u :=
  ⟨b.sound, a.grows.trans b.grows⟩

/-- What keeps the heap up reaches a state that is as sound. -/
theorem Kept.reaches (k : Kept rules s t) : Reaches rules s t := ⟨k.sound, k.grows⟩

/-- An action that ends in a sound site. -/
def Safe (rules : Rules) (s : AtSite) (a : Action α) : Prop := Reaches rules s (a s).2

theorem safe_pure (ss : s.Sound rules) {x : α} : Safe rules s (pure x) := ss.reaches

theorem onHeap_safe (ss : s.Sound rules) {a : Heap.Action α}
    (l : Heap.Leads rules s.engine.heap (a s.engine.heap).2) : Safe rules s (onHeap a) :=
  ⟨⟨ss.engine.step l (fun _ h => .inl h) (fun _ _ h => .inl h), ss.target.mono l.grows⟩, l.grows⟩

/-! ### Relations across actions -/

variable {R : Heap → Heap → Prop} {ok : Value → Prop}

/-- An action that ends in a sound site, with a heap to which the relation leads. -/
structure Across (rules : Rules) (R : Heap → Heap → Prop) (s : AtSite) (a : Action α) : Prop where
  sound : (a s).2.Sound rules
  heap : R s.engine.heap (a s).2.engine.heap

@[simp] theorem across_heap {f : Heap → Action α} :
    Across rules R s (AtSite.heap >>= f) ↔ Across rules R s (f s.engine.heap) :=
  ⟨fun ⟨sound, heap⟩ => ⟨sound, heap⟩, fun ⟨sound, heap⟩ => ⟨sound, heap⟩⟩

@[simp] theorem across_current {f : Site → Action α} :
    Across rules R s (current >>= f) ↔ Across rules R s (f s.site) :=
  ⟨fun ⟨sound, heap⟩ => ⟨sound, heap⟩, fun ⟨sound, heap⟩ => ⟨sound, heap⟩⟩

@[simp] theorem across_config {f : Config → Action α} :
    Across rules R s (config >>= f) ↔ Across rules R s (f s.engine.config) :=
  ⟨fun ⟨sound, heap⟩ => ⟨sound, heap⟩, fun ⟨sound, heap⟩ => ⟨sound, heap⟩⟩

theorem across_ite {c : Prop} [Decidable c] {a b : Action α} (ha : Across rules R s a)
    (hb : Across rules R s b) : Across rules R s (if c then a else b) := by
  split
  · exact ha
  · exact hb

section Rules

variable (c : Heap.AccessClosed rules R ok)

include c

/-- An action across operations of the heap reaches a sound state. -/
theorem Across.reaches {a : Action α} (x : Across rules R s a) : Reaches rules s (a s).2 :=
  ⟨x.sound, (c.leads x.heap).grows⟩

theorem across_pure (ss : s.Sound rules) {x : α} : Across rules R s (pure x) :=
  ⟨ss, c.refl ss.engine.heap⟩

theorem across_foreign (ss : s.Sound rules) (name : String) :
    Across rules R s (foreign name : Action α) :=
  ⟨ss, c.refl ss.engine.heap⟩

theorem onHeap_across (ss : s.Sound rules) {a : Heap.Action α}
    (r : R s.engine.heap (a s.engine.heap).2) : Across rules R s (onHeap a) :=
  ⟨(onHeap_safe ss (c.leads r)).sound, r⟩

/-- An action that returned, and what follows it. -/
theorem Across.bind_ok {a : Action α} {f : α → Action β} {x : α} (e : a s = (.ok x, t))
    (r : R s.engine.heap t.engine.heap) (hf : Across rules R t (f x)) :
    Across rules R s (a >>= f) := by
  obtain ⟨sound, heap⟩ := hf
  exact ⟨by rwa [Computation.bind_ok e], by rw [Computation.bind_ok e]; exact c.trans r heap⟩

theorem Across.bind {a : Action α} {f : α → Action β} (ha : Across rules R s a)
    (hf : ∀ x t, Reaches rules s t → Across rules R t (f x)) : Across rules R s (a >>= f) := by
  have reach := Across.reaches c ha
  rcases e : a s with ⟨r, t⟩
  obtain ⟨sound, heap⟩ := ha
  rw [e] at reach sound heap
  cases r with
  | error x => exact ⟨by rwa [Computation.bind_error e], by rwa [Computation.bind_error e]⟩
  | ok x => exact Across.bind_ok c e heap (hf x t reach)

/-- Changes of nothing but caches. -/
theorem Kept.rel (ss : s.Sound rules) (k : Kept rules s t) : R s.engine.heap t.engine.heap :=
  c.bare ss.engine.heap k.heap k.log

/-- What only keeps the stubs up crosses no operation of the heap. -/
theorem Upkeep.across {a : Action α} {post : α → Prop} (ss : s.Sound rules)
    (up : Upkeep rules s a post) : Across rules R s a :=
  ⟨up.kept.sound, up.kept.rel c ss⟩

theorem Upkeep.bind_across {a : Action α} {f : α → Action β} {post : α → Prop} (ss : s.Sound rules)
    (up : Upkeep rules s a post) (hf : ∀ x t, Kept rules s t → post x → Across rules R t (f x)) :
    Across rules R s (a >>= f) := by
  obtain ⟨x, t, e, k, hx⟩ := up
  exact Across.bind_ok c e (k.rel c ss) (hf x t k hx)

end Rules

/-! ### Dispatch -/

section Dispatch

variable (c : Heap.AccessClosed rules R ok) (ss : s.Sound rules)

include c ss

theorem dispatchLoad_across (receiver : Value) (key : Key) :
    Across rules R s (dispatchLoad receiver key) := by
  simp only [dispatchLoad, across_current]
  refine across_ite ?_ (onHeap_across c ss (c.runLoad ss.engine.heap receiver key))
  refine (probe_upkeep ss _ receiver key).bind_across c ss fun r t k _ => ?_
  cases r with
  | none => exact across_pure c k.sound
  | some spec => exact onHeap_across c k.sound (c.runLoad k.sound.engine.heap receiver key)

theorem dispatchStore_across (receiver : Value) (key : Key) {v : Value} (hv : ok v) :
    Across rules R s (dispatchStore receiver key v) := by
  simp only [dispatchStore, across_current]
  refine across_ite ?_ (onHeap_across c ss (c.runStore ss.engine.heap hv ss.target receiver key))
  refine (probe_upkeep ss _ receiver key).bind_across c ss fun r t k hr => ?_
  cases r with
  | none => exact across_pure c k.sound
  | some spec =>
    exact onHeap_across c k.sound (c.runStore k.sound.engine.heap hv
      ((hr spec rfl).1.mono k.grows) receiver key)

theorem dispatchCall_across (receiver : Value) (key : Key) (args : List Value) :
    Across rules R s (dispatchCall receiver key args) := by
  simp only [dispatchCall, across_current]
  refine across_ite ?_ (onHeap_across c ss (c.runCall ss.engine.heap receiver key args))
  have fallback {t : AtSite} (ts : t.Sound rules) : Across rules R t
      (if s.site.target.kind = .call then pure .miss
        else onHeap (Heap.calleeByKey receiver key) : Action Outcome) :=
    across_ite (across_pure c ts)
      (onHeap_across c ts (c.calleeByKey ts.engine.heap receiver key))
  refine (probe_upkeep ss _ receiver key).bind_across c ss fun r t k hr => ?_
  cases r with
  | none =>
    refine Across.bind c (across_pure c k.sound) fun found u r => ?_
    cases found with
    | hit f => exact across_pure c r.sound
    | _ => exact fallback r.sound
  | some spec =>
    refine Across.bind c (onHeap_across c k.sound
      (c.runCall k.sound.engine.heap receiver key args)) fun found u r => ?_
    cases found with
    | hit f => exact across_pure c r.sound
    | _ => exact fallback r.sound

end Dispatch

end AtSite

end Speculation
