import Speculation.Cache.Call
import Speculation.Proofs.Cache.Guards

/-!
# Where stubs come from

A resolver chooses a stub from what it finds in the heap of that moment. `StubSpec.Compiled h spec`
says what this was, as far as a run of the stub relies on it: named accesses rely on the lookup
(`LoadOrigin`, `StoreOrigin`, `CallOrigin`), lengths and prototypes on the name, element stores on
the kinds of shapes and the transitions between them. `StubSpec.Purpose` says for which receivers a
stub with a name was made. `StubSpec.Sound` allows for the heap having grown since.

Every specification that a resolver builds is compiled in the heap that it reads.
-/

namespace Speculation

/-- Whether a handler is for a property that no shape describes. -/
def Handler.isIntrinsic : Handler → Bool
  | .loadStringLength | .loadStringWrapperLength | .loadArrayLength | .loadFunctionPrototype
  | .storeArrayLength => true
  | _ => false

/-- Whether a handler is for loads that a lookup decides. -/
def Handler.isNamedLoad : Handler → Bool
  | .loadField _ _ | .loadConstant _ | .loadNonexistent | .loadNormal | .loadGlobal _ _
  | .loadViaGetter _ _ | .loadInterceptor _ => true
  | _ => false

/-- Whether a handler is for stores that a lookup decides. -/
def Handler.isNamedStore : Handler → Bool
  | .storeField _ _ | .storeNormal | .storeGlobal _ | .storeViaSetter _ => true
  | _ => false

namespace Heap

/-- A named load from the object `id` that a lookup decides. -/
structure LookupDecides (h : Heap) (id : ObjectId) (o : JsObject) (name : Name) : Prop where
  object : h.object? id = some o
  proxy : ∀ g, o.objectClass ≠ .globalProxy g
  intrinsic : h.intrinsicHandler? (.object id) name = none ∨ h.intrinsic? (.object id) name = none
  index : name.arrayIndex? = none
  global : h.lookup (.object id) name = .notFound → h.isGlobalObject (.object id) = false

/-- A named load from the object `id` for which a lookup found something at `holder`. -/
structure LoadOrigin (h : Heap) (spec : StubSpec) (id : ObjectId) (o : JsObject) (name : Name)
    (holder : Option ObjectId) : Prop extends h.LookupDecides id o name where
  handler : h.loadHandler? (.object id) (h.lookup (.object id) name) = some (spec.handler, holder)
  guards : h.monomorphicSpec? spec.kind spec.mode spec.handler (.object id) holder name = some spec

/-- A named store to the object `id` for which a lookup gave `found`. -/
structure StoreOrigin (h : Heap) (spec : StubSpec) (id : ObjectId) (o : JsObject) (name : Name)
    (found : Lookup) (holder : Option ObjectId) : Prop where
  object : h.object? id = some o
  proxy : ∀ g, o.objectClass ≠ .globalProxy g
  index : name.arrayIndex? = none
  /-- Named stores to the length of a fast array have a stub of their own. -/
  length : spec.kind = .store → h.isArray (.object id) → name = .length → h.isFast id = false
  /-- Keyed stores specialize on fields only. -/
  keyed : spec.kind = .keyedStore → fieldStoreHandler? found = some (spec.handler, holder)
  cacheable : h.lookupForStore id name = (true, found)
  handler : h.storeHandler? (.object id) id found = some (spec.handler, holder)
  guards : h.monomorphicSpec? spec.kind spec.mode spec.handler (.object id) holder name = some spec

/-- A call of a property for which a lookup found something at `holder`, with no object in
dictionary mode on the way there. -/
structure CallOrigin (h : Heap) (spec : StubSpec) (receiver : Value) (name : Name)
    (holder : ObjectId) : Prop where
  direct : receiver = .object holder ∨ h.dictionaryBefore receiver holder = false
  handler : h.callHandler? receiver name (h.lookup receiver name) = some (spec.handler, holder)
  guards : h.monomorphicSpec? spec.kind spec.mode spec.handler receiver (some holder) name =
    some spec

/-- A specification for accesses by `name` to values like `receiver`. The receiver is an object, or it
is that of a call, and no object in dictionary mode stands before the holder. -/
structure MadeFor (h : Heap) (spec : StubSpec) (receiver : Value) (name : Name)
    (holder : Option ObjectId) : Prop where
  guards : h.monomorphicSpec? spec.kind spec.mode spec.handler receiver holder name = some spec
  described : spec.handler.isIntrinsic = false
  direct : h.isJsObject receiver ∨ ∃ j, holder = some j ∧
    (h.lookup receiver name).holder? = some j ∧
    (receiver = .object j ∨ h.dictionaryBefore receiver j = false)

/-- A shape that objects may have. -/
structure Usable (h : Heap) (s : ShapeId) : Prop where
  index_lt : s.index < h.shapes.size
  widened : h.Widened s

/-- What a polymorphic store does for a shape: it stores elements of that kind, or of the kind of
another shape of the list to which there is a transition. -/
inductive StoresElements (h : Heap) (shapes : List ShapeId) (s : ShapeId) : ElementStore → Prop
  | keep : StoresElements h shapes s (.keep (h.kindOfShape s))
  | transition {t : ShapeId} (listed : t ∈ shapes) (other : t ≠ s)
      (known : (h.shape s).elementsTransitions.get? (h.kindOfShape t) = some t) :
      StoresElements h shapes s (.transition t (h.kindOfShape t))

end Heap

/-- What a resolver had found in a heap when it chose a specification. -/
def StubSpec.Origin (h : Heap) (spec : StubSpec) : Prop :=
  match spec.handler with
  | .generic => spec.state = .generic
  | .loadField _ _ | .loadConstant _ | .loadNonexistent | .loadNormal | .loadGlobal _ _
  | .loadViaGetter _ _ | .loadInterceptor _ =>
    ∃ id o name holder, h.LoadOrigin spec id o name holder
  | .loadStringLength | .loadStringWrapperLength | .loadArrayLength | .storeArrayLength =>
    spec.name = some .length
  | .loadFunctionPrototype => spec.name = some .prototype
  | .storeField _ _ | .storeNormal | .storeGlobal _ | .storeViaSetter _ =>
    ∃ id o name found holder, h.StoreOrigin spec id o name found holder
  | .storeGlobalProxy | .megamorphic => spec.state = .megamorphic
  | .storeElement kind _ => ∃ s, spec.receiverShapes = [s] ∧ kind = h.kindOfShape s
  | .loadElementPolymorphic targets =>
    2 ≤ spec.receiverShapes.length ∧ targets = spec.receiverShapes.map h.elementLoadFor
  | .storeElementPolymorphic targets =>
    2 ≤ spec.receiverShapes.length ∧ targets.length = spec.receiverShapes.length ∧
      ∀ (i : Nat) (s : ShapeId) (target : ElementStore), spec.receiverShapes[i]? = some s →
        targets[i]? = some target → h.StoresElements spec.receiverShapes s target
  | .callField _ _ | .callConstant _ | .callNormal | .callGlobal _ _ | .callInterceptor _ =>
    ∃ receiver name holder, h.CallOrigin spec receiver name holder
  | _ => True

/-- What a specification is for: accesses by any key, or by a name to any value that has a property no
shape describes, or by a name to values like a certain one. -/
inductive StubSpec.Purpose (h : Heap) (spec : StubSpec) : Prop where
  | unnamed (any : spec.name = none)
  | intrinsic (handler : spec.handler.isIntrinsic) (shapes : spec.receiverShapes = [])
    (own : spec.cacheHolder = .ownShape)
  | receiver {receiver : Value} {name : Name} {holder : Option ObjectId}
    (made : h.MadeFor spec receiver name holder)

/-- A specification that a resolver chose in a heap, for shapes that objects may have. -/
structure StubSpec.Compiled (h : Heap) (spec : StubSpec) : Prop where
  shapes : ∀ s ∈ spec.receiverShapes, h.Usable s
  distinct : spec.receiverShapes.Nodup
  origin : spec.Origin h
  purpose : spec.Purpose h

/-- The specification that a resolver wants. -/
def StubPlan.spec : StubPlan → StubSpec
  | .common spec | .filed spec => spec

/-- The specification of a stub that was made some time before. -/
def StubSpec.Sound (rules : Rules) (h : Heap) (spec : StubSpec) : Prop :=
  ∃ h₀ : Heap, h₀.Obeys rules ∧ h₀.Grows h ∧ spec.Compiled h₀

theorem Heap.Usable.mono {h h' : Heap} {s : ShapeId} (u : h.Usable s) (g : h.Grows h') :
    h'.Usable s :=
  ⟨Nat.lt_of_lt_of_le u.index_lt g.shapes, u.widened.mono g u.index_lt⟩

/-- The kind of elements of a shape stays. -/
theorem Heap.Grows.kindOfShape {h h' : Heap} {s : ShapeId} (g : h.Grows h')
    (hs : s.index < h.shapes.size) : h'.kindOfShape s = h.kindOfShape s := by
  simpa [Heap.kindOfShape] using congrArg Shape.elementsKind (g.layout hs)

theorem Heap.StoresElements.mono {h h' : Heap} {shapes : List ShapeId} {s : ShapeId}
    {target : ElementStore} (e : h.StoresElements shapes s target) (g : h.Grows h')
    (hs : s.index < h.shapes.size) (listed : ∀ t ∈ shapes, t.index < h.shapes.size) :
    h'.StoresElements shapes s target := by
  cases e with
  | keep =>
    rw [← g.kindOfShape hs]
    exact .keep
  | @transition t ht other known =>
    rw [← g.kindOfShape (listed t ht)] at known ⊢
    exact .transition ht other (g.elementsTransition known)

namespace StubSpec

variable {rules : Rules} {h h' : Heap} {spec : StubSpec}

/-- A specification that is not for certain shapes. -/
theorem Origin.compiled (o : spec.Origin h) (any : spec.receiverShapes = [])
    (purpose : spec.Purpose h := by exact .unnamed rfl) : spec.Compiled h :=
  ⟨by simp [any], by simp [any], o, purpose⟩

/-- The shapes that a stub checks can be those of receivers. -/
theorem Sound.usable (s : spec.Sound rules h) : ∀ t ∈ spec.receiverShapes, h.Usable t := by
  obtain ⟨h₀, -, g, c⟩ := s
  exact fun t ht => (c.shapes t ht).mono g

/-- A stub checks each shape once. -/
theorem Sound.distinct (s : spec.Sound rules h) : spec.receiverShapes.Nodup := by
  obtain ⟨h₀, -, -, c⟩ := s
  exact c.distinct

theorem Sound.mono (s : spec.Sound rules h) (g : h.Grows h') : spec.Sound rules h' := by
  obtain ⟨h₀, ob₀, g₀, c⟩ := s
  exact ⟨h₀, ob₀, g₀.trans g, c⟩

theorem Compiled.sound (c : spec.Compiled h) (ob : h.Obeys rules) : spec.Sound rules h :=
  ⟨h, ob, .refl h, c⟩

/-! ### Stubs that rely on nothing -/

theorem compiled_fresh (h : Heap) (kind : SiteKind) (mode : SiteMode) :
    (StubSpec.fresh kind mode).Compiled h := Origin.compiled trivial rfl

theorem compiled_premonomorphic (h : Heap) (kind : SiteKind) (mode : SiteMode) :
    (StubSpec.premonomorphic kind mode).Compiled h := Origin.compiled trivial rfl

theorem compiled_generic (h : Heap) (kind : SiteKind) (mode : SiteMode) :
    (StubSpec.generic kind mode).Compiled h :=
  Origin.compiled (show StubSpec.state _ = _ from rfl) rfl

theorem compiled_megamorphic (h : Heap) (kind : SiteKind) (mode : SiteMode) :
    (StubSpec.megamorphic kind mode).Compiled h := by
  cases kind <;> first | exact compiled_generic h _ mode | exact Origin.compiled rfl rfl

/-- Calls by keys that are no names only tell arguments from other receivers. -/
theorem compiled_keyedCall (h : Heap) (kind : SiteKind) (mode : SiteMode) (arguments : Bool) :
    StubSpec.Compiled h (if arguments then
      { kind, state := .megamorphic, mode, handler := .callArguments } else .megamorphic kind mode) := by
  split
  · exact Origin.compiled trivial rfl
  · exact compiled_megamorphic h kind mode

end StubSpec

namespace Heap

variable {rules : Rules} {h : Heap} {id : ObjectId} {o : JsObject} {name : Name}
  {kind : SiteKind} {mode : SiteMode} {spec : StubSpec} {receiver : Value}

theorem Obeys.usable_root (ob : h.Obeys rules) {s : ShapeId}
    (hs : s.index < Heap.roots.shapes.size) : h.Usable s :=
  ⟨(ob.root_shape hs).1, (ob.root_shape hs).2.1⟩

/-- Every value is treated like objects of a shape that objects may have. -/
theorem Obeys.usable_mapOf? (ob : h.Obeys rules) {s : ShapeId} (hs : h.mapOf? receiver = some s) :
    h.Usable s := by
  unfold mapOf? at hs
  split at hs
  · cases hs
    exact ob.usable_root (by decide)
  · cases hs
    exact ob.usable_root (by decide)
  · rename_i x hx
    cases hs
    cases receiver with
    | object i =>
      have fits := ob.object (object?_eq_some.2 hx)
      exact ⟨fits.shape_lt, fits.widened⟩
    | _ => simp [get?, Value.objectId?] at hx
  · cases hs

/-- The shape of a receiver can be checked. -/
theorem Obeys.usable_receiverShape? (ob : h.Obeys rules) {s : ShapeId}
    (hs : h.receiverShape? receiver = some s) : h.Usable s := by
  unfold receiverShape? at hs
  split at hs
  · cases hs
    exact ob.usable_root (by decide)
  · exact ob.usable_mapOf? hs

/-- The shapes that a monomorphic stub checks can be those of receivers. -/
theorem Obeys.usable_of_monomorphic (ob : h.Obeys rules) {handler : Handler}
    {holder : Option ObjectId}
    (hm : h.monomorphicSpec? kind mode handler receiver holder name = some spec) :
    ∀ s ∈ spec.receiverShapes, h.Usable s := by
  obtain ⟨s, hs, rfl⟩ := Option.map_eq_some_iff.1 hm
  simpa using ob.usable_receiverShape? hs

theorem distinct_of_monomorphic {handler : Handler} {holder : Option ObjectId}
    (hm : h.monomorphicSpec? kind mode handler receiver holder name = some spec) :
    spec.receiverShapes.Nodup := by
  obtain ⟨s, -, rfl⟩ := Option.map_eq_some_iff.1 hm
  simp

/-! ### Named loads -/

theorem isIntrinsic_of_intrinsicHandler? {handler : Handler}
    (hh : h.intrinsicHandler? receiver name = some handler) : handler.isIntrinsic := by
  unfold intrinsicHandler? at hh
  split at hh
  · cases hh
    rfl
  · split at hh
    · cases hh
      rfl
    · split at hh
      · cases hh
        rfl
      · split at hh
        · cases hh
          rfl
        · cases hh

/-- A stub for an intrinsic property is compiled. -/
theorem intrinsicHandler?_compiled {handler : Handler} {old : SiteState}
    (hh : h.intrinsicHandler? receiver name = some handler)
    (hs : h.intrinsicSpec? kind mode old receiver name handler = some spec) :
    spec.Compiled h := by
  -- The four intrinsic handlers, in the order they are tried, each name their property.
  have specialized : StubSpec.Compiled h
      { kind, state := .monomorphic, mode, handler, name := some name } := by
    refine StubSpec.Origin.compiled ?_ rfl
      (.intrinsic (isIntrinsic_of_intrinsicHandler? hh) rfl rfl)
    simp only [intrinsicHandler?, Bool.and_eq_true, decide_eq_true_eq] at hh
    split at hh
    · cases hh
      exact congrArg some (by tauto)
    · split at hh
      · cases hh
        exact congrArg some (by tauto)
      · split at hh
        · cases hh
          exact congrArg some (by tauto)
        · split at hh
          · cases hh
            exact congrArg some (by tauto)
          · cases hh
  cases old with
  | uninitialized =>
    cases hs
    exact StubSpec.compiled_premonomorphic ..
  | premonomorphic =>
    cases hs
    exact specialized
  | monomorphic =>
    simp only [intrinsicSpec?] at hs
    split at hs
    · cases hs
      exact specialized
    · cases hs
      exact StubSpec.compiled_megamorphic ..
  | megamorphic => cases hs
  | _ =>
    cases hs
    exact StubSpec.compiled_megamorphic ..

theorem isNamedLoad_of_loadHandler? {found : Lookup} {handler : Handler} {holder : Option ObjectId}
    (hh : h.loadHandler? receiver found = some (handler, holder)) : handler.isNamedLoad := by
  unfold loadHandler? at hh
  split at hh
  · cases hh
    rfl
  · obtain ⟨f, hf, e⟩ := Option.map_eq_some_iff.1 hh
    cases e
    unfold propertyLoadHandler? at hf
    split at hf
    · cases hf
      rfl
    · cases hf
      rfl
    · split at hf
      · cases hf
        rfl
      · split at hf
        · cases hf
          rfl
        · cases hf
    · split at hf
      · cases hf
        rfl
      · cases hf
  · cases hh
    rfl
  · cases hh

/-- A stub for loads is made for its receiver. -/
theorem LoadOrigin.madeFor {holder : Option ObjectId} (l : h.LoadOrigin spec id o name holder) :
    h.MadeFor spec (.object id) name holder where
  guards := l.guards
  described := by
    have named := isNamedLoad_of_loadHandler? l.handler
    generalize spec.handler = f at named
    cases f <;> first | rfl | cases named
  direct := .inl (isJsObject_object l.object)

/-- The handlers of stubs that a lookup decides. -/
theorem LoadOrigin.compiled {holder : Option ObjectId} (l : h.LoadOrigin spec id o name holder)
    (ob : h.Obeys rules) : spec.Compiled h := by
  refine ⟨ob.usable_of_monomorphic l.guards, distinct_of_monomorphic l.guards, ?_,
    .receiver l.madeFor⟩
  have origin : ∃ id o name holder, h.LoadOrigin spec id o name holder := ⟨_, _, _, _, l⟩
  have named := isNamedLoad_of_loadHandler? l.handler
  unfold StubSpec.Origin
  generalize spec.handler = f at named
  cases f <;> first | exact origin | cases named

/-- A monomorphic stub has the kind, the mode and the handler that it was asked for. -/
theorem monomorphicSpec?_eq_some {handler : Handler} {holder : Option ObjectId}
    (hs : h.monomorphicSpec? kind mode handler receiver holder name = some spec) :
    spec.kind = kind ∧ spec.mode = mode ∧ spec.handler = handler := by
  obtain ⟨s, -, rfl⟩ := Option.map_eq_some_iff.1 hs
  exact ⟨rfl, rfl, rfl⟩

/-- The plan of a load leads to a compiled stub. -/
theorem loadPlan?_compiled (ob : h.Obeys rules) (d : h.LookupDecides id o name) {plan : StubPlan}
    (hp : h.loadPlan? mode kind (.object id) name (h.lookup (.object id) name) = some plan) :
    plan.spec.Compiled h := by
  obtain ⟨⟨handler, holder⟩, hh, hm⟩ := Option.bind_eq_some_iff.1 hp
  obtain ⟨spec, hs, rfl⟩ := Option.map_eq_some_iff.1 hm
  obtain ⟨rfl, rfl, rfl⟩ := monomorphicSpec?_eq_some hs
  exact LoadOrigin.compiled ⟨d, hh, hs⟩ ob

/-- The plan of a keyed load leads to a compiled stub. -/
theorem keyedLoadPlan?_compiled (ob : h.Obeys rules) (d : h.LookupDecides id o name)
    {plan : StubPlan}
    (hp : h.keyedLoadPlan? mode kind (.object id) name (h.lookup (.object id) name) = some plan) :
    plan.spec.Compiled h := by
  unfold keyedLoadPlan? at hp
  split at hp
  · cases hp
  · cases hp
  · exact loadPlan?_compiled ob d hp
  · exact loadPlan?_compiled ob d hp
  · exact loadPlan?_compiled ob d hp
  · cases hp
    exact StubSpec.compiled_generic ..

/-! ### Named stores -/

theorem storeHandler?_of_field {found : Lookup} {p : Handler × Option ObjectId}
    (hf : fieldStoreHandler? found = some p) : h.storeHandler? receiver id found = some p := by
  unfold storeHandler?
  split
  · cases hf
  · cases hf
  · exact hf

theorem isNamedStore_of_storeHandler? {found : Lookup} {handler : Handler} {holder : Option ObjectId}
    (hh : h.storeHandler? receiver id found = some (handler, holder)) : handler.isNamedStore := by
  unfold storeHandler? at hh
  split at hh
  · split at hh
    · cases hh
      rfl
    · split at hh
      · cases hh
        rfl
      · cases hh
  · split at hh
    · cases hh
      rfl
    · cases hh
  · unfold fieldStoreHandler? at hh
    split at hh
    · cases hh
      rfl
    · split at hh
      · split at hh
        · cases hh
          rfl
        · cases hh
      · cases hh
    · cases hh

/-- A stub for stores is made for its receiver. -/
theorem StoreOrigin.madeFor {found : Lookup} {holder : Option ObjectId}
    (s : h.StoreOrigin spec id o name found holder) : h.MadeFor spec (.object id) name holder where
  guards := s.guards
  described := by
    have named := isNamedStore_of_storeHandler? s.handler
    generalize spec.handler = f at named
    cases f <;> first | rfl | cases named
  direct := .inl (isJsObject_object s.object)

theorem StoreOrigin.compiled {found : Lookup} {holder : Option ObjectId}
    (s : h.StoreOrigin spec id o name found holder) (ob : h.Obeys rules) : spec.Compiled h := by
  refine ⟨ob.usable_of_monomorphic s.guards, distinct_of_monomorphic s.guards, ?_,
    .receiver s.madeFor⟩
  have origin : ∃ id o name found holder, h.StoreOrigin spec id o name found holder :=
    ⟨_, _, _, _, _, s⟩
  have named := isNamedStore_of_storeHandler? s.handler
  unfold StubSpec.Origin
  generalize spec.handler = f at named
  cases f <;> first | exact origin | cases named

/-- The plan of a store leads to a compiled stub. -/
theorem storePlan?_compiled (ob : h.Obeys rules) {found : Lookup} {plan : StubPlan}
    (ho : h.object? id = some o)
    (hp : ∀ g, o.objectClass ≠ .globalProxy g) (hi : name.arrayIndex? = none)
    (hl : kind = .store → h.isArray (.object id) → name = .length → h.isFast id = false)
    (hc : h.lookupForStore id name = (true, found))
    (hs : h.storePlan? mode kind (.object id) id name found = some plan) :
    plan.spec.Compiled h := by
  have filed : ∀ handler holder, h.storeHandler? (.object id) id found = some (handler, holder) →
      (kind = .keyedStore → fieldStoreHandler? found = some (handler, holder)) →
      (h.monomorphicSpec? kind mode handler (.object id) holder name).map StubPlan.filed =
        some plan → plan.spec.Compiled h := by
    intro handler holder hh hk hm
    obtain ⟨spec, hg, rfl⟩ := Option.map_eq_some_iff.1 hm
    obtain ⟨rfl, rfl, rfl⟩ := monomorphicSpec?_eq_some hg
    exact StoreOrigin.compiled ⟨ho, hp, hi, hl, hk, hc, hh, hg⟩ ob
  unfold storePlan? at hs
  dsimp only at hs
  split at hs
  · split at hs
    · rename_i p hf
      exact filed p.1 p.2 (storeHandler?_of_field hf) (fun _ => hf) hs
    · cases hs
      exact StubSpec.compiled_generic ..
  · rename_i hk
    obtain ⟨p, hh, hs⟩ := Option.bind_eq_some_iff.1 hs
    exact filed p.1 p.2 hh (fun e => absurd e hk) hs

/-! ### Elements -/

/-- A stub for loads of elements is compiled. -/
theorem elementLoadSpec_compiled (ob : h.Obeys rules) {site : Site} {limit : Nat} {s : ShapeId}
    (target : site.target.spec.Sound rules h) (usable : h.Usable s)
    (hs : h.elementLoadSpec site limit s = .ok spec) : spec.Compiled h := by
  have alone : (h.elementLoadOf site.kind site.mode s).Compiled h :=
    ⟨by simpa [elementLoadOf] using usable, by simp [elementLoadOf], trivial, .unnamed rfl⟩
  have shapes : ∀ t ∈ loadShapes site.target, h.Usable t := by
    unfold loadShapes
    split
    · simpa using ob.usable_root (s := stringShape) (by decide)
    · exact target.usable
  have distinct : (loadShapes site.target).Nodup := by
    unfold loadShapes
    split
    · simp
    · exact target.distinct
  unfold elementLoadSpec at hs
  dsimp only at hs
  -- The stub is for one shape as long as the site has met none or only narrower elements; a
  -- polymorphic one appends to the shapes it has.
  split at hs
  · cases hs
    exact alone
  · cases hs
    exact alone
  · cases hs
    exact alone
  · rename_i e _ _
    split at hs
    · cases hs
      exact alone
    · split at hs
      · cases hs
      · rename_i new
        split at hs
        · cases hs
        · cases hs
          refine ⟨fun t ht => ?_, ?_, ⟨?_, rfl⟩, .unnamed rfl⟩
          · rcases List.mem_append.1 ht with ht | ht
            · exact shapes t ht
            · rwa [List.mem_singleton.1 ht]
          · refine distinct.append (List.nodup_singleton s) ?_
            simpa using new
          · simp [e]

/-- The stub of a keyed load is compiled. -/
theorem keyedLoadSpec_compiled (ob : h.Obeys rules) {site : Site} {limit : Nat} {key : Value}
    {force : Bool} (target : site.target.spec.Sound rules h)
    (hs : h.keyedLoadSpec site limit receiver key force = .ok spec) : spec.Compiled h := by
  unfold keyedLoadSpec at hs
  dsimp only at hs
  split at hs
  · cases hs
  · split at hs
    · cases hs
      split
      · exact StubSpec.Origin.compiled trivial rfl
      · exact StubSpec.compiled_generic ..
    · split at hs
      · cases hs
        exact StubSpec.Origin.compiled trivial rfl
      · split at hs
        · split at hs
          · rename_i s hm
            exact elementLoadSpec_compiled ob target (ob.usable_mapOf? hm) hs
          · cases hs
            exact StubSpec.compiled_generic ..
        · cases hs
          exact StubSpec.compiled_generic ..

/-- A fold that keeps its choice or takes the next item ends with its first choice or an item. -/
theorem mem_of_foldl_choice {α : Type} {f : Option α → α → Option α} {t : α}
    (choice : ∀ best i, f best i = best ∨ f best i = some i) (is : List α) (best : Option α)
    (e : is.foldl f best = some t) : best = some t ∨ t ∈ is := by
  induction is generalizing best with
  | nil => exact .inl e
  | cons i is ih =>
    rcases ih _ e with e | hm
    · rcases choice best i with c | c
      · exact .inl (c.symm.trans e)
      · rw [c] at e
        cases e
        exact .inr (List.mem_cons_self ..)
    · exact .inr (List.mem_cons_of_mem _ hm)

/-- A shape that a polymorphic store moves to is a transition of the shape it moves from. -/
theorem elementsTransition_of_mostGeneral {s t : ShapeId} {shapes : List ShapeId}
    (ht : h.mostGeneralTransition? s shapes = some t) :
    t ∈ shapes ∧ t ≠ s ∧ (h.shape s).elementsTransitions.get? (h.kindOfShape t) = some t := by
  unfold mostGeneralTransition? at ht
  rcases mem_of_foldl_choice (fun best i => by
    cases best with
    | none => exact .inr rfl
    | some b =>
      dsimp only
      split
      · exact .inr rfl
      · exact .inl rfl) _ none ht with e | hm
  · cases e
  · obtain ⟨hm, ht⟩ := List.mem_filter.1 hm
    simp only [Bool.and_eq_true, decide_eq_true_eq] at ht
    exact ⟨hm, ht⟩

theorem storesElements_elementStoreFor (shapes : List ShapeId) (s : ShapeId) :
    h.StoresElements shapes s (h.elementStoreFor shapes s) := by
  unfold elementStoreFor
  split
  · rename_i t ht
    obtain ⟨listed, other, known⟩ := elementsTransition_of_mostGeneral ht
    exact .transition listed other known
  · exact .keep

theorem mem_addShapeOnce {shapes : List ShapeId} {s t : ShapeId} (ht : t ∈ addShapeOnce shapes s) :
    t ∈ shapes ∨ t = s := by
  unfold addShapeOnce at ht
  split at ht
  · exact .inl ht
  · simpa using ht

/-- A shape is added once. -/
theorem nodup_addShapeOnce {shapes : List ShapeId} (distinct : shapes.Nodup) (s : ShapeId) :
    (addShapeOnce shapes s).Nodup := by
  unfold addShapeOnce
  split
  · exact distinct
  · rename_i new
    exact distinct.append (List.nodup_singleton s) (by simpa using new)

/-- Shapes are only added behind those that are known. -/
theorem prefix_addShapeOnce (shapes : List ShapeId) (s : ShapeId) :
    shapes <+: addShapeOnce shapes s := by
  unfold addShapeOnce
  split
  · exact List.prefix_refl _
  · exact List.prefix_append ..

/-- A longer list of shapes after a store. -/
theorem length_lt_addShapeOnce {shapes : List ShapeId} {s t : ShapeId}
    (more : addShapeOnce (addShapeOnce shapes s) t ≠ shapes) :
    shapes.length < (addShapeOnce (addShapeOnce shapes s) t).length := by
  have kept := (prefix_addShapeOnce shapes s).trans (prefix_addShapeOnce _ t)
  refine Nat.lt_of_le_of_ne kept.length_le fun e => more ?_
  exact (kept.eq_of_length e).symm

/-- A stub for stores of elements is compiled. -/
theorem elementStoreSpec_compiled {site : Site} {limit : Nat} {s moved : ShapeId}
    {forced grow : Bool} (target : site.target.spec.Sound rules h)
    (usable : h.Usable s) (usable' : h.Usable moved)
    (hs : h.elementStoreSpec site limit s moved forced grow = .ok spec) :
    spec.Compiled h := by
  have alone : (h.elementStoreOf site.kind site.mode moved grow).Compiled h :=
    ⟨by simpa [elementStoreOf] using usable', by simp [elementStoreOf], ⟨moved, rfl, rfl⟩,
      .unnamed rfl⟩
  unfold elementStoreSpec at hs
  dsimp only at hs
  split at hs
  · cases hs
    exact alone
  · cases hs
    exact alone
  · cases hs
    exact alone
  · rename_i e _ _
    split at hs
    · cases hs
      exact alone
    · split at hs
      · cases hs
      · rename_i more
        split at hs
        · cases hs
        · cases hs
          -- The store gives up unless it adds a shape to those known, so the stub has two at
          -- least.
          have longer := length_lt_addShapeOnce more
          refine ⟨fun t ht => ?_, nodup_addShapeOnce (nodup_addShapeOnce target.distinct _) _, ⟨?_,
            List.length_map _, fun i s target hi ht => ?_⟩, .unnamed rfl⟩
          · rcases mem_addShapeOnce ht with ht | rfl
            · rcases mem_addShapeOnce ht with ht | rfl
              · exact target.usable t ht
              · exact usable
            · exact usable'
          · simp only [e, List.length_cons] at longer
            simp only [e]
            omega
          · rw [List.getElem?_map, hi, Option.map_some, Option.some.injEq] at ht
            exact ht ▸ storesElements_elementStoreFor _ s

/-! ### Calls -/

/-- What a cached call found at `holder`, and what its stub does. -/
inductive CallFinds (h : Heap) (receiver : Value) (holder : ObjectId) : Lookup → Handler → Prop
  | field {index : Nat} {a : Attributes} : CallFinds h receiver holder
      (.property holder (.field index) a) (.callField (.relativeTo receiver holder) index)
  | constant {f : Value} {a : Attributes} : CallFinds h receiver holder
      (.property holder (.constant f) a) (.callConstant f)
  | global {f : Value} {a : Attributes} (global : h.isGlobalObject (.object holder)) :
      CallFinds h receiver holder (.property holder .normal a) (.callGlobal holder f)
  | normal {a : Attributes} (self : receiver = .object holder) :
      CallFinds h receiver holder (.property holder .normal a) .callNormal
  | interceptor : CallFinds h receiver holder (.interceptor holder)
      (.callInterceptor (.relativeTo receiver holder))

/-- The handler of a call says what was found. -/
theorem callFinds_of_callHandler? {found : Lookup} {handler : Handler} {holder : ObjectId}
    (e : h.callHandler? receiver name found = some (handler, holder)) :
    h.CallFinds receiver holder found handler := by
  unfold callHandler? at e
  split at e
  · cases e
    exact .field
  · split at e
    · cases e
      exact .constant
    · cases e
  · split at e
    · cases e
    · split at e
      · split at e
        · split at e
          · cases e
            exact .global ‹_›
          · cases e
        · cases e
      · split at e
        · cases e
          exact .normal ‹_›
        · cases e
  · cases e
    exact .interceptor
  · cases e

/-- What a call finds has a holder. -/
theorem CallFinds.holder? {found : Lookup} {handler : Handler} {holder : ObjectId}
    (finds : h.CallFinds receiver holder found handler) : found.holder? = some holder := by
  cases finds <;> rfl

theorem CallFinds.described {found : Lookup} {handler : Handler} {holder : ObjectId}
    (finds : h.CallFinds receiver holder found handler) : handler.isIntrinsic = false := by
  cases finds <;> rfl

theorem CallOrigin.finds {holder : ObjectId} (co : h.CallOrigin spec receiver name holder) :
    h.CallFinds receiver holder (h.lookup receiver name) spec.handler :=
  callFinds_of_callHandler? co.handler

/-- A stub for calls is made for its receiver. -/
theorem CallOrigin.madeFor {holder : ObjectId} (co : h.CallOrigin spec receiver name holder) :
    h.MadeFor spec receiver name (some holder) where
  guards := co.guards
  described := co.finds.described
  direct := .inr ⟨holder, rfl, co.finds.holder?, co.direct⟩

/-- A stub for calls is made where no dictionary is in between. -/
theorem callOrigin_of_callSpec?
    (direct : ∀ {holder : ObjectId}, (h.lookup receiver name).holder? = some holder →
      receiver = .object holder ∨ h.dictionaryBefore receiver holder = false)
    (hs : h.callSpec? kind mode receiver name (h.lookup receiver name) = some spec) :
    spec.kind = kind ∧ ∃ holder, h.CallOrigin spec receiver name holder := by
  obtain ⟨⟨handler, holder⟩, hh, hs⟩ := Option.bind_eq_some_iff.1 hs
  obtain ⟨rfl, rfl, rfl⟩ := monomorphicSpec?_eq_some hs
  exact ⟨rfl, holder, direct (callFinds_of_callHandler? hh).holder?, hh, hs⟩

theorem CallOrigin.compiled {holder : ObjectId} (co : h.CallOrigin spec receiver name holder)
    (ob : h.Obeys rules) : spec.Compiled h := by
  refine ⟨ob.usable_of_monomorphic co.guards, distinct_of_monomorphic co.guards, ?_,
    .receiver co.madeFor⟩
  have origin : ∃ receiver name holder, h.CallOrigin spec receiver name holder := ⟨_, _, _, co⟩
  have finds := co.finds
  unfold StubSpec.Origin
  generalize spec.handler = f at finds
  generalize h.lookup receiver name = found at finds
  cases finds <;> exact origin

end Heap

end Speculation
