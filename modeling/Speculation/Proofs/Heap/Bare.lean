import Speculation.Proofs.Heap.Calls

/-!
# Heaps without stubs

Shapes keep the stubs that were made for them. `Heap.bare` forgets these and nothing else, so two
heaps with the same bare heap have the same objects, the same shapes and the same names. Nothing
that the library does depends on the stubs kept by shapes: what is read from a heap is read from its
bare heap (`lookup_bare` and the like), and an action that is **blind** gives the same result on both
and changes both in the same way. Calls are blind if the functions of the host are (`Host.Blind`):
these get the memory with its stubs, and could look at them.

Where no shape keeps a stub, less is asked of the host: it only has to add none
(`Host.AddsNoStubs`), and blind actions then leave the heap bare (`Blind.bare`). A `Setting` says which of the
two is meant, so that both are the same lemmas.
-/

namespace Speculation

/-- The shape without its stubs. -/
def Shape.bare (t : Shape) : Shape := { t with codeCache := {} }

@[simp] theorem Shape.derive_bare (t : Shape) : t.bare.derive = t.derive := rfl

@[simp] theorem Shape.fieldCount_bare (t : Shape) : t.bare.fieldCount = t.fieldCount := rfl

@[simp] theorem Shape.descriptor?_bare (t : Shape) (n : Name) :
    t.bare.descriptor? n = t.descriptor? n := rfl

@[simp] theorem Shape.transitions_bare (t : Shape) : t.bare.transitions = t.transitions := rfl

@[simp] theorem Shape.elementsTransitions_bare (t : Shape) :
    t.bare.elementsTransitions = t.elementsTransitions := rfl

@[simp] theorem Shape.lastAdded?_bare (t : Shape) : t.bare.lastAdded? = t.lastAdded? := rfl

/-- The memory without the stubs of its shapes. -/
def Memory.bare (m : Memory) : Memory := { m with shapes := m.shapes.map Shape.bare }

/-- The call without the stubs that it found. -/
def Invocation.bare (c : Invocation) : Invocation := { c with memory := c.memory.bare }

/-- The functions of the host do not look at the stubs of shapes, nor change them. -/
def Host.Blind (host : Host) : Prop :=
  ∀ i receiver args (m : Memory), host.run i receiver args m.bare =
    ((host.run i receiver args m).1, (host.run i receiver args m).2.bare)

/-- A host that always gives the same answer looks at nothing. -/
theorem Host.blind_answering (v : Value) : (Host.answering v).Blind := fun _ _ _ _ => rfl

theorem Host.blind_idle : Host.idle.Blind := Host.blind_answering .undefined

/-- Where shapes keep no stubs, the functions of the host give them none. -/
def Host.AddsNoStubs (host : Host) : Prop :=
  ∀ i receiver args (m : Memory), m.bare = m →
    (host.run i receiver args m).2.bare = (host.run i receiver args m).2

/-- Where actions run: with which host, and whether in heaps without stubs only. -/
structure Setting where
  host : Host
  bare : Bool := false

instance : Coe Host Setting := ⟨fun host => { host }⟩

/-- The functions of the host do not look at stubs where there can be any. -/
def Setting.Blind (w : Setting) : Prop :=
  ∀ i receiver args (m : Memory), (w.bare → m.bare = m) → w.host.run i receiver args m.bare =
    ((w.host.run i receiver args m).1, (w.host.run i receiver args m).2.bare)

/-- A host that does not look at stubs sets a blind stage. -/
theorem Host.Blind.setting {host : Host} (sees : host.Blind) : (host : Setting).Blind :=
  fun i receiver args m _ => sees i receiver args m

/-- So does one that adds none, where there are none. -/
theorem Host.AddsNoStubs.setting {host : Host} (adds : host.AddsNoStubs) :
    Setting.Blind { host, bare := true } := by
  intro i receiver args m same
  rw [same rfl, adds i receiver args m (same rfl)]

namespace Heap

/-- The heap without the stubs of its shapes, now and at the calls that it lists. -/
def bare (h : Heap) : Heap :=
  { toMemory := h.toMemory.bare
    host := h.host
    invocations := h.invocations.map Invocation.bare }

variable (h : Heap) (id : ObjectId) (name : Name)

/-! ### Reading -/

@[simp] theorem shape_bare (s : ShapeId) : h.bare.shape s = (h.shape s).bare := by
  unfold shape bare Memory.bare
  by_cases hs : s.index < h.shapes.size
  · simp [hs]
  · simp [hs]
    rfl

@[simp] theorem cells_bare : h.bare.cells = h.cells := rfl

@[simp] theorem initialShapes_bare : h.bare.initialShapes = h.initialShapes := rfl

@[simp] theorem size_shapes_bare : h.bare.shapes.size = h.shapes.size := by
  simp [bare, Memory.bare]

@[simp] theorem cell?_bare : h.bare.cell? id = h.cell? id := rfl

@[simp] theorem object?_bare : h.bare.object? id = h.object? id := rfl

@[simp] theorem shapeOf_bare (o : JsObject) : h.bare.shapeOf o = (h.shapeOf o).bare :=
  h.shape_bare o.shape

@[simp] theorem resolveProxy_bare : h.bare.resolveProxy id = h.resolveProxy id := rfl

@[simp] theorem isJsObject_bare (v : Value) : h.bare.isJsObject v = h.isJsObject v := rfl

@[simp] theorem isArray_bare (v : Value) : h.bare.isArray v = h.isArray v := rfl

@[simp] theorem isCallable_bare (v : Value) : h.bare.isCallable v = h.isCallable v := rfl

@[simp] theorem describe_bare (v : Value) : h.bare.describe v = h.describe v := rfl

@[simp] theorem intrinsic?_bare (v : Value) : h.bare.intrinsic? v name = h.intrinsic? v name := rfl

@[simp] theorem isGlobalObject_bare (v : Value) : h.bare.isGlobalObject v = h.isGlobalObject v :=
  rfl

@[simp] theorem prototypeOf_bare (v : Value) : h.bare.prototypeOf v = h.prototypeOf v := by
  unfold prototypeOf
  split <;> try rfl
  simp only [cell?_bare, shapeOf_bare]
  split <;> rfl

@[simp] theorem chain_bare (v : Value) : h.bare.chain v = h.chain v := by
  have within : ∀ n v, h.bare.chainWithin n v = h.chainWithin n v := by
    intro n
    induction n with
    | zero => exact fun _ => rfl
    | succ n ih =>
      intro v
      cases v with
      | object id => simp [chainWithin, ih]
      | _ => rfl
  exact within _ v

@[simp] theorem lookupStart_bare (v : Value) : h.bare.lookupStart v = h.lookupStart v := by
  simp [lookupStart]

@[simp] theorem ownReal_bare : h.bare.ownReal id name = h.ownReal id name := by
  simp only [ownReal, resolveProxy_bare, object?_bare, shapeOf_bare]
  rfl

@[simp] theorem own_bare : h.bare.own id name = h.own id name := by
  simp only [own, resolveProxy_bare, object?_bare, shapeOf_bare, ownReal_bare]
  rfl

@[simp] theorem lookup_bare (v : Value) : h.bare.lookup v name = h.lookup v name := by
  simp [lookup]

@[simp] theorem lookupInPrototypes_bare :
    h.bare.lookupInPrototypes id name = h.lookupInPrototypes id name := by
  simp [lookupInPrototypes]

@[simp] theorem lookupReal_bare : h.bare.lookupReal id name = h.lookupReal id name := by
  simp only [lookupReal, ownReal_bare, lookupInPrototypes_bare]

@[simp] theorem storeRoute_bare (v : Value) : h.bare.storeRoute v name = h.storeRoute v name := by
  simp only [storeRoute, isJsObject_bare, resolveProxy_bare, isArray_bare, lookupReal_bare,
    isCallable_bare]
  rfl

@[simp] theorem chainElement_bare (v : Value) (index : Nat) :
    h.bare.chainElement v index = h.chainElement v index := by
  simp [chainElement]
  rfl

/-! ### Writing -/

@[simp] theorem modifyObject_bare (f : JsObject → JsObject) :
    h.bare.modifyObject id f = (h.modifyObject id f).bare := rfl

theorem addShape_bare {t : Shape} (ht : t.bare = t) :
    h.bare.addShape t = ((h.addShape t).1, (h.addShape t).2.bare) := by
  simp [addShape, bare, Memory.bare, ht]

theorem modifyShape_bare (s : ShapeId) {f : Shape → Shape} (hf : ∀ t, (f t).bare = f t.bare) :
    h.bare.modifyShape s f = (h.modifyShape s f).bare := by
  refine congrArg (fun shapes => ({ h.bare with shapes } : Heap)) (Array.ext_getElem? fun i => ?_)
  change ((h.shapes.map Shape.bare).modify s.index f)[i]? =
    ((h.shapes.modify s.index f).map Shape.bare)[i]?
  simp only [Array.getElem?_modify, Array.getElem?_map]
  split
  · simp [Option.map_map, Function.comp_def, hf]
  · rfl

/-- Stubs come and go without changing the bare heap. -/
theorem bare_modifyShape (s : ShapeId) {f : Shape → Shape} (hf : ∀ t, (f t).bare = t.bare) :
    (h.modifyShape s f).bare = h.bare := by
  refine congrArg (fun shapes => ({ h.bare with shapes } : Heap)) (Array.ext_getElem? fun i => ?_)
  change ((h.shapes.modify s.index f).map Shape.bare)[i]? = (h.shapes.map Shape.bare)[i]?
  simp only [Array.getElem?_map, Array.getElem?_modify]
  split
  · simp [Option.map_map, Function.comp_def, hf]
  · rfl

/-- A heap operation that finds a shape commutes with forgetting. -/
def bareSnd {α : Type} (r : α × Heap) : α × Heap := (r.1, r.2.bare)

@[simp] theorem bareSnd_fst {α : Type} (r : α × Heap) : (bareSnd r).1 = r.1 := rfl

@[simp] theorem bareSnd_snd {α : Type} (r : α × Heap) : (bareSnd r).2 = r.2.bare := rfl

theorem deriveShapeWith_bare (s : ShapeId) {f : Shape → Shape}
    (hf : ∀ t : Shape, (f t.derive).bare = f t.derive) :
    h.bare.deriveShapeWith s f = bareSnd (h.deriveShapeWith s f) := by
  simp only [deriveShapeWith, shape_bare, Shape.derive_bare]
  exact h.addShape_bare (hf _)

theorem transitionTarget_bare (s : ShapeId) (d : Descriptor) :
    h.bare.transitionTarget s d = bareSnd (h.transitionTarget s d) := by
  have derived := h.deriveShapeWith_bare s
    (f := fun t => { t with descriptors := t.descriptors ++ [d] }) fun _ => rfl
  have ht : (h.bare.shape s).transitions = (h.shape s).transitions := by rw [shape_bare]; rfl
  simp only [transitionTarget, ht, derived]
  cases (h.shape s).transitions.get? d.name with
  | some target =>
    simp only [shape_bare, Shape.lastAdded?_bare]
    split <;> rfl
  | none => exact Prod.ext rfl (modifyShape_bare _ s fun _ => rfl)

theorem elementsTransition_bare (s : ShapeId) (k : ElementsKind) :
    h.bare.elementsTransition s k = bareSnd (h.elementsTransition s k) := by
  have derived := h.deriveShapeWith_bare s (f := fun t => { t with elementsKind := k })
    fun _ => rfl
  have hk : (h.bare.shape s).elementsKind = (h.shape s).elementsKind := by rw [shape_bare]; rfl
  have ht : (h.bare.shape s).elementsTransitions = (h.shape s).elementsTransitions := by
    rw [shape_bare]; rfl
  simp only [elementsTransition, hk, ht, derived]
  split
  · rfl
  · cases (h.shape s).elementsTransitions.get? k with
    | some target => rfl
    | none => exact Prod.ext rfl (modifyShape_bare _ s fun _ => rfl)

@[simp] theorem addProperty_bare (v : Value) (a : Attributes) :
    h.bare.addProperty id name v a = (h.addProperty id name v a).bare := by
  simp only [addProperty, object?_bare]
  cases h.object? id with
  | none => rfl
  | some o =>
    simp only [shapeOf_bare, Shape.fieldCount_bare, transitionTarget_bare]
    have hi : (h.shapeOf o).bare.isDictionary = (h.shapeOf o).isDictionary := rfl
    rw [hi]
    split <;> rfl

@[simp] theorem addConstant_bare (v : Value) (a : Attributes) :
    h.bare.addConstant id name v a = (h.addConstant id name v a).bare := by
  simp only [addConstant, object?_bare]
  cases h.object? id with
  | none => rfl
  | some o =>
    simp only [shapeOf_bare, transitionTarget_bare, addProperty_bare]
    have hi : (h.shapeOf o).bare.isDictionary = (h.shapeOf o).isDictionary := rfl
    rw [hi]
    split <;> rfl

@[simp] theorem addAccessor_bare (getter setter : Value) :
    h.bare.addAccessor id name getter setter = (h.addAccessor id name getter setter).bare := by
  simp only [addAccessor, object?_bare, transitionTarget_bare]
  cases h.object? id <;> rfl

@[simp] theorem setInterceptor_bare (values : Table Name Value) :
    h.bare.setInterceptor id values = (h.setInterceptor id values).bare := by
  simp only [setInterceptor, object?_bare]
  cases h.object? id with
  | none => rfl
  | some o =>
    dsimp only
    rw [deriveShapeWith_bare h o.shape fun _ => rfl]
    rfl

@[simp] theorem normalize_bare : h.bare.normalize id = (h.normalize id).bare := by
  simp only [normalize, object?_bare]
  cases h.object? id with
  | none => rfl
  | some o =>
    simp only [shapeOf_bare]
    have hi : (h.shapeOf o).bare.isDictionary = (h.shapeOf o).isDictionary := rfl
    rw [hi]
    split
    · rfl
    · rw [deriveShapeWith_bare h o.shape fun _ => rfl]
      rfl

theorem delete_bare : h.bare.delete id name = bareSnd (h.delete id name) := by
  simp only [delete, resolveProxy_bare, ownReal_bare, normalize_bare, object?_bare]
  cases h.ownReal (h.resolveProxy id) name with
  | notFound => rfl
  | _ =>
    cases (h.normalize (h.resolveProxy id)).object? (h.resolveProxy id) with
    | none => rfl
    | some o =>
      dsimp only
      cases o.dictionary.get? name with
      | none => rfl
      | some e =>
        dsimp only
        split <;> rfl

theorem initialShape_bare (prototype : Value) :
    h.bare.initialShape prototype = bareSnd (h.initialShape prototype) := by
  simp only [initialShape, initialShapes_bare]
  cases h.initialShapes.get? prototype.objectId? with
  | some s => rfl
  | none =>
    rw [addShape_bare h (t := .make .object prototype .packedSmi) rfl]
    rfl

@[simp] theorem constantToField_bare (v : Value) :
    h.bare.constantToField id name v = (h.constantToField id name v).bare := by
  simp only [constantToField, object?_bare]
  cases h.object? id with
  | none => rfl
  | some o =>
    simp only [shapeOf_bare, Shape.fieldCount_bare]
    rw [deriveShapeWith_bare h o.shape fun _ => rfl]
    rfl

@[simp] theorem writeOwn_bare (kind : PropertyKind) (v : Value) :
    h.bare.writeOwn id name kind v = (h.writeOwn id name kind v).bare := by
  cases kind with
  | constant c => exact constantToField_bare h id name v
  | _ => rfl

@[simp] theorem generalizeElements_bare (k : ElementsKind) :
    h.bare.generalizeElements id k = (h.generalizeElements id k).bare := by
  simp only [generalizeElements, object?_bare]
  cases h.object? id with
  | none => rfl
  | some o =>
    simp only [shapeOf_bare, elementsTransition_bare]
    have hk : (h.shapeOf o).bare.elementsKind = (h.shapeOf o).elementsKind := rfl
    rw [hk]
    split <;> rfl

@[simp] theorem storeArrayLength_bare (v : Value) :
    h.bare.storeArrayLength id v = (h.storeArrayLength id v).map bare := by
  have hi : h.bare.arrayIndex? v = h.arrayIndex? v := rfl
  simp only [storeArrayLength, hi, object?_bare, shapeOf_bare, describe_bare,
    generalizeElements_bare]
  cases h.arrayIndex? v with
  | none => rfl
  | some length =>
    cases h.object? id with
    | none => rfl
    | some o =>
      dsimp only
      split
      · rfl
      · split <;> rfl

@[simp] theorem storeElement_bare (index : Nat) (v : Value) :
    h.bare.storeElement id index v = (h.storeElement id index v).map bare := by
  have kind : h.bare.kindFor v = h.kindFor v := rfl
  simp only [storeElement, object?_bare]
  cases h.object? id with
  | none => rfl
  | some o =>
    simp only [shapeOf_bare, kind, Shape.bare]
    split
    · rfl
    · rw [generalizeElements_bare, writeElement, modifyObject_bare]
      rfl

@[simp] theorem intern_bare (n : Name) : h.bare.intern n = (h.intern n).bare := by
  unfold intern
  have : h.bare.names = h.names := rfl
  rw [this]
  split <;> rfl

theorem noteCall_bare (callee receiver : Value) (args : List Value) :
    h.bare.noteCall callee receiver args = (h.noteCall callee receiver args).bare := by
  simp [noteCall, bare, Invocation.bare]

/-! ### Heaps that differ only in their stubs -/

section

variable {h} {h' : Heap} (e : h'.bare = h.bare)

include e

/-- Their shapes have the same layouts and transitions. -/
theorem shape_of_bare (s : ShapeId) : (h'.shape s).derive = (h.shape s).derive ∧
    (h'.shape s).transitions = (h.shape s).transitions ∧
    (h'.shape s).elementsTransitions = (h.shape s).elementsTransitions := by
  have shape : (h'.shape s).bare = (h.shape s).bare := by rw [← shape_bare, e, shape_bare]
  exact ⟨by simpa using congrArg Shape.derive shape, by simpa using congrArg Shape.transitions shape,
    by simpa using congrArg Shape.elementsTransitions shape⟩

/-- They have the same host. -/
theorem host_of_bare : h'.host = h.host := by
  change h'.bare.host = h.bare.host
  rw [e]

/-- Growth does not depend on the stubs of shapes. -/
theorem Grows.of_bare : h.Grows h' := by
  have shape := shape_of_bare e
  have cell : ∀ id, h'.cell? id = h.cell? id := fun id => by rw [← cell?_bare, e, cell?_bare]
  refine ⟨?_, ?_, fun _ => (shape _).1, fun {s n t} ht => ?_, fun {s k t} ht => ?_,
    fun {s k t} ht => .inl ?_, fun hc _ => by rwa [cell], fun {id o} ho => ⟨o, ?_, rfl, .of_derive (shape _).1⟩⟩
  · rw [← cells_bare h', e, cells_bare]
  · rw [← size_shapes_bare h, ← e, size_shapes_bare]
  · rwa [(shape s).2.1]
  · rwa [(shape s).2.2]
  · rwa [← (shape s).2.2]
  · rwa [← object?_bare, e, object?_bare]

/-- Nor does the invariant of heaps. -/
theorem Obeys.leads_of_bare {rules : Rules} (ob : h.Obeys rules)
    (log : h'.invocations = h.invocations) : Leads rules h h' := by
  have g := Grows.of_bare e
  refine ob.leads_of_wellFormed
    (ob.step g (fun s hs => .inl ⟨?_, (shape_of_bare e s).2⟩) (fun id o ho => .inl ?_)
      (ob.no_source fun {s k t} ht => by rwa [(shape_of_bare e s).2.2] at ht) ?_)
    g (Prod.ext (host_of_bare e) log)
  · rwa [← size_shapes_bare h, ← e, size_shapes_bare]
  · rwa [← object?_bare, ← e, object?_bare]
  · simpa using congrArg (·.initialShapes) e

end

/-! ### Blind actions -/

/-- The heap is one of those that are meant. -/
structure In (w : Setting) (h : Heap) : Prop where
  host : h.host = w.host
  bare : w.bare → h.bare = h

/-- An action whose result and effect do not depend on the stubs of shapes, where it is run. -/
def Blind {α : Type} (w : Setting) (a : Action α) : Prop :=
  ∀ h : Heap, In w h → a h.bare = bareSnd (a h) ∧ In w (a h).2

/-- Blind actions agree on heaps that differ only in their stubs. -/
theorem Blind.congr {α : Type} {a : Action α} {h h' : Heap} (b : Blind h.host a)
    (e : h.bare = h'.bare) : (a h).1 = (a h').1 ∧ (a h).2.bare = (a h').2.bare := by
  have host := host_of_bare e.symm
  have e' : bareSnd (a h) = bareSnd (a h') := by
    rw [← (b h ⟨rfl, nofun⟩).1, ← (b h' ⟨host, nofun⟩).1, e]
  exact Prod.ext_iff.1 e'

variable {α β : Type} {w : Setting}

/-- A change that adds no stubs, and keeps the host. -/
theorem In.change {h h' : Heap} (same : In w h) (host : h'.host = h.host)
    (bare : h.bare = h → h'.bare = h') : In w h' :=
  ⟨host.trans same.host, fun e => bare (same.bare e)⟩

theorem blind_pure (x : α) : Blind w (pure x) := fun _ same => ⟨rfl, same⟩

theorem blind_throw (e : Fault) : Blind w (throw e : Action α) := fun _ same => ⟨rfl, same⟩

theorem Blind.bind {a : Action α} {f : α → Action β} (ha : Blind w a) (hf : ∀ x, Blind w (f x)) :
    Blind w (a >>= f) := by
  intro h same
  obtain ⟨blind, same'⟩ := ha h same
  rcases e : a h with ⟨r, h'⟩
  rw [e] at blind same'
  cases r with
  | ok x =>
    rw [Computation.bind_ok e, Computation.bind_ok blind]
    exact hf x h' same'
  | error x =>
    rw [Computation.bind_error e, Computation.bind_error blind]
    exact ⟨rfl, same'⟩

/-- An action that reads the heap first is blind if what it goes on with does not see the
difference. -/
theorem blind_get {f : Heap → Action β} (hf : ∀ h, f h.bare = f h) (hb : ∀ h, Blind w (f h)) :
    Blind w (get >>= f) := by
  intro h same
  rw [Computation.get_bind, Computation.get_bind, hf]
  exact hb h h same

theorem blind_modify {f : Heap → Heap} (hf : ∀ h : Heap, f h.bare = (f h).bare)
    (keeps : ∀ h : Heap, (f h).host = h.host) : Blind w (modify f) := by
  intro h same
  rw [Computation.modify_apply, Computation.modify_apply, hf]
  exact ⟨rfl, same.change (keeps h) fun e => by rw [← hf, e]⟩

theorem blind_runExcept {f : Heap → Except Exception Heap}
    (hf : ∀ h : Heap, f h.bare = (f h).map bare)
    (keeps : ∀ h h' : Heap, f h = .ok h' → h'.host = h.host) : Blind w (runExcept f) := by
  intro h same
  simp only [runExcept, Computation.get_bind, hf]
  cases e : f h with
  | ok h' =>
    refine ⟨rfl, same.change (keeps h h' e) fun bare => ?_⟩
    have twice := hf h
    rw [bare, e] at twice
    exact (Except.ok.inj twice).symm
  | error x => exact ⟨rfl, same⟩

theorem blind_allocate (c : Cell) : Blind w (allocate c) := by
  intro h same
  simp only [allocate, Computation.get_bind]
  have : h.bare.allocationAllowed = h.allocationAllowed := rfl
  rw [this]
  split
  · refine ⟨rfl, same.change rfl fun bare => ?_⟩
    exact congrArg (fun h : Heap => { h with cells := h.cells.push c }) bare
  · exact ⟨rfl, same⟩

theorem blind_newString (s : String) : Blind w (newString s) :=
  (blind_allocate _).bind fun _ => blind_pure _

theorem blind_boxNumber (d : Double) : Blind w (boxNumber d) :=
  (blind_allocate _).bind fun _ => blind_pure _

theorem blind_newNumber (d : Double) : Blind w (newNumber d) := by
  unfold newNumber
  cases smiOfNumber? d with
  | some v => exact blind_pure v
  | none => exact blind_boxNumber d

/-! ### New objects -/

theorem blind_run {f : Heap → α × Heap} (hf : ∀ h : Heap, f h.bare = bareSnd (f h))
    (keeps : ∀ h : Heap, (f h).2.host = h.host) : Blind w (run f) := by
  intro h same
  simp only [run, hf]
  refine ⟨rfl, same.change (keeps h) fun bare => ?_⟩
  have twice := congrArg Prod.snd (hf h)
  rw [bare] at twice
  exact twice.symm

theorem blind_internalize (s : String) : Blind w (internalize s) := by
  refine blind_get (fun _ => rfl) fun h => ?_
  cases h.internalized.get? s with
  | some id => exact blind_pure _
  | none =>
    refine (blind_allocate _).bind fun id => Blind.bind ?_ fun _ => blind_pure _
    exact blind_modify (fun _ => rfl) fun _ => rfl

theorem blind_allocateObject (s : ShapeId) (c : ObjectClass) (elements : Array Value) :
    Blind w (allocateObject s c elements) := by
  refine blind_get (fun h => ?_) fun h => blind_allocate _
  rw [shape_bare, Shape.fieldCount_bare]

theorem blind_newObjectWithPrototype (prototype : Value) :
    Blind w (newObjectWithPrototype prototype) :=
  (blind_run (fun h => h.initialShape_bare prototype)
    fun h => host_of_outside (h.outside_initialShape prototype)).bind fun _ => blind_allocateObject _ _ _

theorem blind_newArray (elements : List Value) : Blind w (newArray elements) := by
  refine blind_get (fun _ => rfl) fun h => ?_
  exact (blind_run (fun h => h.elementsTransition_bare _ _)
    fun h => host_of_outside (h.outside_elementsTransition _ _)).bind fun _ => blind_allocateObject _ _ _

theorem blind_newArguments (callee : Value) (values : List Value) (strict : Bool) :
    Blind w (newArguments callee values strict) :=
  (blind_allocateObject _ _ _).bind fun id =>
    (blind_modify (fun h => h.addProperty_bare id _ _ _)
      fun h => host_of_outside (h.outside_addProperty id _ _ _)).bind fun _ => blind_pure _

theorem blind_newShared (name : String) (formals : Nat) (code : Option CodeId) :
    Blind w (newShared name formals code) := fun _ same =>
  ⟨rfl, same.change rfl fun bare => congrArg (fun h => (newShared name formals code h).2) bare⟩

theorem blind_newClosure (shared : SharedId) (code : Option CodeId) (f : Option HostFunction) :
    Blind w (newClosure shared code f) :=
  (blind_allocateObject _ _ _).bind fun _ => blind_allocateObject _ _ _

theorem blind_newFunction (shared : SharedId) : Blind w (newFunction shared) :=
  blind_get (fun _ => rfl) fun _ => blind_newClosure _ _ _

theorem blind_newHostFunction (name : String) (formals : Nat) (f : HostFunction) :
    Blind w (newHostFunction name formals f) :=
  (blind_newShared name formals none).bind fun _ => blind_newClosure _ _ _

/-! ### Stores and calls -/

theorem blind_refuseStore (receiver : Value) (name : Name) (v : Value) (strict : Bool) :
    Blind w (refuseStore receiver name v strict) := by
  unfold refuseStore
  cases strict with
  | false => exact blind_pure v
  | true => exact blind_get (fun _ => rfl) fun _ => blind_throw _

theorem blind_setPropertyWith {call : Caller} (hc : ∀ f r args, Blind w (call f r args))
    (receiver : Value) (name : Name) (v : Value) (strict : Bool) :
    Blind w (setPropertyWith call receiver name v strict) := by
  intro h same
  simp only [setPropertyWith_apply, storeRoute_bare]
  cases h.storeRoute receiver name with
  | ignored => exact ⟨rfl, same⟩
  | arrayLength id =>
    exact (blind_runExcept (fun h => h.storeArrayLength_bare id v)
      fun _ _ e => host_of_outside (outside_storeArrayLength e)).bind (fun _ => blind_pure v) h same
  | setter id s => exact (hc s (.object id) [v]).bind (fun _ => blind_pure v) h same
  | refused => exact blind_refuseStore receiver name v strict h same
  | write id kind =>
    simp only [writeOwn_bare, Computation.set_bind]
    refine ⟨rfl, same.change (host_of_outside (h.outside_writeOwn id name kind v)) fun bare => ?_⟩
    exact (h.writeOwn_bare id name kind v).symm.trans (congrArg (·.writeOwn id name kind v) bare)
  | add id =>
    simp only [addProperty_bare, Computation.set_bind]
    refine ⟨rfl, same.change (host_of_outside (h.outside_addProperty id name v {})) fun bare => ?_⟩
    exact (h.addProperty_bare id name v {}).symm.trans (congrArg (·.addProperty id name v {}) bare)

theorem blind_thisString (method : String) (receiver : Value) :
    Blind w (thisString method receiver) := by
  refine blind_get (fun _ => rfl) fun h => ?_
  cases h.string? receiver with
  | some s => exact blind_pure s
  | none =>
    rcases h.classOf? receiver with _ | c
    · exact blind_throw _
    · cases c <;> first | exact blind_pure _ | exact blind_throw _

section Calls

variable (sees : w.Blind)

include sees

theorem blind_runHost (f : HostFunction) (receiver : Value) (args : List Value) :
    Blind w (runHost f receiver args) := by
  -- A provided function is blind by assumption; the two of strings read no shape.
  cases f with
  | provided i =>
    intro h same
    have run := sees i receiver args h.toMemory fun e => congrArg Heap.toMemory (same.bare e)
    rw [← same.host] at run
    refine ⟨?_, same.change rfl fun bare => ?_⟩
    · change (((h.host.run i receiver args h.toMemory.bare).1.mapError Fault.inHost :
        Except Fault Value),
        ({ h.bare with toMemory := (h.host.run i receiver args h.toMemory.bare).2 } : Heap)) = _
      rw [run]
      rfl
    · -- The memory was bare, and so is the one that it was left in.
      have memory : h.toMemory.bare = h.toMemory := congrArg Heap.toMemory bare
      have calls := congrArg Heap.invocations bare
      rw [memory] at run
      simp only [runHost]
      exact congrArg₂ (fun m calls => { h with toMemory := m, invocations := calls })
        (congrArg Prod.snd run).symm calls
  | charAt =>
    refine (blind_thisString _ receiver).bind fun s => blind_get (fun _ => rfl) fun h => ?_
    cases h.position? args (Text.units s).length with
    | some i => exact blind_newString _
    | none => exact blind_newString _
  | charCodeAt =>
    refine (blind_thisString _ receiver).bind fun s => blind_get (fun _ => rfl) fun h => ?_
    cases h.position? args (Text.units s).length with
    | some i => exact blind_pure _
    | none => exact blind_boxNumber _

theorem blind_enter (callee receiver : Value) (args : List Value) :
    Blind w (enter callee receiver args) := by
  refine blind_get (fun _ => rfl) fun h => ?_
  cases h.functionData? callee with
  | none => exact blind_throw _
  | some data =>
    dsimp only
    cases data.host with
    | some f => exact blind_runHost sees f receiver args
    | none => exact blind_throw _

theorem blind_invoke (depth : Nat) (callee receiver : Value) (args : List Value) :
    Blind w (invoke depth callee receiver args) := by
  induction depth generalizing callee receiver args with
  | zero => exact blind_throw _
  | succ depth ih =>
    refine blind_get (fun _ => rfl) fun h => ?_
    cases h.delegate? callee with
    | some d => exact ih d callee args
    | none => exact blind_enter sees callee receiver args

theorem blind_call (callee receiver : Value) (args : List Value) :
    Blind w (call callee receiver args) :=
  (blind_modify (f := fun h => h.noteCall callee receiver args)
    (fun h => h.noteCall_bare callee receiver args) fun _ => rfl).bind fun _ =>
      blind_get (fun _ => rfl) fun _ => blind_invoke sees _ callee receiver args

theorem blind_setProperty (receiver : Value) (name : Name) (v : Value) (strict : Bool) :
    Blind w (setProperty receiver name v strict) :=
  blind_setPropertyWith (blind_call sees) receiver name v strict

end Calls

theorem blind_setElement (receiver : Value) (index : Nat) (v : Value) :
    Blind w (setElement receiver index v) := by
  refine blind_get (fun _ => rfl) fun h => ?_
  cases receiver.objectId?.filter fun _ => h.isJsObject receiver with
  | none => exact blind_pure v
  | some id =>
    refine (blind_runExcept (fun h => ?_) fun _ _ e =>
      host_of_outside (outside_storeElement e)).bind fun _ => blind_pure v
    rw [resolveProxy_bare, storeElement_bare]

/-! ### Reads -/

theorem blind_readReal (sees : w.Blind) (receiver : Value) (found : Lookup) (name : Name) :
    Blind w (readReal receiver found name) := by
  cases found with
  | property holder kind a =>
    cases kind with
    | constant v => exact blind_pure v
    | accessor g s =>
      refine blind_get (fun _ => rfl) fun h => ?_
      split
      · exact blind_call sees g receiver []
      · exact blind_pure _
    | _ => exact blind_get (fun _ => rfl) fun _ => blind_pure _
  | _ => exact blind_pure _

theorem blind_readLookup (sees : w.Blind) (receiver : Value) (found : Lookup) (name : Name) :
    Blind w (readLookup receiver found name) := by
  cases found with
  | interceptor holder =>
    refine blind_get (fun _ => rfl) fun h => ?_
    cases h.interceptorValue? holder name with
    | some v => exact blind_pure v
    | none =>
      exact blind_get (fun h => by rw [lookupReal_bare]) fun _ => blind_readReal sees receiver _ name
  | notFound => exact blind_readReal sees receiver .notFound name
  | property holder kind a => exact blind_readReal sees receiver (.property holder kind a) name
  | transition holder target d => exact blind_readReal sees receiver (.transition holder target d) name

theorem blind_getElement (receiver : Value) (index : Nat) : Blind w (getElement receiver index) := by
  refine blind_get (fun h => ?_) fun h => ?_
  · rw [chainElement_bare]
    rfl
  · cases (h.indexedString? receiver).bind fun s => (Text.units s)[index]? with
    | some u => exact blind_newString _
    | none => exact blind_pure _

theorem blind_getProperty (sees : w.Blind) (receiver : Value) (name : Name) :
    Blind w (getProperty receiver name) := by
  refine blind_get (fun h => by simp only [intrinsic?_bare]) fun h => ?_
  split
  · exact blind_pure _
  · exact blind_get (fun h => by simp only [lookup_bare]) fun h => blind_readLookup sees receiver _ name

/-! ### Any value as a key -/

theorem blind_nameOfKey (key : Value) : Blind w (nameOfKey key) :=
  blind_get (fun _ => rfl) fun _ => (blind_modify (fun h => h.intern_bare _) fun h =>
    host_of_outside (h.outside_intern _)).bind fun _ => blind_pure _

theorem blind_getNamed (sees : w.Blind) (receiver : Value) (name : Name) :
    Blind w (getNamed receiver name) := by
  unfold getNamed
  split
  · exact blind_get (fun _ => rfl) fun _ => blind_throw _
  · exact blind_getProperty sees receiver name

theorem blind_getKeyed (sees : w.Blind) (receiver key : Value) : Blind w (getKeyed receiver key) := by
  refine blind_get (fun h => rfl) fun h => ?_
  split
  · exact blind_throw _
  · split
    · exact blind_getElement receiver _
    · exact (blind_nameOfKey key).bind fun n => blind_getProperty sees receiver n

theorem blind_setNamed (sees : w.Blind) (receiver : Value) (name : Name) (v : Value) (strict : Bool) :
    Blind w (setNamed receiver name v strict) := by
  unfold setNamed
  split
  · exact blind_get (fun _ => rfl) fun _ => blind_throw _
  · split
    · exact blind_setElement receiver _ v
    · exact blind_setProperty sees receiver name v strict

theorem blind_setKeyed (sees : w.Blind) (receiver key v : Value) (strict : Bool) :
    Blind w (setKeyed receiver key v strict) := by
  refine blind_get (fun _ => rfl) fun h => ?_
  split
  · exact blind_throw _
  · split
    · exact blind_setElement receiver _ v
    · exact (blind_nameOfKey key).bind fun n => blind_setProperty sees receiver n v strict

/-! ### Heaps without stubs stay so -/

variable {h}

@[simp] theorem bare_bare (h : Heap) : h.bare.bare = h.bare := by
  simp [bare, Memory.bare, Invocation.bare, Function.comp_def, Shape.bare]

/-- In a bare heap no shape keeps a stub. -/
theorem codeCache_of_bare (e : h.bare = h) (s : ShapeId) : (h.shape s).codeCache = {} := by
  rw [← e, shape_bare]
  rfl

/-- What does not look at stubs makes none. -/
theorem Blind.bare {a : Action α} (b : Blind { host := h.host, bare := true } a) (e : h.bare = h) :
    (a h).2.bare = (a h).2 := by
  have blind := congrArg Prod.snd (b h ⟨rfl, fun _ => e⟩).1
  rw [e] at blind
  exact blind.symm

theorem bare_roots : roots.bare = roots := by
  simp [bare, Memory.bare, roots, Shape.bare, Shape.make]

theorem blind_installStringMethod (name : Name) (f : HostFunction) (method : StringMethod) :
    Blind w (installStringMethod name f method) := by
  refine (blind_newHostFunction name.text 1 f).bind fun id => ?_
  refine Blind.bind (blind_modify (fun h => ?_) fun h => by split <;> rfl) fun _ =>
    blind_modify (fun h => h.addConstant_bare _ _ _ _) fun h => host_of_outside (h.outside_addConstant _ _ _ _)
  have same : h.bare.functionData? (.object id) = h.functionData? (.object id) := rfl
  rw [same]
  split <;> rfl

/-- The heap that every program starts with is bare. -/
theorem bare_initial : initial.bare = initial :=
  Blind.bare ((blind_installStringMethod _ _ _).bind fun _ => blind_installStringMethod _ _ _)
    bare_roots

end Heap

end Speculation
