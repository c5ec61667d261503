import Speculation.Proofs.Heap.Getters
import Speculation.Proofs.Property.Mirrors

/-!
# Loads and calls in heaps that hold the same properties

Where two heaps mirror each other, a load of a property reads the same value in both, or calls the same
getter. What a getter does in the end is up to the host, whose functions get the whole memory: if these do
the same wherever objects keep their properties (`Host.Indifferent`), then all calls end alike, and so
do all loads (`Twins.getProperty`).

The host only has to be indifferent in `Twins`: heaps that are well formed, and in which all objects fit
their shapes.
-/

namespace Speculation

namespace Heap

variable {rules : Rules} {h h' g g' : Heap} {id : ObjectId} {o o' : JsObject} {name : Name}

/-! ### Steps that keep heaps mirrors -/

/-- Own properties are a matter of objects and shapes. -/
theorem ownProperty?_congr (object : ∀ j, g.object? j = h.object? j) (shapes : g.shapes = h.shapes)
    (j : ObjectId) (n : Name) : g.ownProperty? j n = h.ownProperty? j n := by
  have shape (s) : g.shape s = h.shape s := by rw [Heap.shape, Heap.shape, shapes]
  have proxy : g.resolveProxy j = h.resolveProxy j := by rw [resolveProxy, resolveProxy, object]
  have real : g.ownReal j n = h.ownReal j n := by
    simp only [ownReal, proxy, object, shapeOf, shape]
    rfl
  have content (holder kind) : g.contentOf holder n kind = h.contentOf holder n kind := by
    cases kind <;> simp only [contentOf, fieldValue, dictionaryValue?, dictionarySlot?, object]
  simp only [ownProperty?, real, content]

/-- What is no object and no shape may be added to both heaps. -/
theorem Mirrors.extend (m : h.Mirrors h') (object : ∀ j, g.object? j = h.object? j)
    (shapes : g.shapes = h.shapes) (object' : ∀ j, g'.object? j = h'.object? j)
    (shapes' : g'.shapes = h'.shapes) (size : g'.cells.size = g.cells.size)
    (cell : ∀ j, g.object? j = none → g'.cell? j = g.cell? j) : g.Mirrors g' where
  size := size
  cell {j} ho := cell j ho
  object {j o} ho := by
    obtain ⟨o', ho', same⟩ := m.object ((object j).symm.trans ho)
    have shape : g.shapeOf o = h.shapeOf o := by rw [shapeOf, shapeOf, Heap.shape, Heap.shape, shapes]
    have shape' : g'.shapeOf o' = h'.shapeOf o' := by
      rw [shapeOf, shapeOf, Heap.shape, Heap.shape, shapes']
    refine ⟨o', (object' j).trans ho', same.objectClass, same.elements, same.interceptor,
      same.callHandler, ?_⟩
    rw [shape, shape']
    exact same.shape
  property j n := by
    rw [ownProperty?_congr object' shapes', ownProperty?_congr object shapes, m.property]

theorem object?_push {c : Cell} (primitive : ∀ o, c ≠ .object o) (j : ObjectId) :
    object? { h with cells := h.cells.push c } j = h.object? j := by
  by_cases new : j.index = h.cells.size
  · cases c with
    | object o => exact absurd rfl (primitive o)
    | _ => simp [object?, cell?, new]
  · simp only [object?, cell?, Array.getElem?_push, if_neg new]

theorem Mirrors.push (m : h.Mirrors h') {c : Cell} (primitive : ∀ o, c ≠ .object o) :
    Mirrors { h with cells := h.cells.push c } { h' with cells := h'.cells.push c } := by
  refine m.extend (object?_push primitive) rfl (object?_push primitive) rfl (by simp [m.size])
    fun j ho => ?_
  rw [object?_push primitive] at ho
  have cell : h'.cells[j.index]? = h.cells[j.index]? := m.cell ho
  simp only [cell?, Array.getElem?_push, m.size, cell]

theorem allocate_apply (c : Cell) (h : Heap) : allocate c h =
    if h.allocationAllowed then (.ok ⟨h.cells.size⟩, { h with cells := h.cells.push c })
    else (.error .allocationForbidden, h) := by
  simp only [allocate, Computation.get_bind]
  split <;> rfl

/-! ### Runs that end alike -/

/-- Two runs end alike: with the same result, in heaps that mirror each other. -/
structure EndsAlike {α : Type} (r r' : Except Fault α × Heap) : Prop where
  result : r'.1 = r.1
  heap : r.2.Mirrors r'.2

theorem EndsAlike.bind {α β : Type} {a a' : Action α} {f f' : α → Action β}
    (first : EndsAlike (a h) (a' h'))
    (next : ∀ x {g g' : Heap}, g.Mirrors g' → EndsAlike (f x g) (f' x g')) :
    EndsAlike ((a >>= f) h) ((a' >>= f') h') := by
  rw [Computation.bind_apply, Computation.bind_apply]
  obtain ⟨result, heap⟩ := first
  generalize a h = r at result heap ⊢
  generalize a' h' = r' at result heap ⊢
  obtain ⟨e, g⟩ := r
  obtain ⟨e', g'⟩ := r'
  obtain rfl : e' = e := result
  cases e' with
  | error e => exact ⟨rfl, heap⟩
  | ok x => exact next x heap

/-- Two well-formed heaps that mirror each other, where every object fits its shape. -/
structure Twins (rules : Rules) (h h' : Heap) : Prop extends h.Mirrors h' where
  obeys : h.Obeys rules
  obeys' : h'.Obeys rules
  fit : ∀ {id o}, h.object? id = some o → (h.propertiesOf o).Fit
  fit' : ∀ {id o}, h'.object? id = some o → (h'.propertiesOf o).Fit
  shared : h'.shared = h.shared
  noAllocation : h'.noAllocation = h.noAllocation
  host : h'.host = h.host

end Heap

/-- The functions of the host do the same wherever objects keep their properties. -/
def Host.Indifferent (host : Host) (rules : Rules) : Prop :=
  ∀ {h h' : Heap}, h.host = host → Heap.Twins rules h h' → ∀ i receiver args,
    Heap.EndsAlike (Heap.runHost (.provided i) receiver args h)
      (Heap.runHost (.provided i) receiver args h')

/-- A host that only answers does not even look. -/
theorem Host.answering_indifferent (v : Value) (rules : Rules) :
    (Host.answering v).Indifferent rules := by
  have run (h : Heap) (host : h.host = .answering v) (i : Nat) (receiver : Value) (args : List Value) :
      Heap.runHost (.provided i) receiver args h = (.ok v, h) := by
    cases h
    subst host
    rfl
  intro h h' host t i receiver args
  rw [run h host, run h' (t.host.trans host)]
  exact ⟨rfl, t.toMirrors⟩

namespace Heap

variable {rules : Rules} {h h' : Heap} {name : Name}

namespace Twins

variable (t : Twins rules h h')

include t

theorem pure {α : Type} (x : α) : EndsAlike ((pure x : Action α) h) ((pure x : Action α) h') :=
  ⟨rfl, t.toMirrors⟩

theorem raise {α : Type} (e : Exception) :
    EndsAlike ((Heap.raise e : Action α) h) ((Heap.raise e : Action α) h') :=
  ⟨rfl, t.toMirrors⟩

/-- A call is listed in both heaps. -/
theorem noteCall (callee receiver : Value) (args : List Value) :
    Twins rules (h.noteCall callee receiver args) (h'.noteCall callee receiver args) where
  toMirrors := t.toMirrors.extend (fun _ => rfl) rfl (fun _ => rfl) rfl t.size fun _ => t.cell
  obeys := (noteCall_leads t.obeys callee receiver args).obeys
  obeys' := (noteCall_leads t.obeys' callee receiver args).obeys
  fit := t.fit
  fit' := t.fit'
  shared := t.shared
  noAllocation := t.noAllocation
  host := t.host

/-! ### Numbers and strings -/

theorem allocate {c : Cell} (primitive : ∀ o, c ≠ .object o) :
    EndsAlike (Heap.allocate c h) (Heap.allocate c h') := by
  have same : h'.allocationAllowed = h.allocationAllowed := by
    rw [allocationAllowed, allocationAllowed, t.noAllocation]
  rw [allocate_apply, allocate_apply, same, t.size]
  split
  · exact ⟨rfl, t.toMirrors.push primitive⟩
  · exact ⟨rfl, t.toMirrors⟩

theorem newString (s : String) : EndsAlike (Heap.newString s h) (Heap.newString s h') :=
  (t.allocate (by simp)).bind fun _ _ _ m => ⟨rfl, m⟩

theorem boxNumber (d : Double) : EndsAlike (Heap.boxNumber d h) (Heap.boxNumber d h') :=
  (t.allocate (by simp)).bind fun _ _ _ m => ⟨rfl, m⟩

/-! ### Calls -/

/-- What a method of strings reads is the same, and nothing is changed. -/
theorem thisString_bind {α : Type} (method : String) (receiver : Value) {f : String → Action α}
    (next : ∀ s, EndsAlike (f s h) (f s h')) :
    EndsAlike ((thisString method receiver >>= f) h) ((thisString method receiver >>= f) h') := by
  have same : (thisString method receiver h').1 = (thisString method receiver h).1 := by
    simp only [thisString, Computation.get_bind, t.string?, t.classOf?, t.describe t.shared]
    cases h.string? receiver with
    | some s => rfl
    | none =>
      rcases h.classOf? receiver with _ | c
      · rfl
      · cases c <;> rfl
  -- Taking the string of `this` changes neither heap.
  have stays := thisString_snd method receiver h
  have stays' := thisString_snd method receiver h'
  rw [Computation.bind_apply, Computation.bind_apply]
  generalize thisString method receiver h = r at same stays ⊢
  generalize thisString method receiver h' = r' at same stays' ⊢
  obtain ⟨e, g⟩ := r
  obtain ⟨e', g'⟩ := r'
  obtain rfl : e' = e := same
  obtain rfl : g = h := stays
  obtain rfl : g' = h' := stays'
  cases e' with
  | error e => exact ⟨rfl, t.toMirrors⟩
  | ok s => exact next s

section Calls

variable (alike : h.host.Indifferent rules)

include alike

/-- A function of the host ends alike if it is indifferent to dictionary mode. -/
theorem runHost (f : HostFunction) (receiver : Value) (args : List Value) :
    EndsAlike (Heap.runHost f receiver args h) (Heap.runHost f receiver args h') := by
  cases f with
  | provided i => exact alike rfl t i receiver args
  | charAt =>
    refine t.thisString_bind "charAt" receiver fun s => ?_
    simp only [Computation.get_bind, t.position?]
    cases h.position? args (Text.units s).length with
    | some i => exact t.newString _
    | none => exact t.newString _
  | charCodeAt =>
    refine t.thisString_bind "charCodeAt" receiver fun s => ?_
    simp only [Computation.get_bind, t.position?]
    cases h.position? args (Text.units s).length with
    | some i => exact t.pure _
    | none => exact t.boxNumber _

theorem enter (callee receiver : Value) (args : List Value) :
    EndsAlike (Heap.enter callee receiver args h) (Heap.enter callee receiver args h') := by
  simp only [Heap.enter, Computation.get_bind, t.functionData?, t.describe t.shared]
  cases h.functionData? callee with
  | none => exact t.raise _
  | some data =>
    dsimp only
    cases data.host with
    | some f => exact t.runHost alike f receiver args
    | none =>
      simp only [sharedInfo, t.shared]
      exact ⟨rfl, t.toMirrors⟩

/-- A call ends alike if the functions of the host do. -/
theorem invoke (depth : Nat) (callee receiver : Value) (args : List Value) :
    EndsAlike (Heap.invoke depth callee receiver args h) (Heap.invoke depth callee receiver args h') := by
  induction depth generalizing callee receiver args with
  | zero => exact ⟨rfl, t.toMirrors⟩
  | succ depth ih =>
    simp only [Heap.invoke, Computation.get_bind, t.delegate?]
    cases h.delegate? callee with
    | some d => exact ih d callee args
    | none => exact t.enter alike callee receiver args

/-- **Calls end alike in twins.** -/
theorem call (callee receiver : Value) (args : List Value) :
    EndsAlike (Heap.call callee receiver args h) (Heap.call callee receiver args h') := by
  have noted := t.noteCall callee receiver args
  simp only [Heap.call, Computation.modify_bind, Computation.get_bind, noted.size]
  exact noted.invoke alike _ callee receiver args

end Calls

/-! ### Loads -/

/-- The same getter is called to read a property. -/
theorem realGetter? {l l' : Lookup} (found : Corresponds h h' name l l') :
    h'.realGetter? l' = h.realGetter? l := by
  cases found with
  | notFound => rfl
  | interceptor holder => rfl
  | @property holder kind kind' a same =>
    cases kind with
    | accessor getter setter =>
      obtain rfl := contentOf_eq_accessor.mp same
      simp only [Heap.realGetter?, t.isCallable]
    | _ =>
      cases kind' with
      | accessor getter setter => cases contentOf_eq_accessor.mp same.symm
      | _ => rfl

/-- Twins have the same getters. -/
theorem propertyGetter? (receiver : Value) (name : Name) :
    h'.propertyGetter? receiver name = h.propertyGetter? receiver name := by
  rw [Heap.propertyGetter?, Heap.propertyGetter?, t.intrinsic?]
  have found := t.lookup receiver name
  generalize h.lookup receiver name = l at found ⊢
  generalize h'.lookup receiver name = l' at found ⊢
  cases found with
  | notFound => rfl
  | interceptor holder =>
    simp only [getter?, t.interceptorValue?, t.realGetter? (t.lookupReal holder name)]
  | property a same =>
    simp only [getter?, t.realGetter? (.property a same)]

/-! Only a load that calls a getter asks anything of the host. -/

/-- Reading a property ends alike. -/
theorem readReal (receiver : Value) {l l' : Lookup} (found : Corresponds h h' name l l')
    (alike : ∀ g, h.realGetter? l = some g → h.host.Indifferent rules) :
    EndsAlike (Heap.readReal receiver l name h) (Heap.readReal receiver l' name h') := by
  cases found with
  | notFound => exact t.pure _
  | interceptor holder => exact t.pure _
  | @property holder kind kind' a same =>
    rw [readReal_property, readReal_property, same]
    cases hc : h.contentOf holder name kind with
    | data v => exact t.pure v
    | accessor getter setter =>
      obtain rfl := contentOf_eq_accessor.mp hc
      simp only [Heap.callGetter, Computation.get_bind, t.isCallable]
      by_cases callable : h.isCallable getter
      · simp only [callable, if_true]
        exact t.call (alike getter (by simp [Heap.realGetter?, callable])) getter receiver []
      · simp only [callable, Bool.false_eq_true, if_false]
        exact t.pure _

/-- Reading what was found ends alike. -/
theorem readLookup (receiver : Value) {l l' : Lookup} (found : Corresponds h h' name l l')
    (alike : ∀ g, h.getter? name l = some g → h.host.Indifferent rules) :
    EndsAlike (Heap.readLookup receiver l name h) (Heap.readLookup receiver l' name h') := by
  cases found with
  | notFound => exact t.pure _
  | interceptor holder =>
    simp only [Heap.readLookup, Computation.get_bind, t.interceptorValue?]
    cases hv : h.interceptorValue? holder name with
    | some v => exact t.pure v
    | none =>
      exact t.readReal receiver (t.lookupReal holder name) fun g hg =>
        alike g (by simpa [getter?, hv] using hg)
  | property a same => exact t.readReal receiver (.property a same) alike

/-- **A load of a property ends alike in twins.** -/
theorem getProperty (receiver : Value) (name : Name)
    (alike : ∀ g, h.propertyGetter? receiver name = some g → h.host.Indifferent rules) :
    EndsAlike (Heap.getProperty receiver name h) (Heap.getProperty receiver name h') := by
  simp only [Heap.getProperty, Computation.get_bind, t.intrinsic?]
  cases hi : h.intrinsic? receiver name with
  | some v => exact t.pure v
  | none =>
    exact t.readLookup receiver (t.lookup receiver name) fun g hg =>
      alike g (by simpa [Heap.propertyGetter?, hi] using hg)

end Twins

end Heap

end Speculation
