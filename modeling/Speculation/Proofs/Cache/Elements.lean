import Speculation.Proofs.Cache.ElementStore

/-!
# Elements fit their kinds in every session

Stubs write elements without the care of the general rules. A stub only asks whether the value fits
the storage of the kind that the object ends up with, so that it writes a hole into packed tagged
elements. As long as no hole is stored through a site and no arguments object is created with one,
the elements of every object fit its kind (`Session.Sound.run_fits`); the general rules may store
holes, since they make the kind holey.

Kinds never narrow, holes or not. For a stub that moves its receiver this is not obvious, since it
names a shape that was found when the stub was made: that shape is still behind an elements
transition of the receiver's own shape, and all such transitions of shapes that objects have lead to
more general kinds.
-/

namespace Speculation

/-! ### Stores by stubs -/

namespace Heap

variable {rules : Rules} {h : Heap} {v w : Value}

/-- A vector that was written has its old elements and the new one. -/
theorem mem_putElement {elements : Array Value} {i : Nat} (hw : w ∈ putElement elements i v) :
    w ∈ elements ∨ w = v := by
  unfold putElement at hw
  split at hw
  · exact Array.mem_or_eq_of_mem_setIfInBounds hw
  · exact Array.mem_push.1 hw

/-- Elements also fit after what stubs write, unless that is a hole, as long as the host creates no
arguments object with one. -/
theorem accessClosed_carries (rules : Rules) :
    AccessClosed rules (Under rules (fun _ op => op.NoHole) (Carries rules)) (· ≠ .hole) where
  toElementClosed := elementClosed_carries rules
  bare ob e log := (storeClosed_carries rules).always
    ((ob.leads_of_bare e log).carries (.of_cells (by simpa using congrArg (·.cells) e)))
  elementsTransition ob hs w le := (storeClosed_carries rules).always
    ((elementsTransition_settles ob hs w le).leads.carries
      (.of_cells (cells_elementsTransition _ _)))
  data l same := (storeClosed_carries rules).always
    (l.carries (.modifyObject fun o => ⟨(same o).elements, (same o).callHandler⟩))
  newField _ _ _ _ l := (storeClosed_carries rules).always
    (l.carries (.modifyObject fun _ => ⟨rfl, rfl⟩))
  put ob full ho within widens fits := by
    have leads := (accessClosed_leads rules).put ob trivial ho within widens fits
    refine (storeClosed_carries rules).always ?_
    refine leads.carries_modifyObject fun o' ho' w hw => ?_
    obtain rfl := Option.some.inj (ho.symm.trans ho')
    rcases mem_putElement hw with old | rfl
    · exact .inl old
    · exact .inr (kindFor_le_of_fitsKind fits full)

end Heap

/-! ### Operations -/

/-- No hole is stored through a site, and no arguments object is created with one. -/
def Operation.NoHole : Operation → Prop
  | .onHeap op => op.NoHole
  | .atSite _ op => op.Stores (· ≠ .hole)
  | _ => True

/-! ### Sessions -/

namespace Session

variable {rules : Rules} {s : Session}

/-- Each operation carries on what elements promise. -/
theorem Sound.perform_carries (ss : s.Sound rules) (op : Operation) (allowed : s.Allowed rules op)
    (full : op.NoHole) :
    Heap.Under rules (fun _ op => op.NoHole) (Heap.Carries rules) s.engine.heap
      (s.perform op).engine.heap := by
  refine ss.perform_rel (Heap.accessClosed_carries rules) op (fun o e => ?_) fun i o e => ?_
  · subst e
    exact (Heap.storeClosed_carries rules).always
      (Heap.operation_carries ss.engine.heap o allowed full)
  · subst e
    exact full

/-- Elements fit after a run if they did before. -/
theorem Sound.run_fits (ss : s.Sound rules) {ops : List Operation}
    (host : s.engine.heap.host.Does rules fun _ op => op.NoHole)
    (allowed : s.AllowedRun rules ops) (full : ∀ op ∈ ops, op.NoHole)
    (fit : s.engine.heap.ElementsFit) : (s.run ops).engine.heap.ElementsFit := by
  induction ops generalizing s with
  | nil => exact fit
  | cons op ops ih =>
    have step := ss.perform_carries op allowed.1 (full op List.mem_cons_self)
    exact ih (ss.perform op allowed.1) (step.1.host ▸ host) allowed.2
      (fun op h => full op (List.mem_cons_of_mem _ h)) ((step.2 host).fits fit)

end Session

/-- The elements of an object are what its elements kind promises. -/
structure Heap.KeepsPromise (h : Heap) (o : JsObject) : Prop where
  smi : (h.shapeOf o).elementsKind.storage = .smi → ∀ v ∈ o.elements, v ≠ .hole → v.isSmi
  double : (h.shapeOf o).elementsKind.storage = .double →
    ∀ v ∈ o.elements, v ≠ .hole → h.isNumber v
  packed : (h.shapeOf o).elementsKind.holey = false → .hole ∉ o.elements

/-- Where elements fit, each object keeps the promise of its kind. -/
theorem Heap.ElementsFit.keepsPromise {h : Heap} (fit : h.ElementsFit) {id : ObjectId} {o : JsObject}
    (ho : h.object? id = some o) : h.KeepsPromise o where
  smi e v hv present := (kindFor_le_iff.1 (fit id o ho v hv)).2.1 present e
  double e v hv present := (kindFor_le_iff.1 (fit id o ho v hv)).2.2 present e
  packed e hv := by
    have holey := (kindFor_le_iff.1 (fit id o ho _ hv)).1 rfl
    simp [e] at holey

/-- The kind of every object is the same later on, or a more general one. -/
def Heap.KindsWiden (h h' : Heap) : Prop :=
  ∀ id o, h.object? id = some o → ∃ o', h'.object? id = some o' ∧
    ((h'.shapeOf o').elementsKind = (h.shapeOf o).elementsKind ∨
      (h.shapeOf o).elementsKind.generalizesTo (h'.shapeOf o').elementsKind)

/-- Kinds of elements only widen. -/
theorem Heap.Grows.kindsWiden {h h' : Heap} (g : h.Grows h') : h.KindsWiden h' := by
  intro id o ho
  obtain ⟨o', ho', -, precedes⟩ := g.object ho
  refine ⟨o', ho', ?_⟩
  by_cases same : (h'.shapeOf o').elementsKind = (h.shapeOf o).elementsKind
  · exact .inl same
  · exact .inr (ElementsKind.generalizesTo_of_le precedes.elements (Ne.symm same))

/-- **Elements always fit their kind, and kinds never narrow**, whatever functions of the host run in
between, as long as they act through operations of the heap and create no arguments object with a hole. -/
theorem elements_fit_kinds {rules : Rules} {config : Config} {around : Surroundings}
    {ops more : List Operation} (host : around.host.Does rules fun _ op => op.NoHole)
    (allowed : (Session.ofConfig config around).AllowedRun rules ops) (full : ∀ op ∈ ops, op.NoHole)
    (goesOn : ((Session.ofConfig config around).run ops).AllowedRun rules more) :
    let session := (Session.ofConfig config around).run ops
    (∀ id o, session.engine.heap.object? id = some o → session.engine.heap.KeepsPromise o) ∧
      session.engine.heap.KindsWiden (session.run more).engine.heap := by
  intro session
  have start := Session.sound_ofConfig host.lawful config
  have sound : session.Sound rules :=
    (Session.Reachable.run (.start config around host.lawful) allowed).sound
  have fit : session.engine.heap.ElementsFit :=
    start.run_fits host allowed full Heap.elementsFit_initial
  exact ⟨fun id o ho => fit.keepsPromise ho, (sound.run_leads goesOn).grows.kindsWiden⟩

/-- Two arrays and an arguments object, written through a polymorphic and an arguments stub: the
first stub widens the kind of an array, then a gap and a new length make both arrays holey. -/
theorem elements_fit_kinds_polymorphic :
    let array : Value := .object ⟨10⟩
    let other : Value := .object ⟨11⟩
    let arguments : Value := .object ⟨12⟩
    let ops : List Operation := [
      .onHeap (.array [.smi 7]), .onHeap (.array [.smi 8]),
      .onHeap (.arguments .undefined [.smi 1, .smi 2] false),
      .newSite .keyedStore {}, .newSite .keyedStore {},
      .atSite 0 (.keyedStore array (.smi 0) (.smi 1)),
      .atSite 0 (.keyedStore other (.smi 0) (.boolean true)),
      .atSite 1 (.keyedStore arguments (.smi 0) .null),
      .atSite 1 (.keyedStore arguments (.smi 1) .null)]
    let more : List Operation := [
      .atSite 0 (.keyedStore array (.smi 0) (.smi 2)),
      .onHeap (.setElement array 3 (.smi 5)), .onHeap (.setArrayLength ⟨11⟩ (.smi 4))]
    let session := (Session.ofConfig {}).run ops
    let kinds (s : Session) := [array, other, arguments].map s.engine.heap.elementsKind?
    (∀ id o, session.engine.heap.object? id = some o → session.engine.heap.KeepsPromise o) ∧
      session.engine.heap.KindsWiden (session.run more).engine.heap ∧
      kinds session = [some .packedSmi, some .packed, some .packed] ∧
      kinds (session.run (more.take 1)) = [some .packed, some .packed, some .packed] ∧
      kinds (session.run more) = [some .holeyTagged, some .holeyTagged, some .packed] := by
  intro array other arguments ops more session kinds
  have allowed : (Session.ofConfig {}).AllowedRun {} ops :=
    ⟨trivial, trivial, trivial, trivial, trivial, trivial, trivial, trivial, trivial, trivial⟩
  have full : ∀ op ∈ ops, op.NoHole := by
    simp [ops, Operation.NoHole, HeapOperation.NoHole, SiteOperation.Stores]
  have goesOn : session.AllowedRun {} more := ⟨trivial, trivial, trivial, trivial⟩
  simp only [session]
  obtain ⟨fit, widen⟩ := elements_fit_kinds (Host.idle_does {} _) allowed full goesOn
  exact ⟨fit, widen, by decide +kernel, by decide +kernel, by decide +kernel⟩

end Speculation
