import Speculation.Proofs.Cache.Sharing

/-!
# Archived stubs are found

A monomorphic site that goes megamorphic archives its stub: it enters it into the stub cache under a
shape that it reads off from the guards of the stub (`Stub.probeShape?`). Whoever looks for the stub
later goes by the receiver of that moment (`Heap.probeShape?`). If this receiver passes the guards, the
two shapes are the same (`Heap.MadeFor.probeShape?_eq`): an object has the shape that the stub checks,
and the prototype of a primitive receiver is the first object that the stub pins.

Stubs for properties that no shape describes are never found: they check the name alone, so there is no
shape to archive them under. Besides, only a site for calls looks for a method of a string where its stub
stands, under the shape of the prototype; any other site looks under the shape of the string itself.
-/

namespace Speculation

variable {rules : Rules}

/-- A stub that checks no shapes has no shape to stand under. -/
theorem Stub.probeShape?_eq_none {stub : Stub} (own : stub.spec.cacheHolder = .ownShape)
    (shapes : stub.spec.receiverShapes = []) : stub.probeShape? = none := by
  simp only [Stub.probeShape?, own, Stub.firstShape?, shapes, List.head?_nil]

/-! ### The two shapes -/

namespace Heap.MadeFor

variable {h₀ h : Heap} {spec : StubSpec} {stub : Stub} {receiver₀ receiver : Value} {name : Name}
  {holder : Option ObjectId} {key : Option Name}

/-- A stub that was made for a receiver checks a shape. -/
theorem receiverShapes_ne_nil (m : h.MadeFor spec receiver name holder) :
    spec.receiverShapes ≠ [] := by
  obtain ⟨shape, -, e⟩ := Option.map_eq_some_iff.1 m.guards
  simp [← congrArg StubSpec.receiverShapes e]

/-- Where the guards of a stub hold, a site of its kind looks under the shape that the stub stands
under. -/
theorem probeShape?_eq (m : h₀.MadeFor stub.spec receiver₀ name holder) (ob₀ : h₀.Obeys rules)
    (ob : h.Obeys rules) (call : stub.spec.cacheHolder = .prototypeShape → stub.kind.isCall)
    (hold : h.guardsHold stub.spec receiver key) :
    ∃ shape, stub.probeShape? = some shape ∧ h.probeShape? stub.kind receiver = some shape := by
  by_cases object : h₀.isJsObject receiver₀
  · obtain ⟨o, ho⟩ := Option.isSome_iff_exists.1 object
    obtain ⟨id, rfl, ho⟩ := object_of_asObject? ho
    obtain ⟨-, id', o', rfl, twin, -⟩ := guardsHold_spec ob₀ ho m.guards hold
    have stands := (answers_of_monomorphic object m.guards _ (probeShape?_object ho)).shape
    exact ⟨o.shape, stands, (probeShape?_object twin.after).trans (congrArg some twin.shape)⟩
  · obtain ⟨p, o, prototype₀, ho, first, stands⟩ := m.firstGuard ob₀ object
    obtain ⟨-, primitive, prototype, checks⟩ :=
      guardsHold_primitive ob (by simpa using object) m.guards hold
    have kind := call (m.cacheHolder_eq.trans (if_neg object))
    -- The first object that the stub pins still has its shape.
    obtain ⟨o', ho', e⟩ := hasShape_eq_true.1 (checks.pinned _ (List.mem_of_mem_head? first))
    refine ⟨o.shape, stands, ?_⟩
    simp only [probeShape?, kind, primitive, Bool.not_false, Bool.and_self, if_true, prototype,
      prototype₀, mapOf?_object ho', e]

end Heap.MadeFor

/-! ### Archiving and looking -/

theorem StubCache.peek?_set_self (c : StubCache) (name : Name) (shape : ShapeId) (stub : Stub) :
    (c.set name shape stub).peek? ⟨name, shape, stub.kind⟩ = some stub := by
  simp only [StubCache.set, StubCache.peek?, Table.get?_insert, if_true]

namespace AtSite

variable {s : AtSite} {stub archived probing : Stub} {receiver : Value} {key : Key} {name : Name}
  {shape : ShapeId}

/-- A search of the stub cache right after a stub was archived. -/
def probeArchive (name : Name) (archived probing : Stub) (receiver : Value) (key : Key) :
    Action (Option StubSpec) := do
  share name archived.probeShape? archived
  probe probing receiver key

/-- A monomorphic stub in the stub cache is found under its key. -/
theorem probe_of_cached (mono : stub.state = .monomorphic)
    (named : key.name? s.engine.heap = some name)
    (looks : s.engine.heap.probeShape? probing.kind receiver = some shape)
    (cached : s.engine.stubCache.peek? ⟨name, shape, probing.kind⟩ = some stub) :
    (probe probing receiver key s).1 = .ok (some stub.spec) := by
  have read {α : Type} (f : Heap → Action α) : (heap >>= f) s = f s.engine.heap s := rfl
  simp only [probe, read, named, looks, Computation.get_bind, Computation.modify_bind,
    StubCache.get_fst, cached, mono, if_true]
  rfl

/-- A stub that was archived is found under the shape that it stands under. -/
theorem probeArchive_eq (kind : probing.kind = archived.kind)
    (mono : archived.state = .monomorphic) (named : key.name? s.engine.heap = some name)
    (stands : archived.probeShape? = some shape)
    (looks : s.engine.heap.probeShape? archived.kind receiver = some shape) :
    (probeArchive name archived probing receiver key s).1 = .ok (some archived.spec) := by
  simp only [probeArchive, stands]
  refine probe_of_cached (s := { s with engine := { s.engine with
    stubCache := s.engine.stubCache.set name shape archived } }) mono named (kind ▸ looks) ?_
  rw [kind]
  exact StubCache.peek?_set_self ..

end AtSite

/-- **An archived stub is found by whoever could use it.** Take any monomorphic stub for a name that a
session has, and an access in any later session for which its guards hold, by an object or a
primitive receiver. The stub checks no shape exactly if it is for a property that no shape describes,
and then it is never archived. If it checks a shape, and it is not for a primitive receiver of a site
that is not for calls, then the shape that it is archived under is the one under which a megamorphic
site of its kind looks for this access, and once the stub is archived the site finds it. -/
theorem archived_stubs_found {session : Session} (reachable : session.Reachable rules) {stub : Stub}
    (has : session.HasStub stub.spec) {name : Name} (named : stub.name = some name)
    (mono : stub.state = .monomorphic) {ops : List Operation} (allowed : session.AllowedRun rules ops)
    {receiver : Value} {key : Key}
    (hold : (session.run ops).engine.heap.guardsHold stub.spec receiver
      (key.name? (session.run ops).engine.heap)) :
    let later := (session.run ops).engine
    (stub.spec.receiverShapes = [] ↔ stub.handler.isIntrinsic) ∧
    (stub.handler.isIntrinsic → stub.probeShape? = none) ∧
    (¬ stub.handler.isIntrinsic → (stub.spec.cacheHolder = .prototypeShape → stub.kind.isCall) →
      ∃ shape, stub.probeShape? = some shape ∧
        later.heap.probeShape? stub.kind receiver = some shape ∧
        ∀ (site : Site) (probing : Stub), probing.kind = stub.kind →
          (AtSite.probeArchive name stub probing receiver key ⟨site, later⟩).1 =
            .ok (some stub.spec)) := by
  intro later
  have keyed := Heap.guardsHold_name hold named
  have sound := reachable.sound
  have ob := (reachable.run allowed).sound.engine.heap
  obtain ⟨h₀, ob₀, -, compiled⟩ := sound.stub has
  -- A stub with a name was compiled for an intrinsic, without a shape, or for the shape of a
  -- receiver.
  cases compiled.purpose with
  | unnamed any => cases any.symm.trans named
  | intrinsic handler shapes own =>
    have none := Stub.probeShape?_eq_none own shapes
    exact ⟨iff_of_true shapes handler, fun _ => none, fun other => absurd handler other⟩
  | receiver made =>
    have described : ¬ stub.handler.isIntrinsic := by
      simpa [Stub.handler] using made.described
    refine ⟨iff_of_false made.receiverShapes_ne_nil described, fun i => absurd i described,
      fun _ call => ?_⟩
    obtain ⟨shape, stands, looks⟩ := made.probeShape?_eq ob₀ ob call hold
    exact ⟨shape, stands, looks, fun site probing kind =>
      AtSite.probeArchive_eq kind mono keyed stands looks⟩

/-- A method of strings, called on one string before and on another one after the prototype that all
objects share was changed. -/
theorem archived_stubs_found_charAt :
    let call : Operation := .atSite 0 (.call (.object ⟨10⟩) .charAt [.smi 0])
    let session := (Session.ofConfig {}).run [
      .onHeap (.string "ab"), .onHeap (.string "cd"), .newSite .call {}, call, call]
    let change : List Operation := [
      .access (.setProperty (.object Heap.objectPrototype) ⟨"x"⟩ (.smi 1) false)]
    let later := (session.run change).engine
    ∃ site ∈ session.sites, ∃ shape, site.target.probeShape? = some shape ∧
      later.heap.probeShape? site.target.kind (.object ⟨11⟩) = some shape ∧
      (AtSite.probeArchive .charAt site.target site.target (.object ⟨11⟩) (.named .charAt)
        ⟨site, later⟩).1 = .ok (some site.target.spec) := by
  intro call session change later
  have reachable : session.Reachable {} :=
    .run (.initial {}) ⟨trivial, trivial, trivial, trivial, trivial, trivial⟩
  have allowed : session.AllowedRun {} change := ⟨trivial, trivial⟩
  have made : ∃ site ∈ session.sites, site.target.name = some .charAt ∧
      site.target.state = .monomorphic ∧
      later.heap.guardsHold site.target.spec (.object ⟨11⟩)
        ((Key.named .charAt).name? later.heap) ∧
      ¬ site.target.handler.isIntrinsic ∧ site.target.kind.isCall := by decide +kernel
  obtain ⟨site, mem, named, mono, hold, described, call⟩ := made
  obtain ⟨shape, stands, looks, found⟩ :=
    (archived_stubs_found reachable (.installed mem) named mono allowed hold).2.2 described
      fun _ => call
  exact ⟨site, mem, shape, stands, looks, found site site.target rfl⟩

/-- The stub for the length of strings is not archived, although a site for loads looks for it: it checks
no shape, and the site looks under the shape of the string. -/
theorem intrinsic_stub_not_found :
    let string : Value := .object ⟨10⟩
    let session := (Session.ofConfig {}).run [
      .onHeap (.string "abc"), .newSite .load {}, .atSite 0 (.load string .length),
      .atSite 0 (.load string .length)]
    let h := session.engine.heap
    ∃ site ∈ session.sites, site.target.name = some .length ∧ site.target.state = .monomorphic ∧
      h.guardsHold site.target.spec string (some .length) ∧
      site.target.probeShape? = none ∧ h.probeShape? site.target.kind string ≠ none ∧
      (AtSite.probeArchive .length site.target site.target string (.named .length)
        ⟨site, session.engine⟩).1.toOption = some none := by
  decide +kernel

end Speculation
