import Speculation.Proofs.Property.Updates

/-!
# Deleting a property

To delete a property, an object first goes to dictionary mode, which changes none of its properties. After
that the dictionary has its data properties and the shape its accessors, and **only the dictionary** is
asked: its entry is refused if it may not be deleted, and erased otherwise. So a deletion removes a data
property or refuses (`deletion_erases_or_refuses`), but accessors stay: those that the name denotes, and
those that the entry stood in front of.
-/

namespace Speculation

namespace Heap

variable {rules : Rules} {h : Heap} {id : ObjectId} {o : JsObject} {name : Name}

/-- What is owned after an entry was erased. -/
theorem eraseEntry_updates (ob : h.Obeys rules) (ho : h.object? id = some o)
    (mode : (h.shapeOf o).isDictionary) (name : Name) :
    h.Updates (h.modifyObject id fun o => { o with dictionary := o.dictionary.erase name }) id name
      ((h.shapeOf o).accessor? name) := by
  have legal := ob.shape (ob.object ho).shape_lt
  exact ob.updates (eraseEntry_leads ob id name).obeys ho
    (relaid_modifyObject (p := { h.propertiesOf o with dictionary := o.dictionary.erase name }) ho
      rfl rfl)
    (.of_derive rfl) (Properties.updates_erased (legal.accessors mode) mode name)

/-- After the move to dictionary mode, a deletion asks the dictionary. -/
theorem delete_of_found (hr : h.resolveProxy id = id) (found : h.ownReal id name ≠ .notFound)
    (ho : (h.normalize id).object? id = some o) : h.delete id name =
      match o.dictionary.get? name with
      | some e =>
        if e.attributes.dontDelete then (false, h.normalize id)
        else (true, (h.normalize id).modifyObject id fun o =>
          { o with dictionary := o.dictionary.erase name })
      | none => (true, h.normalize id) := by
  cases entry : o.dictionary.get? name with
  | none => simp only [delete, hr, ho, entry]
  | some e => simp only [delete, hr, ho, entry]

section Target

variable (ob : h.Obeys rules) (hr : h.resolveProxy id = id) (ho : h.object? id = some o)
  (fit : (h.propertiesOf o).Fit)

include ob hr ho fit

/-- Where the properties of an object are when it has gone to dictionary mode. -/
theorem Obeys.normalize_spec (name : Name) : ∃ o', (h.normalize id).object? id = some o' ∧
    ((h.normalize id).shapeOf o').isDictionary ∧
    ((h.normalize id).shapeOf o').accessor? name = (h.shapeOf o).accessor? name ∧
    h.ownProperty? id name =
      ((o'.dictionary.get? name).map fun e => ⟨.data e.value, e.attributes⟩).or
        ((h.shapeOf o).accessor? name) := by
  obtain ⟨s, ho', layout⟩ := (normalize_relaid ob ho).object
  have mode := Properties.isDictionary_normalized (h.propertiesOf o)
  refine ⟨_, ho', ?_, ?_, ?_⟩
  · exact (congrArg Shape.isDictionary layout).trans mode
  · exact (Shape.accessor?_of_derive layout name).trans (fit.accessor?_normalized name)
  · have stored := (ob.shape (ob.object ho).shape_lt).stored
    rw [ob.ownProperty?_eq, hr, ho, Option.bind_some, ← fit.get?_normalized stored,
      Properties.get?_dictionary (fit.normalized.accessors mode) mode, fit.accessor?_normalized]
    rfl

/-- What a deletion does to the object that a reference stands for. -/
theorem Obeys.delete_updates (name : Name) :
    ((h.delete id name).1 = false ↔
      ∃ v a, h.ownProperty? id name = some ⟨.data v, a⟩ ∧ a.dontDelete) ∧
    h.Updates (h.delete id name).2 id name
      (if (h.delete id name).1 then (h.shapeOf o).accessor? name else h.ownProperty? id name) := by
  obtain ⟨o', ho', mode, accessor, own⟩ := ob.normalize_spec hr ho fit name
  have moved := normalize_updates ob hr ho fit name
  by_cases absent : h.ownReal id name = .notFound
  · have result : h.delete id name = (true, h) := by simp only [delete, hr, absent]
    have nothing : h.ownProperty? id name = none := ownProperty?_eq_none.mpr absent
    rw [nothing] at own
    have bare := (Option.or_eq_none_iff.mp own.symm).2
    simp only [result, nothing, if_true, bare]
    refine ⟨by simp, .refl h id name fun j hj => ?_⟩
    rw [← nothing, ownProperty?, ownProperty?, ← ob.ownReal_resolveProxy j, hj]
  rw [delete_of_found hr absent ho']
  cases entry : o'.dictionary.get? name with
  | none =>
    -- What was found is an accessor: it is in the shape, where a deletion does not look.
    rw [entry] at own
    have this : h.ownProperty? id name = (h.shapeOf o).accessor? name := own
    rw [this] at moved ⊢
    exact ⟨by simp [Shape.accessor?_ne_data], moved⟩
  | some e =>
    rw [entry] at own
    have this : h.ownProperty? id name = some ⟨.data e.value, e.attributes⟩ := own
    dsimp only
    split
    · rename_i keep
      exact ⟨by simp [this, keep], moved⟩
    · rename_i erase
      -- Erasing the entry uncovers what the shape describes under the name.
      refine ⟨by simp [this, erase], ?_⟩
      have erased := eraseEntry_updates (normalize_leads ob id).obeys ho' mode name
      rw [accessor] at erased
      exact moved.trans erased

end Target

end Heap

/-- **A deletion erases a property or refuses.** In every reachable heap, let the object that a reference
stands for fit its shape. A deletion is refused exactly if the name denotes a data property that may not
be deleted, and then the object owns what it did. Otherwise the object owns nothing under the name
afterwards, unless its shape describes accessors under it: these are what it owns then. Nothing else is
different, neither another property of the object nor anything of another object. -/
theorem deletion_erases_or_refuses {rules : Rules} {s : Session} (reachable : s.Reachable rules)
    {j : ObjectId} {o : JsObject}
    (ho : s.engine.heap.object? (s.engine.heap.resolveProxy j) = some o)
    (fit : (s.engine.heap.propertiesOf o).Fit) (name : Name) :
    let h := s.engine.heap
    let target := h.resolveProxy j
    let r := h.delete j name
    (r.1 = false ↔ ∃ v a, h.ownProperty? target name = some ⟨.data v, a⟩ ∧ a.dontDelete) ∧
    h.Updates r.2 target name
      (if r.1 then (h.shapeOf o).accessor? name else h.ownProperty? target name) := by
  intro h target r
  have ob : h.Obeys rules := reachable.sound.engine.heap
  have hr := ob.resolveProxy_resolveProxy j
  have same : h.delete target name = r := by simp only [r, target, Heap.delete, hr]
  rw [← same]
  exact ob.delete_updates hr ho fit name

/-- A field is erased, and a constant that may not be deleted stays. -/
theorem deletion_erases_or_refuses_both :
    let session := (Session.ofConfig {}).run [
      .onHeap .object,
      .onHeap (.addConstant ⟨10⟩ ⟨"k"⟩ (.smi 1) { dontDelete := true }),
      .access (.setProperty (.object ⟨10⟩) ⟨"x"⟩ (.smi 2) false)]
    let h := session.engine.heap
    ((h.delete ⟨10⟩ ⟨"x"⟩).1 = true ∧ h.Updates (h.delete ⟨10⟩ ⟨"x"⟩).2 ⟨10⟩ ⟨"x"⟩ none) ∧
    (h.delete ⟨10⟩ ⟨"k"⟩).1 = false ∧
      h.Updates (h.delete ⟨10⟩ ⟨"k"⟩).2 ⟨10⟩ ⟨"k"⟩ (some ⟨.data (.smi 1), { dontDelete := true }⟩) := by
  intro session h
  let created := (Session.ofConfig {}).perform (.onHeap .object)
  have fresh : ∀ o, created.engine.heap.object? ⟨10⟩ = some o →
      (created.engine.heap.shapeOf o).descriptor? ⟨"k"⟩ = none := by
    intro o ho
    cases ho
    decide +kernel
  have reachable : session.Reachable { freshNames := true } :=
    .run (.initial {}) ⟨trivial, ⟨fun _ o ho _ => fresh o ho, fun r => by cases r⟩, trivial, trivial⟩
  obtain ⟨o, ho⟩ : ∃ o, h.object? (h.resolveProxy ⟨10⟩) = some o := ⟨_, rfl⟩
  have fit := reachable.sound.engine.heap.fit rfl ho
  have erased := (deletion_erases_or_refuses reachable ho fit ⟨"x"⟩).2
  have refused := (deletion_erases_or_refuses reachable ho fit ⟨"k"⟩).2
  have gone : (h.delete ⟨10⟩ ⟨"x"⟩).1 = true := by decide +kernel
  have kept : (h.delete ⟨10⟩ ⟨"k"⟩).1 = false := by decide +kernel
  have bare : (h.shapeOf o).accessor? ⟨"x"⟩ = none := by
    cases ho
    decide +kernel
  have constant : h.ownProperty? (h.resolveProxy ⟨10⟩) ⟨"k"⟩ =
      some ⟨.data (.smi 1), { dontDelete := true }⟩ := by decide +kernel
  rw [if_pos gone, bare] at erased
  rw [if_neg (ne_true_of_eq_false kept), constant] at refused
  exact ⟨⟨gone, erased⟩, kept, refused⟩

/-- The deletion of an accessor is no refusal, but the accessor is still there and called. -/
theorem deleted_accessor_stays :
    let around : Surroundings := { host := .answering (.smi 7) }
    let session := (Session.ofConfig {} around).run [
      .onHeap .object,
      .onHeap (.hostFunction "f" 0 (.provided 0)),
      .onHeap (.addAccessor ⟨10⟩ ⟨"x"⟩ (.object ⟨12⟩) .undefined)]
    let h := session.engine.heap
    let r := h.delete ⟨10⟩ ⟨"x"⟩
    session.Reachable { freshNames := true } ∧ r.1 = true ∧
      r.2.ownProperty? ⟨10⟩ ⟨"x"⟩ = some ⟨.accessor (.object ⟨12⟩) .undefined, { dontEnum := true }⟩ ∧
      (Heap.getProperty (.object ⟨10⟩) ⟨"x"⟩ r.2).1.toOption = some (.smi 7) := by
  intro around session h r
  let given := (Session.ofConfig {} around).run
    [.onHeap .object, .onHeap (.hostFunction "f" 0 (.provided 0))]
  have fresh : ∀ o ∈ given.engine.heap.object? ⟨10⟩,
      (given.engine.heap.shapeOf o).descriptor? ⟨"x"⟩ = none := by decide +kernel
  have reachable : session.Reachable { freshNames := true } :=
    .run (.start {} around (Host.answering_does _ _ _)) ⟨trivial, trivial, fun _ => fresh, trivial⟩
  exact ⟨reachable, by decide +kernel, by decide +kernel, by decide +kernel⟩

end Speculation
