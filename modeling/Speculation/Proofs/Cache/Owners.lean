import Speculation.Proofs.Cache.Session
import Speculation.Proofs.Heap.Owners

/-!
# Objects fit the shapes that stubs lead away from

A stub that adds a field writes it behind the fields of the receiver, under the index that the shape counts.
This is where `addProperty` writes it only if the receiver fits its shape. By the results about owners it
does in every reachable session, since a stub follows a transition (`Session.Reachable.hasOwners`): no
program needs to keep to fresh names for that.

What stubs do has to be followed once more, since they move objects along transitions, too.
-/

namespace Speculation

namespace Heap

variable {rules : Rules} {h : Heap}

/-- An object that a stub moves along a known transition has a place in its new shape, and its owner. -/
theorem accessClosed_keepsOwners (rules : Rules) :
    AccessClosed rules (KeepsOwners rules) fun _ => True where
  toElementClosed := elementClosed_keepsOwners rules
  bare ob e log := by
    refine ⟨ob.leads_of_bare e log, fun ⟨owner, w⟩ => ⟨owner, ?_⟩⟩
    exact w.of_same ob (.of_bare e) (by simpa using congrArg (·.cells) e)
      (by simpa using congrArg (·.initialShapes) e) fun s => (shape_of_bare e s).2
  elementsTransition ob hs widened le := elementsTransition_keepsOwners ob hs widened le
  data l same := l.keepsOwners_data fun o => ⟨(same o).shape, (same o).fields⟩
  newField {h id o name target v} ob ho known count l := by
    refine ⟨l, fun w => ?_⟩
    have fields := w.fields ho known
    obtain ⟨owner, w⟩ := w
    obtain ⟨later, owned⟩ := w.transition known
    refine ⟨owner, w.move fun o' ho' => ?_⟩
    obtain rfl := Option.some.inj (ho.symm.trans ho')
    refine ⟨⟨fun e => (w.object ho).alone (owned.symm.trans e), fun _ => ?_⟩, Nat.le_of_lt later⟩
    simp only [shapeOf, List.length_set, List.length_append, List.length_replicate] at fields count ⊢
    omega
  put {h id o i v target} ob _ ho within widens fits := by
    refine ⟨(accessClosed_leads rules).put ob trivial ho within widens fits, fun ⟨owner, w⟩ => ?_⟩
    have belongs := w.object ho
    refine ⟨owner, w.move fun o' ho' => ?_⟩
    obtain rfl := Option.some.inj (ho.symm.trans ho')
    cases target with
    | none => exact ⟨⟨belongs.alone, belongs.fields⟩, Nat.le_refl _⟩
    | some t =>
      obtain ⟨-, k, known⟩ := widens t rfl
      obtain ⟨later, owned⟩ := w.elementsTransition known
      obtain ⟨-, layout, -⟩ := (ob.shape (ob.object ho).shape_lt).elementsTransitions known
      have count : (h.shape t).fieldCount = (h.shapeOf o).fieldCount :=
        Shape.fieldCount_of_derive (t := (h.shapeOf o).withElements k) layout
      exact ⟨⟨fun e => belongs.alone (owned.symm.trans e),
        fun e => (belongs.fields (owned.symm.trans e)).trans count.symm⟩, Nat.le_of_lt later⟩

end Heap

/-! ### Sessions -/

namespace Session

variable {rules : Rules} {s : Session}

theorem Sound.perform_keepsOwners (ss : s.Sound rules) (op : Operation)
    (allowed : s.Allowed rules op) :
    Heap.KeepsOwners rules s.engine.heap (s.perform op).engine.heap := by
  refine ss.perform_rel (Heap.accessClosed_keepsOwners rules) op (fun o e => ?_)
    fun _ o _ => o.stores_anything
  subst e
  exact Heap.operation_keepsOwners ss.engine.heap o allowed

/-- **Objects fit the shapes that transitions start from**, in every reachable session. -/
theorem Reachable.hasOwners (r : s.Reachable rules) : s.engine.heap.HasOwners := by
  induction r with
  | start config around lawful => exact Heap.hasOwners_initial around.host
  | step r op allowed ih => exact (r.sound.perform_keepsOwners op allowed).owners ih

end Session

end Speculation
