import Speculation.Proofs.Bailout.Reasons
import Speculation.Proofs.Bailout.Stack

/-!
# What the debugger's view holds

A view starts with the words of the rebuilt frames, placeholders included, and then gets the numbers
that belong to it, which are found by their addresses. `fillViews_ok` says where numbers end up if
their addresses differ: each at the one place of the view that its address belongs to
(`SlotRange.place?`), and nowhere else. The heap grows by these numbers only (`Heap.AddsNumbers`).
-/

namespace Speculation

/-! ### New numbers -/

namespace Heap

variable {g h k : Heap} {d : Double} {v : Value} {vs : List Value}

/-- The only new cells are numbers, all among the values `vs`. -/
structure AddsNumbers (g h : Heap) (vs : List Value) : Prop where
  rest : h = { g with cells := h.cells }
  old : ∀ id : ObjectId, id.index < g.cells.size → h.cell? id = g.cell? id
  new : ∀ id : ObjectId, g.cells.size ≤ id.index → id.index < h.cells.size →
    .object id ∈ vs ∧ ∃ d, h.cell? id = some (.number d)
  grows : g.cells.size ≤ h.cells.size

namespace AddsNumbers

theorem refl (h : Heap) (vs : List Value) : h.AddsNumbers h vs :=
  ⟨rfl, fun _ _ => rfl, fun _ _ _ => by omega, Nat.le_refl _⟩

theorem trans (a : g.AddsNumbers h [v]) (b : h.AddsNumbers k vs) (here : v ∈ vs) :
    g.AddsNumbers k vs where
  rest := by rw [b.rest, a.rest]
  old id inside := (b.old id (Nat.lt_of_lt_of_le inside a.grows)).trans (a.old id inside)
  new id outside inside := by
    by_cases first : id.index < h.cells.size
    · obtain ⟨shown, d, number⟩ := a.new id outside first
      rw [List.mem_singleton.mp shown]
      exact ⟨here, d, (b.old id first).trans number⟩
    · exact b.new id (Nat.le_of_not_lt first) inside
  grows := Nat.le_trans a.grows b.grows

end AddsNumbers

/-- A new number is the only cell that is added. -/
theorem newNumber_adds (ok : newNumber d g = (.ok v, h)) : g.AddsNumbers h [v] := by
  unfold newNumber at ok
  cases hs : smiOfNumber? d with
  | some w =>
    rw [hs] at ok
    cases ok
    exact .refl ..
  | none =>
    rw [hs] at ok
    obtain ⟨id, _, allocated, ok⟩ := Computation.bind_eq_ok ok
    cases ok
    obtain ⟨-, rfl, rfl⟩ := allocate_ok allocated
    refine ⟨rfl, fun id inside => ?_, fun id outside inside => ?_, by simp⟩
    · exact (Array.getElem?_push_lt inside).trans (Array.getElem?_eq_getElem inside).symm
    · have last : id.index = g.cells.size := by
        rw [Array.size_push] at inside
        omega
      obtain rfl : id = ⟨g.cells.size⟩ := by rw [← last]
      exact ⟨.head _, d, by simp [cell?]⟩

end Heap

/-! ### Places of the view -/

namespace SlotRange

/-- An address has an index if it is in the range, counted from above. -/
theorem index?_eq_some {r : SlotRange} {address i : Nat} :
    r.index? address = some i ↔ i < r.size ∧ address = r.top + (r.size - 1 - i) := by
  unfold index?
  split
  · rw [Option.some.injEq]
    omega
  · simp only [reduceCtorEq, false_iff]
    omega

/-- The place that an address has in a view with these ranges, parameters first. The receiver is in the
first range but has no place. -/
def place? (parameters expressions : SlotRange) (address : Nat) : Option Nat :=
  match parameters.index? address with
  | some 0 => none
  | some (i + 1) => some i
  | none => (expressions.index? address).map fun i => parameters.size - 1 + i

variable {parameters expressions : SlotRange} {address t : Nat}

/-- An address is that of a parameter, without the receiver, or that of an expression. -/
theorem place?_eq_some : place? parameters expressions address = some t ↔
    (t + 1 < parameters.size ∧ address = parameters.top + (parameters.size - 2 - t)) ∨
      (parameters.index? address = none ∧ parameters.size - 1 ≤ t ∧
        expressions.index? address = some (t - (parameters.size - 1))) := by
  unfold place?
  cases inside : parameters.index? address with
  | some i =>
    rw [index?_eq_some] at inside
    cases i with
    | zero =>
      simp only [reduceCtorEq, false_and, or_false, false_iff]
      omega
    | succ i =>
      simp only [Option.some.injEq, reduceCtorEq, false_and, or_false]
      omega
  | none =>
    -- Outside the parameters' range the first case cannot hold.
    have apart : ¬ (t + 1 < parameters.size ∧ address = parameters.top + (parameters.size - 2 - t)) := by
      rintro ⟨less, rfl⟩
      have found : parameters.index? (parameters.top + (parameters.size - 2 - t)) = some (t + 1) :=
        index?_eq_some.mpr ⟨less, by omega⟩
      rw [inside] at found
      cases found
    simp only [apart, true_and, false_or, Option.map_eq_some_iff]
    constructor
    · rintro ⟨i, found, rfl⟩
      exact ⟨by omega, by rwa [Nat.add_sub_cancel_left]⟩
    · rintro ⟨less, found⟩
      exact ⟨_, found, by omega⟩

/-- Different addresses have different places. -/
theorem place?_inj {address' : Nat} (h : place? parameters expressions address = some t)
    (h' : place? parameters expressions address' = some t) : address = address' := by
  rw [place?_eq_some] at h h'
  rcases h with ⟨less, rfl⟩ | ⟨-, more, found⟩
  · rcases h' with ⟨-, rfl⟩ | ⟨-, more, -⟩
    · rfl
    · omega
  · rcases h' with ⟨less, -⟩ | ⟨-, -, found'⟩
    · omega
    · rw [index?_eq_some] at found found'
      rw [found.2, found'.2]

end SlotRange

/-- What a view shows, parameters first. -/
def FrameView.shown (v : FrameView) : List Value := v.parameters ++ v.expressions

/-- Only what is shown has changed. -/
structure FrameView.SameFrame (v w : FrameView) : Prop where
  frame : w = { v with parameters := w.parameters, expressions := w.expressions }
  parameters : w.parameters.length = v.parameters.length
  expressions : w.expressions.length = v.expressions.length

theorem FrameView.SameFrame.trans {u v w : FrameView} (a : u.SameFrame v) (b : v.SameFrame w) :
    u.SameFrame w where
  frame := by rw [b.frame, a.frame]
  parameters := b.parameters.trans a.parameters
  expressions := b.expressions.trans a.expressions

namespace Bailout

variable {b : Bailout} {parameters expressions : SlotRange} {v w : FrameView} {d : DeferredNumber}
  {e e' : Engine}

/-- The address of the word that a number waits for. -/
def addressOf (b : Bailout) (d : DeferredNumber) : Nat := (b.frame d.frame).addressOf d.offset

/-- Showing a number makes it, and nothing else. -/
theorem showNumber_ok {address : Nat} {place : String} {n : Value}
    (h : b.showNumber d address place e = (.ok n, e')) :
    e.Keeps e' ∧ e.heap.AddsNumbers e'.heap [n] ∧ e'.heap.IsNumber d.value n ∧
      e.heap.Retains e'.heap := by
  obtain ⟨m, e₁, boxed, h⟩ := Computation.bind_eq_ok h
  obtain ⟨_, e₂, said, h⟩ := Computation.bind_eq_ok h
  cases h
  rcases new : Heap.newNumber d.value e.heap with ⟨made, heap⟩
  simp only [Engine.onHeap, new] at boxed
  cases boxed
  obtain ⟨number, retains, -⟩ := Heap.newNumber_ok new
  rw [say_ok said]
  exact ⟨rfl, Heap.newNumber_adds new, number, retains⟩

/-- One number goes to its place, if it has one. -/
theorem fillView_ok (h : b.fillView parameters expressions v d e = (.ok w, e'))
    (hp : parameters.size = v.parameters.length + 1) (hx : expressions.size = v.expressions.length) :
    v.SameFrame w ∧ e.Keeps e' ∧
      match SlotRange.place? parameters expressions (b.addressOf d) with
      | none => w = v ∧ e' = e
      | some t => ∃ n, t < v.shown.length ∧ w.shown = v.shown.set t n ∧
          e.heap.AddsNumbers e'.heap [n] ∧ e'.heap.IsNumber d.value n ∧ e.heap.Retains e'.heap := by
  unfold fillView at h
  unfold SlotRange.place?
  change (match parameters.index? (b.addressOf d) with | some 0 => _ | some (i + 1) => _ | none => _ :
    Engine.Action FrameView) e = _ at h
  -- The place lies among the parameters, among the expressions, or outside the view. Slot 0 of
  -- the parameters is the receiver, which the view does not show.
  cases inside : parameters.index? (b.addressOf d) with
  | some i =>
    rw [inside] at h
    cases i with
    | zero =>
      cases h
      exact ⟨⟨rfl, rfl, rfl⟩, rfl, rfl, rfl⟩
    | succ i =>
      obtain ⟨n, e₁, shown, h⟩ := Computation.bind_eq_ok h
      cases h
      obtain ⟨keeps, adds, number, retains⟩ := showNumber_ok shown
      have less := (SlotRange.index?_eq_some.mp inside).1
      refine ⟨⟨rfl, by simp, rfl⟩, keeps, n, ?_, ?_, adds, number, retains⟩
      · simp only [FrameView.shown, List.length_append]
        omega
      · rw [FrameView.shown, FrameView.shown, List.set_append_left _ _ (by omega)]
  | none =>
    rw [inside] at h
    dsimp only at h ⊢
    cases below : expressions.index? (b.addressOf d) with
    | none =>
      rw [show expressions.index? ((b.frame d.frame).addressOf d.offset) = none from below] at h
      cases h
      exact ⟨⟨rfl, rfl, rfl⟩, rfl, rfl, rfl⟩
    | some i =>
      rw [show expressions.index? ((b.frame d.frame).addressOf d.offset) = some i from below] at h
      obtain ⟨n, e₁, shown, h⟩ := Computation.bind_eq_ok h
      cases h
      obtain ⟨keeps, adds, number, retains⟩ := showNumber_ok shown
      have less := (SlotRange.index?_eq_some.mp below).1
      refine ⟨⟨rfl, rfl, by simp⟩, keeps, n, ?_, ?_, adds, number, retains⟩
      · simp only [FrameView.shown, List.length_append]
        omega
      · have there : parameters.size - 1 + i = v.parameters.length + i := by omega
        rw [FrameView.shown, FrameView.shown]
        dsimp only
        rw [there, List.set_append_right _ _ (Nat.le_add_right ..), Nat.add_sub_cancel_left]

/-- Numbers with different addresses all go to their places, and nothing else that is shown
changes. -/
theorem fillViews_ok {ds : List DeferredNumber}
    (h : ds.foldlM (b.fillView parameters expressions) v e = (.ok w, e'))
    (hp : parameters.size = v.parameters.length + 1) (hx : expressions.size = v.expressions.length)
    (apart : ds.Pairwise fun c d => b.addressOf c ≠ b.addressOf d) :
    v.SameFrame w ∧ e.Keeps e' ∧ e.heap.AddsNumbers e'.heap w.shown ∧ e.heap.Retains e'.heap ∧
      (∀ d ∈ ds, ∀ t, SlotRange.place? parameters expressions (b.addressOf d) = some t →
        ∃ n, w.shown[t]? = some n ∧ e'.heap.IsNumber d.value n) ∧
      ∀ t, (∀ d ∈ ds, SlotRange.place? parameters expressions (b.addressOf d) ≠ some t) →
        w.shown[t]? = v.shown[t]? := by
  induction ds generalizing v e with
  | nil =>
    cases h
    exact ⟨⟨rfl, rfl, rfl⟩, rfl, .refl .., .refl _, by simp, fun _ _ => rfl⟩
  | cons d ds ih =>
    rw [List.foldlM_cons] at h
    obtain ⟨u, e₁, first, h⟩ := Computation.bind_eq_ok h
    obtain ⟨same, keeps, placed⟩ := fillView_ok first hp hx
    obtain ⟨away, apart⟩ := List.pairwise_cons.mp apart
    obtain ⟨same', keeps', adds, retains, filled, kept⟩ :=
      ih h (by rw [hp, same.parameters]) (by rw [hx, same.expressions]) apart
    refine ⟨same.trans same', keeps.trans keeps', ?_⟩
    cases here : SlotRange.place? parameters expressions (b.addressOf d) with
    | none =>
      rw [here] at placed
      obtain ⟨rfl, rfl⟩ := placed
      refine ⟨adds, retains, ?_, fun t other => kept t fun c hc => other c (.tail _ hc)⟩
      rintro c (_ | ⟨_, hc⟩) t at'
      · rw [here] at at'
        cases at'
      · exact filled c hc t at'
    | some t =>
      rw [here] at placed
      obtain ⟨n, inside, shown, added, number, retained⟩ := placed
      -- No later number goes to the same place.
      have stays : w.shown[t]? = some n := by
        rw [kept t fun c hc at' => away c hc (SlotRange.place?_inj here at'), shown]
        exact List.getElem?_set_self inside
      refine ⟨added.trans adds (List.mem_of_getElem? stays), retained.trans retains, ?_, ?_⟩
      · rintro c (_ | ⟨_, hc⟩) t' at'
        · rw [here] at at'
          cases at'
          exact ⟨n, stays, retains.isNumber number⟩
        · exact filled c hc t' at'
      · intro t' other
        rw [kept t' fun c hc => other c (.tail _ hc), shown]
        exact List.getElem?_set_ne fun same => other d (.head _) (here.trans (congrArg some same))

theorem showNumber_of_admits (address : Nat) (place : String) (admits : e.heap.AdmitsNumber d.value) :
    ∃ n e', b.showNumber d address place e = (.ok n, e') ∧
      e'.heap.allocationAllowed = e.heap.allocationAllowed := by
  obtain ⟨n, heap, new⟩ := Heap.newNumber_of_admits admits
  have boxed : Engine.onHeap (Heap.newNumber d.value) e = (.ok n, { e with heap }) := by
    simp [Engine.onHeap, new]
  obtain ⟨e', said⟩ := b.say_apply .bailout _ { e with heap }
  refine ⟨n, e', (Computation.bind_ok boxed).trans (Computation.bind_ok said), ?_⟩
  rw [say_ok said]
  exact (Heap.newNumber_ok new).2.1.allocation

theorem fillView_of_admits (v : FrameView) (admits : e.heap.AdmitsNumber d.value) : ∃ w e',
    b.fillView parameters expressions v d e = (.ok w, e') ∧
      e'.heap.allocationAllowed = e.heap.allocationAllowed := by
  unfold fillView
  cases parameters.index? ((b.frame d.frame).addressOf d.offset) with
  | some i =>
    cases i with
    | zero => exact ⟨v, e, rfl, rfl⟩
    | succ i =>
      obtain ⟨n, e', shown, same⟩ := b.showNumber_of_admits _ _ admits
      exact ⟨_, e', Computation.bind_ok shown, same⟩
  | none =>
    cases expressions.index? ((b.frame d.frame).addressOf d.offset) with
    | some i =>
      obtain ⟨n, e', shown, same⟩ := b.showNumber_of_admits _ _ admits
      exact ⟨_, e', Computation.bind_ok shown, same⟩
    | none => exact ⟨v, e, rfl, rfl⟩

theorem fillViews_of_admits {ds : List DeferredNumber} (v : FrameView)
    (admitted : ∀ d ∈ ds, e.heap.AdmitsNumber d.value) :
    ∃ w e', ds.foldlM (b.fillView parameters expressions) v e = (.ok w, e') := by
  induction ds generalizing v e with
  | nil => exact ⟨v, e, rfl⟩
  | cons d ds ih =>
    obtain ⟨u, e₁, first, same⟩ := b.fillView_of_admits v (admitted d (.head _))
    obtain ⟨w, e', rest⟩ := ih u fun c hc => by
      rw [Heap.AdmitsNumber, same]
      exact admitted c (.tail _ hc)
    exact ⟨w, e', by rw [List.foldlM_cons, Computation.bind_ok first, rest]⟩

end Bailout

end Speculation
