import Speculation.Proofs.Bailout.Faults
import Speculation.Proofs.Bailout.Leaving

/-!
# Entering optimized code

A replacement moves the words of an interpreted frame to the places where optimized code expects
them. Whatever is moved, the new frame keeps its outline (`Shapes`), and it ends where the
interpreted frame ended (`run_placed`).
-/

namespace Speculation

namespace Replacement

variable {s : Scene} {α β : Type} {a b : Replacement}

/-! ### The outline of the new frame -/

/-- A step that leaves the outline of the new frame as it is. -/
structure Shapes (m : Step α) : Prop where
  outline : ∀ {a b x}, m a = (.ok x, b) → b.output.outline = a.output.outline

namespace Shapes

theorem pure (x : α) : Shapes (pure x) := ⟨by
  intro a b y h
  cases h
  rfl⟩

theorem throw (f : Fault) : Shapes (throw f : Step α) := ⟨by
  intro a b x h
  cases h⟩

theorem get : Shapes (get : Step Replacement) := ⟨by
  intro a b x h
  cases h
  rfl⟩

theorem lift (x : Except Fault α) : Shapes (liftM x : Step α) := ⟨by
  intro a b y h
  rw [show a = b from congrArg Prod.snd h]⟩

theorem bind {m : Step α} {f : α → Step β} (hm : Shapes m) (hf : ∀ x, Shapes (f x)) :
    Shapes (m >>= f) := ⟨by
  intro a c y h
  obtain ⟨x, b, first, rest⟩ := Computation.bind_eq_ok h
  exact ((hf x).outline rest).trans (hm.outline first)⟩

end Shapes

theorem say_shapes (s : Scene) (text : String) : Shapes (say s text) := by
  unfold say
  split
  · exact ⟨by
      intro a b x h
      cases h
      rfl⟩
  · exact .pure _

theorem read_shapes (r : Cursor.Reader α) : Shapes (read r) := ⟨by
  intro a b x h
  rcases hr : r a.cursor with ⟨y, cursor⟩
  simp only [read, hr] at h
  cases h
  rfl⟩

theorem abandon_shapes (slot : Nat) (why : OsrObstacle) : Shapes (abandon slot why : Step α) := by
  refine .bind ⟨?_⟩ fun _ => .throw _
  intro a b x h
  cases h
  rfl

theorem convert_shapes (s : Scene) (slot : Nat) (c : Command) (v : Value) :
    Shapes (convert s slot c v) := by
  unfold convert
  cases c with
  | register _ | stackSlot _ | literal _ => exact .pure _
  | int32Register _ | int32StackSlot _ =>
    dsimp only
    split
    · exact .pure _
    · exact abandon_shapes ..
  | uint32Register _ | uint32StackSlot _ =>
    dsimp only
    split
    · exact .pure _
    · exact abandon_shapes ..
  | doubleRegister _ | doubleStackSlot _ =>
    dsimp only
    split
    · exact .pure _
    · exact abandon_shapes ..
  | _ => exact .throw _

theorem setSlot_outline {f g : Frame} {o : Nat} {w : Word} (h : f.setSlot o w = .ok g) :
    g.outline = f.outline := by
  unfold Frame.setSlot at h
  split at h
  · cases h
    exact f.outline_write o w
  · cases h

theorem store_outline {f g : Frame} {c : Command} {w : Word} (h : store f c w = .ok g) :
    g.outline = f.outline := by
  unfold store at h
  cases c with
  | register r | int32Register r | uint32Register r =>
    obtain ⟨registers, -, h⟩ := Computation.except_bind_eq_ok h
    cases h
    rfl
  | doubleRegister r =>
    dsimp only at h
    split at h
    · obtain ⟨registers, -, h⟩ := Computation.except_bind_eq_ok h
      cases h
      rfl
    · cases h
      rfl
  | stackSlot i | int32StackSlot i | uint32StackSlot i | doubleStackSlot i =>
    obtain ⟨o, -, h⟩ := Computation.except_bind_eq_ok h
    exact setSlot_outline h
  | _ =>
    cases h
    rfl

theorem moveWord_shapes (s : Scene) (offset : Nat) : Shapes (moveWord s offset) := by
  refine .bind (.lift _) fun w => ?_
  split
  · refine .bind (read_shapes _) fun c => .bind (convert_shapes ..) fun o => ?_
    split
    · exact .pure _
    · refine ⟨?_⟩
      intro a b x h
      rw [Computation.get_bind] at h
      obtain ⟨f, t, stored, h⟩ := Computation.bind_eq_ok h
      rw [Computation.modify_bind] at h
      have same := (say_shapes ..).outline h
      rw [same, show t = a from (congrArg Prod.snd stored).symm]
      exact store_outline (congrArg Prod.fst stored)
  · exact abandon_shapes ..

theorem moveWords_shapes (s : Scene) (n offset : Nat) : Shapes (moveWords s n offset) := by
  induction n generalizing offset with
  | zero => exact .pure _
  | succ n ih => exact .bind (moveWord_shapes ..) fun _ => ih _

theorem copyFixed_shapes (s : Scene) (slot : FixedSlot) : Shapes (copyFixed s slot) := by
  refine .bind .get fun k => .bind (.lift _) fun w => ⟨?_⟩
  intro a b x h
  rw [Computation.get_bind, Computation.get_bind] at h
  obtain ⟨f, t, written, h⟩ := Computation.bind_eq_ok h
  rw [Computation.modify_bind] at h
  have same := (say_shapes ..).outline h
  have outline := setSlot_outline (congrArg Prod.fst written)
  rw [same, ← outline]
  dsimp only
  split
  · rfl
  · rfl

theorem copyFixedPart_shapes (s : Scene) (slots : List FixedSlot) : Shapes (copyFixedPart s slots) := by
  induction slots with
  | nil => exact .pure _
  | cons slot slots ih => exact .bind (copyFixed_shapes ..) fun _ => ih

/-- The new frame ends where the interpreted one ended. -/
theorem run_placed {name : String} {node : NodeId} {entry : BailoutEntry} {height : Nat} {f : Frame}
    (h : run s name node entry height a = (.ok f, b)) :
    f.top + f.size = s.input.top + s.input.size ∧ f.fp = f.linkAddress := by
  rw [run, Computation.get_bind, Computation.get_bind] at h
  obtain ⟨_, a₁, said, h⟩ := Computation.bind_eq_ok h
  obtain ⟨_, a₂, parameters, h⟩ := Computation.bind_eq_ok h
  obtain ⟨_, a₃, fixed, h⟩ := Computation.bind_eq_ok h
  obtain ⟨_, a₄, expressions, h⟩ := Computation.bind_eq_ok h
  have outline : a₄.output.outline = a.output.outline := by
    rw [(moveWords_shapes ..).outline expressions, (copyFixedPart_shapes ..).outline fixed,
      (moveWords_shapes ..).outline parameters, (say_shapes ..).outline said]
  have size : a₄.output.size = a.output.size := congrArg Outline.size outline
  split at h
  · rename_i room
    rw [Computation.get_bind] at h
    obtain ⟨_, a₅, -, h⟩ := Computation.bind_eq_ok h
    obtain ⟨rfl, rfl⟩ := Computation.pure_eq_ok h
    refine ⟨?_, rfl⟩
    change s.input.top + s.input.size - a.output.size + a₄.output.size = _
    rw [size, Nat.sub_add_cancel room]
  · cases h

end Replacement

/-! ### Replacing a frame -/

/-- What is found out before a replacement moves any word. -/
structure Enters (b : Bailout) (e : Engine) (function : Value) (data : BailoutData) (node : NodeId)
    (index : Nat) (entry : BailoutEntry) (height : Nat) (cursor : Cursor) (shared : SharedInfo)
    (output : Frame) : Prop where
  callee : b.function = some function
  known : (e.codeSpace.get b.code).bailouts = some data
  enters : data.osrNode = some node
  found : data.entryForNode? node = some index
  point : data.entries[index]? = some entry
  expects : Replacement.expectedHeight node (.start data.recipes entry.recipe) = (.ok height, cursor)
  info : e.heap.functionShared? function = some shared
  size : shared.formals + 1 + fixedSlots + height = b.input.size
  made : Frame.make (shared.formals + 1 + fixedSlots + (e.codeSpace.get b.code).stackSlots +
    entry.argumentsHeight) .optimized (some function) (shared.formals + 1) = .ok output

namespace Bailout

variable {b b' : Bailout} {e e' : Engine}

/-- The bailout that a new frame of optimized code completes. -/
def entered (b : Bailout) (index : Nat) (frame : Frame) : Bailout :=
  { b with entry := index, frames := [frame], frameCount := 1, jsFrames := 1 }

/-- Once it is known what to enter, a replacement moves words. -/
theorem replaceFrame_of_enters {function : Value} {data : BailoutData} {node : NodeId} {index : Nat}
    {entry : BailoutEntry} {height : Nat} {cursor : Cursor} {shared : SharedInfo} {output : Frame}
    {outcome : Except Fault Frame} {r : Replacement}
    (enters : Enters b e function data node index entry height cursor shared output)
    (ran : Replacement.run (b.scene e data) shared.name node entry height { cursor, output } =
      (outcome, r)) :
    b.replaceFrame e = (outcome.map (b.entered index), e.logAll .replacement r.trace) := by
  have known : (e.codeSpace.get b.code).bailoutData = .ok data := by
    rw [Code.bailoutData, enters.known]
  have point : data.entry index = .ok entry := by
    rw [BailoutData.entry, enters.point]
  rw [replaceFrame, Computation.get_bind]
  simp only [enters.callee, known, Computation.liftM_ok_bind, enters.enters, enters.found, point,
    enters.expects, enters.info, enters.size, ne_eq, not_true, if_false, enters.made]
  have scene : b.scene e data =
      { heap := e.heap, codeSpace := e.codeSpace, reason := b.reason, code := e.codeSpace.get b.code,
        data, input := b.input, traced := b.traced } := rfl
  rw [← scene, ran]
  cases outcome with
  | error f => rfl
  | ok frame =>
    simp only [Except.map, entered, enters.callee]
    rfl

/-- A replacement fails for good, or finds out what to enter. -/
theorem replaceFrame_enters (b : Bailout) (e : Engine) :
    (∃ f k, f.isTerminal = true ∧ b.replaceFrame e = (.error f, k)) ∨
    ∃ function data node index entry height cursor shared output,
      Enters b e function data node index entry height cursor shared output := by
  rcases outcome : b.replaceFrame e with ⟨out, k⟩
  rw [replaceFrame, Computation.get_bind] at outcome
  -- Each step on the way in fails for good or finds one more of the things that `Enters` lists.
  cases callee : b.function with
  | none =>
    rw [callee] at outcome
    cases outcome
    exact .inl ⟨_, _, rfl, rfl⟩
  | some function =>
  simp only [callee] at outcome
  rcases known : (e.codeSpace.get b.code).bailoutData with f | data
  · rw [known] at outcome
    cases outcome
    exact .inl ⟨f, _, (Code.bailoutData_fatal _).terminal known, rfl⟩
  rw [known, Computation.liftM_ok_bind] at outcome
  cases enters : data.osrNode with
  | none =>
    rw [enters] at outcome
    cases outcome
    exact .inl ⟨_, _, rfl, rfl⟩
  | some node =>
  cases found : data.entryForNode? node with
  | none =>
    rw [enters] at outcome
    simp only [found] at outcome
    cases outcome
    exact .inl ⟨_, _, rfl, rfl⟩
  | some index =>
  simp only [enters, found] at outcome
  rcases point : data.entry index with f | entry
  · rw [point] at outcome
    cases outcome
    exact .inl ⟨f, _, (data.entry_fatal _).terminal point, rfl⟩
  rw [point, Computation.liftM_ok_bind] at outcome
  rcases expects : Replacement.expectedHeight node (.start data.recipes entry.recipe) with
    ⟨f | height, cursor⟩
  · rw [expects] at outcome
    cases outcome
    exact .inl ⟨f, _, (Replacement.expectedHeight_fatal _).terminal expects, rfl⟩
  rw [expects] at outcome
  dsimp only at outcome
  rw [Computation.liftM_ok_bind] at outcome
  cases info : e.heap.functionShared? function with
  | none =>
    rw [info] at outcome
    cases outcome
    exact .inl ⟨_, _, rfl, rfl⟩
  | some shared =>
  simp only [info] at outcome
  split at outcome
  · cases outcome
    exact .inl ⟨_, _, rfl, rfl⟩
  rename_i size
  rcases made : Frame.make (shared.formals + 1 + fixedSlots + (e.codeSpace.get b.code).stackSlots +
    entry.argumentsHeight) .optimized (some function) (shared.formals + 1) with f | output
  · rw [made] at outcome
    cases outcome
    exact .inl ⟨f, _, (Frame.make_fatal ..).terminal made, rfl⟩
  exact .inr ⟨function, data, node, index, entry, height, cursor, shared, output,
    { callee, known := Code.bailoutData_ok known, enters, found
      point := BailoutData.entry_ok point, expects, info, size := Decidable.not_not.mp size, made }⟩

/-- A replacement fails for good, or moves words. -/
theorem replaceFrame_cases (b : Bailout) (e : Engine) :
    (∃ f k, f.isTerminal = true ∧ b.replaceFrame e = (.error f, k)) ∨
    ∃ function data node index entry height cursor shared output outcome r,
      Enters b e function data node index entry height cursor shared output ∧
      Replacement.run (b.scene e data) shared.name node entry height { cursor, output } =
        (outcome, r) ∧
      b.replaceFrame e = (outcome.map (b.entered index), e.logAll .replacement r.trace) := by
  refine (replaceFrame_enters b e).imp_right ?_
  rintro ⟨function, data, node, index, entry, height, cursor, shared, output, enters⟩
  rcases ran : Replacement.run (b.scene e data) shared.name node entry height { cursor, output } with
    ⟨outcome, r⟩
  exact ⟨function, data, node, index, entry, height, cursor, shared, output, outcome, r, enters, ran,
    replaceFrame_of_enters enters ran⟩

end Bailout

end Speculation
