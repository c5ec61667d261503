import Speculation.Engine.Execution
import Speculation.Proofs.Action

/-!
# Bailouts fail for good

Recipes, frames and code objects that contradict each other leave nothing to recover to: whatever
goes wrong in a bailout once its frame has been found is a terminal fault. `Fatal` is that property
of a computation; it passes through sequences, so there is one line for each step of the walk.
-/

namespace Speculation

/-- A computation whose faults are all terminal. -/
structure Fatal {σ α : Type} (m : ExceptT Fault (StateM σ) α) : Prop where
  terminal : ∀ {s t f}, m s = (.error f, t) → f.isTerminal = true

/-- A step without a state whose faults are all terminal. -/
structure Except.Fatal {α : Type} (x : Except Fault α) : Prop where
  terminal : ∀ {f}, x = .error f → f.isTerminal = true

namespace Fatal

variable {σ α β : Type}

theorem pure (x : α) : Fatal (pure x : ExceptT Fault (StateM σ) α) := ⟨by
  intro s t f h
  cases h⟩

theorem throw {f : Fault} (terminal : f.isTerminal = true) :
    Fatal (throw f : ExceptT Fault (StateM σ) α) := ⟨by
  intro s t g h
  cases h
  exact terminal⟩

theorem get : Fatal (get : ExceptT Fault (StateM σ) σ) := ⟨by
  intro s t f h
  cases h⟩

theorem modify (f : σ → σ) : Fatal (modify f : ExceptT Fault (StateM σ) PUnit) := ⟨by
  intro s t f h
  cases h⟩

theorem set (s : σ) : Fatal (set s : ExceptT Fault (StateM σ) PUnit) := ⟨by
  intro s t f h
  cases h⟩

theorem lift {x : Except Fault α} (fatal : Except.Fatal x) :
    Fatal (liftM x : ExceptT Fault (StateM σ) α) := ⟨by
  intro s t f h
  exact fatal.terminal (congrArg Prod.fst h)⟩

theorem bind {m : ExceptT Fault (StateM σ) α} {f : α → ExceptT Fault (StateM σ) β} (hm : Fatal m)
    (hf : ∀ x, Fatal (f x)) : Fatal (m >>= f) := ⟨by
  intro s t g h
  rcases first : m s with ⟨e | x, u⟩
  · rw [Computation.bind_error first] at h
    cases h
    exact hm.terminal first
  · rw [Computation.bind_ok first] at h
    exact (hf x).terminal h⟩

end Fatal

namespace Except.Fatal

variable {α β : Type}

theorem ok (x : α) : Fatal (.ok x) := ⟨by
  intro f h
  cases h⟩

theorem error {f : Fault} (terminal : f.isTerminal = true) : Fatal (.error f : Except Fault α) := ⟨by
  intro g h
  cases h
  exact terminal⟩

theorem bind {x : Except Fault α} {f : α → Except Fault β} (hx : Fatal x) (hf : ∀ v, Fatal (f v)) :
    Fatal (x >>= f) := by
  cases x with
  | error g => exact .error (hx.terminal rfl)
  | ok v => exact hf v

end Except.Fatal

/-! ### Reading recipes -/

namespace Cursor

theorem violate_fatal {α : Type} (v : Violation) : Fatal (violate v : Reader α) := .throw rfl

theorem next_fatal : Fatal next := by
  refine .bind .get fun c => .bind (.set _) fun _ => ?_
  split
  · exact .pure _
  · exact violate_fatal _

theorem nextOpcode_fatal : Fatal nextOpcode := by
  refine .bind next_fatal fun i => ?_
  split
  · exact .pure _
  · exact violate_fatal _

theorem nextInts_fatal (n : Nat) : Fatal (nextInts n) := by
  induction n with
  | zero => exact .pure _
  | succ n ih => exact .bind next_fatal fun _ => .bind ih fun _ => .pure _

theorem skip_fatal (n : Nat) : Fatal (skip n) := .bind (nextInts_fatal n) fun _ => .pure _

theorem operandsOf_fatal (o : Opcode) : Fatal (operandsOf o) := by
  refine .bind (nextInts_fatal _) fun is => ?_
  split
  · exact .pure _
  · exact violate_fatal _

theorem nextCommand_fatal : Fatal nextCommand := .bind nextOpcode_fatal operandsOf_fatal

end Cursor

theorem Replacement.expectedHeight_fatal (node : NodeId) : Fatal (expectedHeight node) := by
  refine .bind Cursor.nextCommand_fatal fun c => ?_
  split
  · refine .bind Cursor.nextCommand_fatal fun c => ?_
    split
    · split
      · exact .pure _
      · exact Cursor.violate_fatal _
    · exact Cursor.violate_fatal _
  · exact Cursor.violate_fatal _

/-! ### Frames and code objects -/

theorem BailoutData.literal_fatal (d : BailoutData) (i : Nat) : Except.Fatal (d.literal i) := by
  unfold literal
  split
  · exact .ok _
  · exact .error rfl

theorem BailoutData.entry_fatal (d : BailoutData) (i : Nat) : Except.Fatal (d.entry i) := by
  unfold BailoutData.entry
  split
  · exact .ok _
  · exact .error rfl

theorem Code.bailoutData_fatal (c : Code) : Except.Fatal c.bailoutData := by
  unfold bailoutData
  split
  · exact .ok _
  · exact .error rfl

namespace Frame

theorem slot_fatal (f : Frame) (o : Nat) : Except.Fatal (f.slot o) := by
  unfold slot
  split
  · exact .ok _
  · exact .error rfl

theorem setSlot_fatal (f : Frame) (o : Nat) (w : Word) : Except.Fatal (f.setSlot o w) := by
  unfold setSlot
  split
  · exact .ok _
  · exact .error rfl

theorem make_fatal (size : Nat) (type : FrameType) (function : Option Value) (area : Nat) :
    Except.Fatal (make size type function area) := by
  unfold make
  split
  · exact .ok _
  · exact .error rfl

theorem offsetOfIndex_fatal (f : Frame) (i : Int) : Except.Fatal (f.offsetOfIndex i) := by
  unfold offsetOfIndex
  dsimp only
  split
  · exact .ok _
  · exact .error rfl

end Frame

theorem RegisterFile.word_fatal (r : RegisterFile) (i : Nat) : Except.Fatal (r.word i) := by
  unfold word
  split
  · exact .ok _
  · exact .error rfl

theorem RegisterFile.setWord_fatal (r : RegisterFile) (i : Nat) (w : Word) :
    Except.Fatal (r.setWord i w) := by
  unfold setWord
  split
  · exact .ok _
  · exact .error rfl

theorem RegisterFile.setDouble_fatal (r : RegisterFile) (i : Nat) (d : Double) :
    Except.Fatal (r.setDouble i d) := by
  unfold setDouble
  split
  · exact .ok _
  · exact .error rfl

theorem RegisterFile.double_fatal (r : RegisterFile) (i : Nat) : Except.Fatal (r.double i) := by
  unfold double
  split
  · exact .ok _
  · exact .error rfl

theorem Replacement.store_fatal (f : Frame) (c : Command) (w : Word) : Except.Fatal (store f c w) := by
  unfold store
  cases c with
  | register r | int32Register r | uint32Register r =>
    exact .bind (f.registers.setWord_fatal ..) fun _ => .ok _
  | doubleRegister r =>
    dsimp only
    split
    · exact .bind (f.registers.setDouble_fatal ..) fun _ => .ok _
    · exact .ok _
  | stackSlot i | int32StackSlot i | uint32StackSlot i | doubleStackSlot i =>
    exact .bind (f.offsetOfIndex_fatal _) fun o => f.setSlot_fatal o w
  | _ => exact .ok _

/-! ### Values -/

namespace Command

variable (c : Command) (input : Frame)

theorem tagged_fatal (w : Word) : Except.Fatal (c.tagged w) := by
  cases w with
  | tagged v => exact .ok v
  | _ => exact .error rfl

theorem integer_fatal (w : Word) : Except.Fatal (c.integer w) := by
  cases w with
  | int i => exact .ok i
  | _ => exact .error rfl

theorem double_fatal (w : Word) : Except.Fatal (c.double w) := by
  cases w with
  | double d => exact .ok d
  | _ => exact .error rfl

theorem slotWord_fatal (i : Int) : Except.Fatal (slotWord input i) :=
  .bind (input.offsetOfIndex_fatal i) input.slot_fatal

theorem taggedSlots_fatal (n : Nat) (i : Int) : Except.Fatal (c.taggedSlots input n i) := by
  induction n generalizing i with
  | zero => exact .ok _
  | succ n ih =>
    exact .bind (slotWord_fatal ..) fun w => .bind (c.tagged_fatal w) fun _ => .bind (ih _) fun _ => .ok _

theorem recover_fatal (data : BailoutData) (frame : Nat) :
    Except.Fatal (c.recover data input frame) := by
  unfold recover
  cases c with
  | register r =>
    exact .bind (RegisterFile.word_fatal ..) fun w => .bind (tagged_fatal _ w) fun _ => .ok _
  | int32Register r | uint32Register r =>
    exact .bind (RegisterFile.word_fatal ..) fun w => .bind (integer_fatal _ w) fun _ => .ok _
  | doubleRegister r => exact .bind (RegisterFile.double_fatal ..) fun _ => .ok _
  | stackSlot i => exact .bind (slotWord_fatal ..) fun w => .bind (tagged_fatal _ w) fun _ => .ok _
  | int32StackSlot i | uint32StackSlot i =>
    exact .bind (slotWord_fatal ..) fun w => .bind (integer_fatal _ w) fun _ => .ok _
  | doubleStackSlot i => exact .bind (slotWord_fatal ..) fun w => .bind (double_fatal _ w) fun _ => .ok _
  | literal i => exact .bind (data.literal_fatal _) fun _ => .ok _
  | argumentsObject known i n =>
    refine .bind ?_ fun _ => .ok _
    cases known with
    | true => exact taggedSlots_fatal ..
    | false => exact .ok _
  | _ => exact .error rfl

end Command

/-! ### The walk -/

namespace Assembly

theorem violate_fatal {α : Type} (v : Violation) : Fatal (violate v : Step α) := .throw rfl

theorem say_fatal (s : Scene) (text : String) : Fatal (say s text) := by
  unfold say
  split
  · exact .modify _
  · exact .pure _

theorem read_fatal {α : Type} {r : Cursor.Reader α} (fatal : Fatal r) : Fatal (read r) := ⟨by
  intro a b f h
  rcases hr : r a.cursor with ⟨x, cursor⟩
  simp only [read, hr] at h
  cases h
  exact fatal.terminal hr⟩

theorem index_fatal : Fatal index := .bind .get fun _ => .pure _

theorem put_fatal (o : Nat) (w : Word) : Fatal (put o w) :=
  .bind .get fun _ => .bind (.lift (Frame.setSlot_fatal ..)) fun _ => .modify _

theorem putFixed_fatal (slot : FixedSlot) (w : Word) : Fatal (putFixed slot w) :=
  .bind .get fun _ => put_fatal ..

theorem adjust_fatal (f : Frame → Frame) : Fatal (adjust f) := .modify _

theorem putContext_fatal (w : Word) : Fatal (putContext w) := by
  refine .bind (putFixed_fatal ..) fun _ => ?_
  split
  · exact adjust_fatal _
  · exact .pure _

variable (s : Scene)

theorem ceiling_fatal : Fatal (ceiling s) := by
  refine .bind (.bind .get fun _ => .pure _) fun p => ?_
  split
  · exact .pure _
  · exact .pure _

theorem callerWords_fatal : Fatal (callerWords s) := by
  refine .bind (.bind .get fun _ => .pure _) fun p => ?_
  split
  · exact .bind (.lift (Frame.slot_fatal ..)) fun _ => .bind (.lift (Frame.slot_fatal ..)) fun _ => .pure _
  · exact .pure _

theorem callerContext_fatal : Fatal (callerContext s) := by
  refine .bind (.bind .get fun _ => .pure _) fun p => ?_
  split
  · exact .lift (Frame.slot_fatal ..)
  · exact .pure _

theorem openFrame_fatal (f : Frame) : Fatal (openFrame s f) := by
  refine .bind (ceiling_fatal s) fun top => ?_
  split
  · exact .bind (callerWords_fatal s) fun _ => .bind (.modify _) fun _ =>
      .bind (putFixed_fatal ..) fun _ => putFixed_fatal ..
  · exact .throw rfl

theorem closeFrame_fatal (count : Nat) (notify : CodeId) : Fatal (closeFrame s count notify) := by
  refine .bind index_fatal fun i => ?_
  split
  · exact .bind (adjust_fatal _) fun _ => .modify _
  · exact .modify _

theorem place_fatal (o : Nat) (v : Recovered) (source : String) : Fatal (place s o v source) := by
  refine .bind index_fatal fun i => .bind .get fun a => .bind (say_fatal ..) fun _ => ?_
  refine .bind (put_fatal ..) fun _ => ?_
  split
  · exact .pure _
  · exact .modify _
  · exact .modify _

theorem passMarks_fatal (n : Nat) (o : Opcode) : Fatal (passMarks n o) := by
  induction n generalizing o with
  | zero => exact .pure _
  | succ n ih =>
    unfold passMarks
    split
    · exact .bind Cursor.nextOpcode_fatal fun p => ih p
    · exact .pure _

theorem passDuplicate_fatal (frame : Nat) : Fatal (passDuplicate frame) := by
  refine .bind .get fun c => .bind (passMarks_fatal ..) fun o => ?_
  split
  · exact Cursor.violate_fatal _
  · exact Cursor.skip_fatal _

theorem rebuildWord_fatal (o : Nat) : Fatal (rebuildWord s o) := by
  refine .bind index_fatal fun i => .bind (read_fatal Cursor.nextOpcode_fatal) fun op => ?_
  split
  · refine .bind (read_fatal (passDuplicate_fatal _)) fun _ => .bind .get fun a => ?_
    split
    · exact violate_fatal _
    · exact place_fatal ..
  · exact .bind (read_fatal (Cursor.operandsOf_fatal _)) fun c =>
      .bind (.lift (Command.recover_fatal ..)) fun v => .bind (place_fatal ..) fun _ => .modify _

theorem rebuildWords_fatal (n o : Nat) : Fatal (rebuildWords s n o) := by
  induction n generalizing o with
  | zero => exact .pure _
  | succ n ih => exact .bind (rebuildWord_fatal ..) fun _ => ih _

/-! ### Frames -/

variable (count : Nat)

theorem jsFrame_fatal (node : NodeId) (literal height : Nat) :
    Fatal (jsFrame s count node literal height) := by
  refine .bind (.lift (s.data.literal_fatal _)) fun function => ?_
  split
  · exact violate_fatal _
  refine .bind index_fatal fun i => .bind (say_fatal ..) fun _ => .bind (openFrame_fatal ..) fun _ => ?_
  refine .bind (rebuildWords_fatal ..) fun _ => ?_
  rw [Computation.ite_bind_bind]
  refine .bind ?_ fun context => .bind (putContext_fatal _) fun _ => .bind (putFixed_fatal ..) fun _ => ?_
  · split
    · exact callerContext_fatal s
    · exact .pure _
  refine .bind (rebuildWords_fatal ..) fun _ => ?_
  split
  · exact violate_fatal _
  dsimp only
  split
  · exact violate_fatal _
  · exact .bind (adjust_fatal _) fun _ => .bind (closeFrame_fatal ..) fun _ => .modify _

theorem adaptorFrame_fatal (literal height : Nat) : Fatal (adaptorFrame s count literal height) := by
  refine .bind (.lift (s.data.literal_fatal _)) fun function => ?_
  split
  · exact violate_fatal _
  refine .bind (say_fatal ..) fun _ => .bind (.lift (Frame.make_fatal ..)) fun f => ?_
  refine .bind (openFrame_fatal ..) fun _ => .bind (rebuildWords_fatal ..) fun _ => ?_
  refine .bind (putFixed_fatal ..) fun _ => .bind (putFixed_fatal ..) fun _ => ?_
  exact .bind (put_fatal ..) fun _ => .bind (adjust_fatal _) fun _ => closeFrame_fatal ..

theorem constructFrame_fatal (literal height : Nat) :
    Fatal (constructFrame s count literal height) := by
  refine .bind (.lift (s.data.literal_fatal _)) fun function => ?_
  split
  · exact violate_fatal _
  refine .bind (say_fatal ..) fun _ => .bind (.lift (Frame.make_fatal ..)) fun f => ?_
  refine .bind (openFrame_fatal ..) fun _ => .bind (rebuildWords_fatal ..) fun _ => ?_
  refine .bind (callerContext_fatal s) fun _ => .bind (putContext_fatal _) fun _ => ?_
  refine .bind (putFixed_fatal ..) fun _ => .bind (put_fatal ..) fun _ => .bind .get fun a => ?_
  refine .bind (.lift (Frame.slot_fatal ..)) fun w => .bind (put_fatal ..) fun _ => ?_
  exact .bind (adjust_fatal _) fun _ => closeFrame_fatal ..

theorem accessorFrame_fatal (literal : Nat) (setter : Bool) :
    Fatal (accessorFrame s count literal setter) := by
  refine .bind (.lift (s.data.literal_fatal _)) fun function => ?_
  refine .bind (say_fatal ..) fun _ => .bind (.lift (Frame.make_fatal ..)) fun f => ?_
  refine .bind (openFrame_fatal ..) fun _ => .bind (callerContext_fatal s) fun _ => ?_
  refine .bind (putContext_fatal _) fun _ => .bind (putFixed_fatal ..) fun _ => ?_
  refine .bind (put_fatal ..) fun _ => .bind (read_fatal Cursor.nextOpcode_fatal) fun o => ?_
  refine .bind (read_fatal (Cursor.skip_fatal _)) fun _ => ?_
  split
  · exact .bind (rebuildWord_fatal ..) fun _ => .bind (adjust_fatal _) fun _ => closeFrame_fatal ..
  · exact .bind (adjust_fatal _) fun _ => closeFrame_fatal ..

theorem stubFrame_fatal : Fatal (stubFrame s count) := by
  refine .bind index_fatal fun i => ?_
  split
  · refine .bind (say_fatal ..) fun _ => .bind (.lift (Frame.make_fatal ..)) fun f => ?_
    refine .bind (openFrame_fatal ..) fun _ => .bind (callerContext_fatal s) fun _ => ?_
    refine .bind (putContext_fatal _) fun _ => .bind (putFixed_fatal ..) fun _ => ?_
    exact .bind (rebuildWords_fatal ..) fun _ => .bind (adjust_fatal _) fun _ => closeFrame_fatal ..
  · exact violate_fatal _

theorem nextFrame_fatal : Fatal (nextFrame s count) := by
  refine .bind (read_fatal Cursor.nextCommand_fatal) fun c => ?_
  cases c with
  | jsFrame node literal height => exact jsFrame_fatal ..
  | argumentsAdaptorFrame literal height => exact adaptorFrame_fatal ..
  | constructStubFrame literal height => exact constructFrame_fatal ..
  | getterStubFrame literal | setterStubFrame literal => exact accessorFrame_fatal ..
  | compiledStubFrame => exact stubFrame_fatal ..
  | _ => exact .bind index_fatal fun _ => violate_fatal _

theorem nextFrames_fatal (n : Nat) : Fatal (nextFrames s count n) := by
  induction n with
  | zero => exact .pure _
  | succ n ih => exact .bind (nextFrame_fatal ..) fun _ => ih

/-- **A walk fails for good.** -/
theorem run_fatal : Fatal (run s) := by
  refine .bind (read_fatal Cursor.nextCommand_fatal) fun c => ?_
  cases c with
  | begin count _ => exact .bind (nextFrames_fatal ..) fun _ => .pure _
  | _ => exact violate_fatal _

end Assembly

/-! ### Whole bailouts -/

namespace Bailout

theorem say_fatal (b : Bailout) (channel : Channel) (text : String) : Fatal (b.say channel text) := by
  unfold say
  split
  · exact .modify _
  · exact .pure _

theorem rebuildFrames_fatal (b : Bailout) : Fatal b.rebuildFrames := by
  refine .bind .get fun e => .bind (.lift (Code.bailoutData_fatal _)) fun data => ?_
  refine .bind (.lift (data.entry_fatal _)) fun entry => .bind (b.say_fatal ..) fun _ => ?_
  refine .bind (.modify _) fun _ => .bind (.lift ?_) fun count => ?_
  · exact ⟨fun h => (Assembly.run_fatal _).terminal (Prod.ext h rfl)⟩
  split
  · exact .pure _
  · exact .bind (b.say_fatal ..) fun _ => .pure _

end Bailout

/-! ### Allocating what had to wait -/

namespace Heap

theorem allocate_fatal (c : Cell) : Fatal (allocate c) := by
  refine .bind .get fun h => ?_
  split
  · exact .bind (.set _) fun _ => .pure _
  · exact .throw rfl

theorem newNumber_fatal (d : Double) : Fatal (newNumber d) := by
  unfold newNumber
  split
  · exact .pure _
  · exact .bind (allocate_fatal _) fun _ => .pure _

theorem newArguments_fatal (callee : Value) (values : List Value) (strict : Bool) :
    Fatal (newArguments callee values strict) :=
  .bind (.bind .get fun _ => allocate_fatal _) fun _ => .bind (.modify _) fun _ => .pure _

end Heap

theorem Engine.onHeap_fatal {α : Type} {a : Heap.Action α} (fatal : Fatal a) : Fatal (onHeap a) := ⟨by
  intro e e' f h
  rcases ran : a e.heap with ⟨x, heap⟩
  simp only [onHeap, ran] at h
  cases h
  exact fatal.terminal ran⟩

theorem Word.rebuilt_fatal (w : Word) : Except.Fatal w.rebuilt := by
  unfold rebuilt
  split
  · exact .ok _
  · exact .error rfl

theorem Frame.parametersFrom_fatal (f : Frame) (n i : Nat) : Except.Fatal (f.parametersFrom n i) := by
  induction n generalizing i with
  | zero => exact .ok _
  | succ n ih =>
    refine .bind ?_ fun w => .bind w.rebuilt_fatal fun v => .bind (ih _) fun vs => .ok _
    unfold parameter
    split
    · exact f.slot_fatal _
    · exact .error rfl

namespace Bailout

theorem fillNumbers_fatal (b : Bailout) (ds : List DeferredNumber) : Fatal (b.fillNumbers ds) := by
  induction ds generalizing b with
  | nil => exact .pure _
  | cons d ds ih =>
    refine .bind ?_ fun c => ih c
    exact .bind (Engine.onHeap_fatal (Heap.newNumber_fatal _)) fun v =>
      .bind (b.say_fatal ..) fun _ => .pure _

theorem newArgumentsFor_fatal (b : Bailout) (d : DeferredArguments) : Fatal (b.newArgumentsFor d) := by
  have rest (values : List Value) (text : String) : Fatal (do
      let id ← Engine.onHeap
        (Heap.newArguments ((b.frame d.frame).function.getD .undefined) values false)
      b.say .bailout text
      return Value.object id) :=
    .bind (Engine.onHeap_fatal (Heap.newArguments_fatal ..)) fun _ =>
      .bind (b.say_fatal ..) fun _ => .pure _
  unfold newArgumentsFor
  cases b.adaptorBefore? d.frame with
  | some a => exact .bind (.lift (a.parametersFrom_fatal ..)) fun values => rest values _
  | none => exact rest d.values _

theorem fillArguments_fatal (b : Bailout) (made : Table Nat Value) (ds : List DeferredArguments) :
    Fatal (b.fillArguments made ds) := by
  induction ds generalizing b made with
  | nil => exact .pure _
  | cons d ds ih =>
    rw [fillArguments]
    cases made.get? d.frame with
    | some v => exact ih ..
    | none => exact .bind (b.newArgumentsFor_fatal d) fun v => ih ..

theorem materialize_fatal (b : Bailout) : Fatal b.materialize := by
  unfold materialize
  split
  · exact .throw rfl
  · exact .bind (b.fillNumbers_fatal _) fun c => c.fillArguments_fatal ..

end Bailout

end Speculation
