import Speculation.Proofs.Bailout.Layout

/-!
# The same walk for another reason

Why a frame is rebuilt decides only where its innermost frame continues: the walk for the debugger
builds the same frames as the walk of a bailout, without continuations (`run_mirrors`). Counting a
bailout changes the heap, but not what the walk reads of functions (`Heap.SameFunctions`).

`Mirrors` relates two steps that do the same up to continuations; it passes through sequences, so the
walk is compared in the order of its statements.
-/

namespace Speculation

/-- A heap in which functions have the same data, names, parameters and code. -/
structure Heap.SameFunctions (h h' : Heap) : Prop where
  data : ∀ v, h'.functionData? v = h.functionData? v
  name : ∀ i, (h'.sharedInfo i).name = (h.sharedInfo i).name
  formals : ∀ i, (h'.sharedInfo i).formals = (h.sharedInfo i).formals
  code : ∀ i, (h'.sharedInfo i).code = (h.sharedInfo i).code

/-- A frame without its continuation. -/
def Frame.unresumed (f : Frame) : Frame := { f with continuation := none }

/-- What the debugger's walk reads in place of a bailout's. -/
def Scene.inspected (s : Scene) (h : Heap) : Scene := { s with heap := h, reason := .debugger }

namespace Assembly

/-- What the walk has built, without continuations. -/
def unresumed (a : Assembly) : Assembly :=
  { a with frames := a.frames.map Frame.unresumed, current := a.current.unresumed }

variable {α β : Type}

/-- The second step does the same as the first one, on frames without continuations. -/
structure Mirrors (m m₀ : Step α) : Prop where
  same : ∀ a : Assembly, m₀ a.unresumed = ((m a).1, (m a).2.unresumed)

namespace Mirrors

theorem pure (x : α) : Mirrors (pure x) (pure x) := ⟨fun _ => rfl⟩

theorem throw (f : Fault) : Mirrors (throw f : Step α) (throw f) := ⟨fun _ => rfl⟩

theorem lift (x : Except Fault α) : Mirrors (liftM x) (liftM x) := ⟨fun _ => rfl⟩

theorem bind {m m₀ : Step α} {f f₀ : α → Step β} (hm : Mirrors m m₀)
    (hf : ∀ x, Mirrors (f x) (f₀ x)) : Mirrors (m >>= f) (m₀ >>= f₀) := ⟨by
  intro a
  have first := hm.same a
  rcases h : m a with ⟨e | x, b⟩
  · rw [h] at first
    rw [Computation.bind_error h, Computation.bind_error first]
  · rw [h] at first
    rw [Computation.bind_ok h, Computation.bind_ok first]
    exact (hf x).same b⟩

theorem get {f f₀ : Assembly → Step β} (hf : ∀ a : Assembly, Mirrors (f a) (f₀ a.unresumed)) :
    Mirrors (get >>= f) (get >>= f₀) := ⟨fun a => (hf a).same a⟩

theorem modify {f f₀ : Assembly → Assembly} (same : ∀ a, f₀ a.unresumed = (f a).unresumed) :
    Mirrors (modify f : Step Unit) (modify f₀) :=
  ⟨fun a => congrArg (Prod.mk _) (same a)⟩

end Mirrors

/-! ### Words -/

theorem read_mirrors (r : Cursor.Reader α) : Mirrors (read r) (read r) := ⟨fun _ => rfl⟩

theorem index_mirrors : Mirrors index index := ⟨fun a => by
  simp only [index, Computation.get_bind, unresumed, List.length_map]
  rfl⟩

/-- A write succeeds inside of the frame. -/
theorem put_apply (o : Nat) (w : Word) (a : Assembly) : put o w a =
    if o < a.current.size then (.ok (), { a with current := a.current.write o w })
    else (.error (.violated (.slotOutOfRange o a.current.size)), a) := by
  simp only [put, Computation.get_bind, Frame.setSlot]
  split
  · rfl
  · rfl

theorem put_mirrors (o : Nat) (w : Word) : Mirrors (put o w) (put o w) := ⟨by
  intro a
  rw [put_apply, put_apply]
  change (if o < a.current.size then _ else _) = _
  split
  · rfl
  · rfl⟩

theorem putFixed_mirrors (slot : FixedSlot) (w : Word) : Mirrors (putFixed slot w) (putFixed slot w) :=
  .get fun _ => put_mirrors ..

theorem adjust_mirrors {f : Frame → Frame} (same : ∀ g : Frame, f g.unresumed = (f g).unresumed) :
    Mirrors (adjust f) (adjust f) := .modify fun a => by
  simp only [unresumed, same]

theorem putContext_mirrors (w : Word) : Mirrors (putContext w) (putContext w) := by
  refine .bind (putFixed_mirrors ..) fun _ => ?_
  split
  · exact adjust_mirrors fun _ => rfl
  · exact .pure _

/-! ### Opening and closing frames -/

variable {s : Scene} {h : Heap}

theorem say_mirrors (text : String) : Mirrors (say s text) (say (s.inspected h) text) := by
  unfold say
  change Mirrors _ (if s.traced then _ else _)
  split
  · exact .modify fun _ => rfl
  · exact .pure _

theorem getLast?_unresumed (a : Assembly) :
    a.unresumed.frames.getLast? = a.frames.getLast?.map Frame.unresumed := List.getLast?_map

theorem ceiling_mirrors : Mirrors (ceiling s) (ceiling (s.inspected h)) := ⟨by
  intro a
  rw [ceiling_apply, ceiling_apply, getLast?_unresumed]
  cases a.frames.getLast? <;> rfl⟩

theorem callerWords_mirrors : Mirrors (callerWords s) (callerWords (s.inspected h)) := ⟨by
  intro a
  rw [callerWords_apply, callerWords_apply, getLast?_unresumed]
  cases a.frames.getLast? <;> rfl⟩

theorem callerContext_mirrors : Mirrors (callerContext s) (callerContext (s.inspected h)) := ⟨by
  intro a
  rw [callerContext_apply, callerContext_apply, getLast?_unresumed]
  cases a.frames.getLast? <;> rfl⟩

theorem openFrame_mirrors {f : Frame} (fresh : f.continuation = none) :
    Mirrors (openFrame s f) (openFrame (s.inspected h) f) := by
  refine .bind ceiling_mirrors fun top => ?_
  split
  · refine .bind callerWords_mirrors fun words => .bind (.modify fun a => ?_) fun _ => ?_
    · simp only [unresumed, Frame.unresumed, Frame.placeAt, fresh]
    · exact .bind (putFixed_mirrors ..) fun _ => putFixed_mirrors ..
  · exact .throw _

/-- The debugger's frame gets no continuation, and the other's does not count. -/
theorem closeFrame_mirrors (count : Nat) (notify notify₀ : CodeId) :
    Mirrors (closeFrame s count notify) (closeFrame (s.inspected h) count notify₀) := ⟨by
  intro a
  simp only [closeFrame, index, Computation.get_bind, Computation.pure_bind_apply, bind_assoc]
  have never : (s.inspected h).reason = .debugger := rfl
  simp only [never, ne_eq, not_true_eq_false, decide_false, Bool.and_false, if_neg Bool.false_ne_true]
  have appended (f : Frame) : (a.frames ++ [f]).map Frame.unresumed =
      a.frames.map Frame.unresumed ++ [f.unresumed] := by simp
  split
  · simp only [adjust, Computation.modify_bind, Computation.modify_apply, unresumed, appended]
    rfl
  · simp only [Computation.modify_apply, unresumed, appended]⟩

/-! ### Values -/

theorem place_mirrors (o : Nat) (v : Recovered) (source : String) :
    Mirrors (place s o v source) (place (s.inspected h) o v source) := by
  refine .bind index_mirrors fun i => .get fun a => .bind (say_mirrors _) fun _ => ?_
  refine .bind (put_mirrors ..) fun _ => ?_
  split
  · exact .pure _
  · exact .modify fun _ => rfl
  · exact .modify fun _ => rfl

theorem rebuildWord_mirrors (o : Nat) : Mirrors (rebuildWord s o) (rebuildWord (s.inspected h) o) := by
  refine .bind index_mirrors fun i => .bind (read_mirrors _) fun op => ?_
  split
  · refine .bind (read_mirrors _) fun _ => .get fun a => ?_
    have last : a.unresumed.last = a.last := rfl
    rw [last]
    cases a.last with
    | none => exact .throw _
    | some v => exact place_mirrors ..
  · exact .bind (read_mirrors _) fun c => .bind (.lift _) fun v =>
      .bind (place_mirrors ..) fun _ => .modify fun _ => rfl

theorem rebuildWords_mirrors (n o : Nat) :
    Mirrors (rebuildWords s n o) (rebuildWords (s.inspected h) n o) := by
  induction n generalizing o with
  | zero => exact .pure _
  | succ n ih => exact .bind (rebuildWord_mirrors _) fun _ => ih _

/-! ### Frames -/

/-- A new frame is the same whatever the reason of the bailout. -/
theorem Mirrors.make {size area : Nat} {type : FrameType} {function : Option Value}
    {f f₀ : Frame → Step β} (hf : ∀ g : Frame, g.continuation = none → Mirrors (f g) (f₀ g)) :
    Mirrors ((liftM (Frame.make size type function area) : Step Frame) >>= f)
      ((liftM (Frame.make size type function area) : Step Frame) >>= f₀) := by
  unfold Frame.make
  split
  · exact ⟨(hf _ rfl).same⟩
  · exact ⟨fun _ => rfl⟩

theorem jsFrame_mirrors (functions : s.heap.SameFunctions h) (count : Nat) (node : NodeId)
    (literal height : Nat) :
    Mirrors (jsFrame s count node literal height) (jsFrame (s.inspected h) count node literal height) := by
  refine .bind (.lift _) fun function => ?_
  have data : (s.inspected h).heap.functionData? function = _ := functions.data function
  dsimp only
  rw [data]
  cases s.heap.functionData? function with
  | none => exact .throw _
  | some d =>
  -- What the inspection reads of a function is the same in both heaps.
  have name : ((s.inspected h).heap.sharedInfo d.shared).name = _ := functions.name d.shared
  have formals : ((s.inspected h).heap.sharedInfo d.shared).formals = _ := functions.formals d.shared
  have code : ((s.inspected h).heap.sharedInfo d.shared).code = _ := functions.code d.shared
  dsimp only
  rw [name, formals, code]
  refine .bind index_mirrors fun i => .bind (say_mirrors _) fun _ => ?_
  refine .bind (openFrame_mirrors rfl) fun _ => .bind (rebuildWords_mirrors ..) fun _ => ?_
  rw [Computation.ite_bind_bind, Computation.ite_bind_bind]
  refine .bind ?_ fun context => .bind (putContext_mirrors _) fun _ => .bind (putFixed_mirrors ..) fun _ => ?_
  · split
    · exact callerContext_mirrors
    · exact .pure _
  refine .bind (rebuildWords_mirrors ..) fun _ => ?_
  cases (s.heap.sharedInfo d.shared).code with
  | none => exact .throw _
  | some c =>
  dsimp only [Scene.inspected]
  cases (s.codeSpace.get c).resume.bind fun t => t.find? node with
  | none => exact .throw _
  | some point =>
    exact .bind (adjust_mirrors fun _ => rfl) fun _ => .bind (closeFrame_mirrors ..) fun _ =>
      .modify fun _ => rfl

theorem adaptorFrame_mirrors (count literal height : Nat) :
    Mirrors (adaptorFrame s count literal height) (adaptorFrame (s.inspected h) count literal height) := by
  refine .bind (.lift _) fun function => ?_
  split
  · exact .throw _
  refine .bind (say_mirrors _) fun _ => .make fun f fresh => .bind (openFrame_mirrors fresh) fun _ => ?_
  refine .bind (rebuildWords_mirrors ..) fun _ => .bind (putFixed_mirrors ..) fun _ => ?_
  refine .bind (putFixed_mirrors ..) fun _ => .bind (put_mirrors ..) fun _ => ?_
  exact .bind (adjust_mirrors fun _ => rfl) fun _ => closeFrame_mirrors ..

theorem constructFrame_mirrors (count literal height : Nat) :
    Mirrors (constructFrame s count literal height)
      (constructFrame (s.inspected h) count literal height) := by
  refine .bind (.lift _) fun function => ?_
  split
  · exact .throw _
  refine .bind (say_mirrors _) fun _ => .make fun f fresh => .bind (openFrame_mirrors fresh) fun _ => ?_
  refine .bind (rebuildWords_mirrors ..) fun _ => .bind callerContext_mirrors fun _ => ?_
  refine .bind (putContext_mirrors _) fun _ => .bind (putFixed_mirrors ..) fun _ => ?_
  refine .bind (put_mirrors ..) fun _ => .get fun a => .bind (.lift _) fun w => ?_
  refine .bind (put_mirrors ..) fun _ => ?_
  exact .bind (adjust_mirrors fun _ => rfl) fun _ => closeFrame_mirrors ..

theorem accessorFrame_mirrors (count literal : Nat) (setter : Bool) :
    Mirrors (accessorFrame s count literal setter)
      (accessorFrame (s.inspected h) count literal setter) := by
  refine .bind (.lift _) fun function => .bind (say_mirrors _) fun _ => .make fun f fresh => ?_
  refine .bind (openFrame_mirrors fresh) fun _ => .bind callerContext_mirrors fun _ => ?_
  refine .bind (putContext_mirrors _) fun _ => .bind (putFixed_mirrors ..) fun _ => ?_
  refine .bind (put_mirrors ..) fun _ => .bind (read_mirrors _) fun o => .bind (read_mirrors _) fun _ => ?_
  split
  · exact .bind (rebuildWord_mirrors _) fun _ => .bind (adjust_mirrors fun _ => rfl) fun _ =>
      closeFrame_mirrors ..
  · exact .bind (adjust_mirrors fun _ => rfl) fun _ => closeFrame_mirrors ..

theorem stubFrame_mirrors (count : Nat) : Mirrors (stubFrame s count) (stubFrame (s.inspected h) count) := by
  refine .bind index_mirrors fun i => ?_
  split
  · refine .bind (say_mirrors _) fun _ => .make fun f fresh => .bind (openFrame_mirrors fresh) fun _ => ?_
    refine .bind callerContext_mirrors fun _ => .bind (putContext_mirrors _) fun _ => ?_
    refine .bind (putFixed_mirrors ..) fun _ => .bind (rebuildWords_mirrors ..) fun _ => ?_
    exact .bind (adjust_mirrors fun _ => rfl) fun _ => closeFrame_mirrors ..
  · exact .throw _

/-! ### Whole walks -/

theorem nextFrame_mirrors (functions : s.heap.SameFunctions h) (count : Nat) :
    Mirrors (nextFrame s count) (nextFrame (s.inspected h) count) := by
  refine .bind (read_mirrors _) fun c => ?_
  cases c with
  | jsFrame node literal height => exact jsFrame_mirrors functions ..
  | argumentsAdaptorFrame literal height => exact adaptorFrame_mirrors ..
  | constructStubFrame literal height => exact constructFrame_mirrors ..
  | getterStubFrame literal | setterStubFrame literal => exact accessorFrame_mirrors ..
  | compiledStubFrame => exact stubFrame_mirrors ..
  | _ => exact .bind index_mirrors fun _ => .throw _

theorem nextFrames_mirrors (functions : s.heap.SameFunctions h) (count n : Nat) :
    Mirrors (nextFrames s count n) (nextFrames (s.inspected h) count n) := by
  induction n with
  | zero => exact .pure _
  | succ n ih => exact .bind (nextFrame_mirrors functions count) fun _ => ih

/-- **The debugger's walk builds the same frames.** -/
theorem run_mirrors (functions : s.heap.SameFunctions h) : Mirrors (run s) (run (s.inspected h)) := by
  refine .bind (read_mirrors _) fun c => ?_
  cases c with
  | begin count _ => exact .bind (nextFrames_mirrors functions ..) fun _ => .pure _
  | _ => exact .throw _

end Assembly

end Speculation
