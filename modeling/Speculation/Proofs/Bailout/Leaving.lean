import Speculation.Engine.Execution
import Speculation.Proofs.Bailout.Filling

/-!
# Leaving optimized code

A bailout counts itself, rebuilds the frames, fills in what had to wait, and only then touches the
stack. All that rebuilding and filling in do is to write lines, to box numbers and to make arguments
objects: a relation between engines that lets these happen (`Tolerates`) holds before and after, whether
they succeed or not. `Quiet` is the case that nothing but the heap and the trace changes.

`Departs` collects what the steps of a successful bailout have done: the walk over the recipe, the
layouts of the frames, and the values that their slots hold in the end.
-/

namespace Speculation

/-! ### What the steps of a bailout change -/

namespace Engine

variable {α β : Type} {R : Engine → Engine → Prop}

/-- A relation between the engines before and after an operation, also if it fails. -/
structure Respects (R : Engine → Engine → Prop) (m : Action α) : Prop where
  step : ∀ e : Engine, R e (m e).2

/-- A relation that lets lines be written, numbers be boxed and arguments objects be made. -/
structure Tolerates (R : Engine → Engine → Prop) : Prop where
  refl : ∀ e, R e e
  trans : ∀ {e e' k}, R e e' → R e' k → R e k
  trace : ∀ (e : Engine) trace, R e { e with trace }
  newNumber : ∀ e d, R e (onHeap (Heap.newNumber d) e).2
  newArguments : ∀ e callee values, R e (onHeap (Heap.newArguments callee values false) e).2

theorem Keeps.tolerates : Tolerates Keeps where
  refl := .refl
  trans := .trans
  trace _ _ := rfl
  newNumber _ _ := rfl
  newArguments _ _ _ := rfl

namespace Tolerates

theorem pure (t : Tolerates R) (x : α) : Respects R (pure x) := ⟨fun e => t.refl e⟩

theorem throw (t : Tolerates R) (f : Fault) : Respects R (throw f : Action α) := ⟨fun e => t.refl e⟩

theorem get (t : Tolerates R) : Respects R (get : Action Engine) := ⟨fun e => t.refl e⟩

theorem lift (t : Tolerates R) (x : Except Fault α) : Respects R (liftM x : Action α) :=
  ⟨fun e => t.refl e⟩

theorem logAll (t : Tolerates R) (channel : Channel) (lines : List String) :
    Respects R (modify fun e => e.logAll channel lines) := ⟨fun e => t.trace e _⟩

theorem bind (t : Tolerates R) {m : Action α} {f : α → Action β} (hm : Respects R m)
    (hf : ∀ x, Respects R (f x)) : Respects R (m >>= f) :=
  ⟨fun e => Computation.bind_rel t.trans (hm.step e) fun x _ => (hf x).step _⟩

theorem foldlM (t : Tolerates R) {f : β → α → Action β} (hf : ∀ y x, Respects R (f y x))
    (xs : List α) (y : β) : Respects R (xs.foldlM f y) := by
  induction xs generalizing y with
  | nil => exact t.pure y
  | cons x xs ih => exact t.bind (hf y x) ih

end Tolerates

end Engine

namespace Bailout

open Engine (Quiet Respects Tolerates)

variable {R : Engine → Engine → Prop}

/-- A trace is tolerated. -/
theorem say_respects (b : Bailout) (t : Tolerates R) (channel : Channel) (text : String) :
    Respects R (b.say channel text) := by
  unfold say
  split
  · exact ⟨fun e => t.trace e _⟩
  · exact t.pure _

theorem rebuildFrames_respects (b : Bailout) (t : Tolerates R) : Respects R b.rebuildFrames := by
  refine t.bind t.get fun e => t.bind (t.lift _) fun data => t.bind (t.lift _) fun entry => ?_
  refine t.bind (b.say_respects t ..) fun _ => t.bind (t.logAll ..) fun _ => ?_
  refine t.bind (t.lift _) fun count => ?_
  split
  · exact t.pure _
  · exact t.bind (b.say_respects t ..) fun _ => t.pure _

theorem replaceFrame_respects (b : Bailout) (t : Tolerates R) : Respects R b.replaceFrame := by
  refine t.bind t.get fun e => ?_
  split
  · exact t.throw _
  refine t.bind (t.lift _) fun data => ?_
  split
  · exact t.throw _
  split
  · exact t.throw _
  refine t.bind (t.lift _) fun entry => t.bind (t.lift _) fun height => ?_
  split
  · exact t.throw _
  dsimp only
  split
  · exact t.throw _
  refine t.bind (t.lift _) fun output => t.bind (t.logAll ..) fun _ => ?_
  exact t.bind (t.lift _) fun frame => t.pure _

/-- Computing frames changes nothing but the trace. -/
theorem rebuild_respects (b : Bailout) (t : Tolerates R) : Respects R b.rebuild := by
  unfold rebuild
  split
  · exact b.replaceFrame_respects t
  · exact b.rebuildFrames_respects t

theorem fillNumbers_respects (b : Bailout) (t : Tolerates R) (ds : List DeferredNumber) :
    Respects R (b.fillNumbers ds) := by
  induction ds generalizing b with
  | nil => exact t.pure _
  | cons d ds ih =>
    refine t.bind ?_ fun c => ih c
    exact t.bind ⟨fun e => t.newNumber e _⟩ fun v => t.bind (b.say_respects t ..) fun _ => t.pure _

theorem newArgumentsFor_respects (b : Bailout) (t : Tolerates R) (d : DeferredArguments) :
    Respects R (b.newArgumentsFor d) := by
  obtain ⟨text, parts⟩ := b.newArgumentsFor_eq d
  rw [parts]
  exact t.bind (t.lift _) fun values => t.bind ⟨fun e => t.newArguments e _ _⟩ fun id =>
    t.bind (b.say_respects t ..) fun _ => t.pure _

theorem fillArguments_respects (b : Bailout) (t : Tolerates R) (made : Table Nat Value)
    (ds : List DeferredArguments) : Respects R (b.fillArguments made ds) := by
  induction ds generalizing b made with
  | nil => exact t.pure _
  | cons d ds ih =>
    rw [fillArguments]
    cases made.get? d.frame with
    | some v => exact ih ..
    | none => exact t.bind (b.newArgumentsFor_respects t d) fun v => ih ..

/-- Materializing changes the trace, and the heap as allocations do. -/
theorem materialize_respects (b : Bailout) (t : Tolerates R) : Respects R b.materialize := by
  unfold materialize
  split
  · exact t.throw _
  · exact t.bind (b.fillNumbers_respects t _) fun c => c.fillArguments_respects t ..

theorem rebuild_quiet (b : Bailout) : Quiet b.rebuild :=
  ⟨(b.rebuild_respects Engine.Keeps.tolerates).step⟩

theorem materialize_quiet (b : Bailout) : Quiet b.materialize :=
  ⟨(b.materialize_respects Engine.Keeps.tolerates).step⟩

end Bailout

/-! ### Beginning a bailout -/

/-- The function that a request is about; small integers are none. -/
def BailoutRequest.callee (r : BailoutRequest) : Option Value := r.function.filter fun f => !f.isSmi

/-- The bailout that a request begins. -/
def BailoutRequest.bailout (r : BailoutRequest) (input : Frame) (code : CodeId) (traced : Bool) :
    Bailout :=
  { reason := r.reason, function := r.callee, code, entry := r.entry, input, traced }

/-- Bailouts neither enter optimized code nor only look at it. -/
theorem BailoutRequest.reason_ne (r : BailoutRequest) (reason : r.reason = .eager ∨ r.reason = .lazy) :
    r.reason ≠ .osr ∧ r.reason ≠ .debugger := by
  rcases reason with reason | reason
  · simp [reason]
  · simp [reason]

theorem BailoutRequest.rebuild_eq (r : BailoutRequest) (reason : r.reason = .eager ∨ r.reason = .lazy)
    (input : Frame) (code : CodeId) (traced : Bool) :
    (r.bailout input code traced).rebuild = (r.bailout input code traced).rebuildFrames :=
  if_neg (r.reason_ne reason).1

namespace Engine

variable {r : BailoutRequest} {input : Frame} {b : Bailout} {e e' : Engine} {res : Resumption}

/-- The engine after a bailout has been counted. -/
def counted (e : Engine) (r : BailoutRequest) : Engine :=
  match r.callee with
  | some f => if r.reason = .eager || r.reason = .lazy then e.countBailout f else e
  | none => e

/-- A bailout is counted before anything else. -/
theorem beginBailout_counted (r : BailoutRequest) (input : Frame) (e : Engine) : ∃ text : String,
    beginBailout r input e = (do
      match (e.counted r).codeToLeave? r r.callee with
      | none =>
        throw (.violated (.noOptimizedCode r.reason ((e.counted r).heap.functionName r.callee)))
      | some code =>
        let traced := (e.counted r).tracesBailout r.reason
        if traced then set ((e.counted r).log .bailout text)
        return r.bailout input code traced : Action Bailout) (e.counted r) := by
  unfold beginBailout counted BailoutRequest.bailout BailoutRequest.callee
  cases r.function.filter fun f => !f.isSmi with
  | none => exact ⟨_, rfl⟩
  | some f =>
    dsimp only
    split
    · exact ⟨_, rfl⟩
    · exact ⟨_, rfl⟩

/-- A bailout that has begun was counted and knows the code that it leaves. -/
theorem beginBailout_ok (h : beginBailout r input e = (.ok b, e')) : ∃ code,
    (e.counted r).codeToLeave? r r.callee = some code ∧
      b = r.bailout input code ((e.counted r).tracesBailout r.reason) ∧
      e' = { e.counted r with trace := e'.trace } := by
  obtain ⟨text, parts⟩ := beginBailout_counted r input e
  rw [parts] at h
  cases found : (e.counted r).codeToLeave? r r.callee with
  | none =>
    rw [found] at h
    cases h
  | some code =>
    rw [found] at h
    dsimp only at h
    split at h
    all_goals
      cases h
      exact ⟨code, rfl, rfl, rfl⟩

/-- A bailout begins if it is known which code it leaves. -/
theorem beginBailout_of_code {code : CodeId} (input : Frame)
    (found : (e.counted r).codeToLeave? r r.callee = some code) : ∃ b e',
      beginBailout r input e = (.ok b, e') := by
  obtain ⟨text, parts⟩ := beginBailout_counted r input e
  rw [parts, found]
  dsimp only
  split
  · exact ⟨_, _, rfl⟩
  · exact ⟨_, _, rfl⟩

theorem countBailout_keeps (e : Engine) (f : Value) : e.Keeps (e.countBailout f) := by
  unfold countBailout
  split
  · rfl
  · rfl

theorem counted_keeps (e : Engine) (r : BailoutRequest) : e.Keeps (e.counted r) := by
  unfold counted
  split
  · split
    · exact e.countBailout_keeps _
    · rfl
  · rfl

theorem counted_allocation (e : Engine) (r : BailoutRequest) :
    (e.counted r).heap.allocationAllowed = e.heap.allocationAllowed := by
  unfold counted countBailout
  split
  · split
    · split <;> rfl
    · rfl
  · rfl

theorem beginBailout_quiet (r : BailoutRequest) (input : Frame) : Quiet (beginBailout r input) := by
  refine ⟨fun e => ?_⟩
  obtain ⟨text, parts⟩ := beginBailout_counted r input e
  have counts := e.counted_keeps r
  rw [parts]
  cases (e.counted r).codeToLeave? r r.callee with
  | none => exact counts
  | some code =>
    dsimp only
    split
    · exact counts.trans rfl
    · exact counts

/-! ### Whole bailouts -/

theorem topFrame_ok {empty : Refusal} {f : Frame} (h : topFrame empty e = (.ok f, e')) :
    e.stack.top? = some f ∧ e = e' := by
  simp only [topFrame, Computation.get_bind] at h
  cases found : e.stack.top? with
  | none =>
    rw [found] at h
    cases h
  | some g =>
    rw [found] at h
    cases h
    exact ⟨rfl, rfl⟩

theorem topFrame_of_top {f : Frame} (empty : Refusal) (h : e.stack.top? = some f) :
    topFrame empty e = (.ok f, e) := by
  simp only [topFrame, Computation.get_bind, h]
  rfl

theorem topFrame_respects {R : Engine → Engine → Prop} (t : Tolerates R) (empty : Refusal) :
    Respects R (topFrame empty) := by
  refine t.bind t.get fun e => ?_
  split
  · exact t.pure _
  · exact t.throw _

theorem topFrame_quiet (empty : Refusal) : Quiet (topFrame empty) :=
  ⟨(topFrame_respects Keeps.tolerates empty).step⟩

/-- A bailout up to the change of the stack. -/
def prepareBailout (r : BailoutRequest) : Action Bailout := do
  let input ← topFrame .deoptimizeEmptyStack
  let b ← beginBailout r input
  let b ← b.rebuild
  b.materialize

theorem deoptimize_eq (r : BailoutRequest) : deoptimize r = prepareBailout r >>= resume := by
  simp only [deoptimize, prepareBailout, bind_assoc]

theorem prepareBailout_quiet (r : BailoutRequest) : Quiet (prepareBailout r) :=
  .bind (topFrame_quiet _) fun _ => .bind (beginBailout_quiet ..) fun b =>
    .bind b.rebuild_quiet fun b => b.materialize_quiet

/-- A bailout that could be prepared went through all of its steps. -/
theorem prepareBailout_ok (h : prepareBailout r e = (.ok b, e')) : ∃ input b₀ e₁ b₁ e₂,
    e.stack.top? = some input ∧ beginBailout r input e = (.ok b₀, e₁) ∧
      b₀.rebuild e₁ = (.ok b₁, e₂) ∧ b₁.materialize e₂ = (.ok b, e') := by
  obtain ⟨input, e₁, found, h⟩ := Computation.bind_eq_ok h
  obtain ⟨top, rfl⟩ := topFrame_ok found
  obtain ⟨b₀, e₁, begun, h⟩ := Computation.bind_eq_ok h
  obtain ⟨b₁, e₂, rebuilt, filled⟩ := Computation.bind_eq_ok h
  exact ⟨input, b₀, e₁, b₁, e₂, top, begun, rebuilt, filled⟩

/-- A replacement up to the change of the stack. -/
def prepareReplacement (function : Value) : Action Bailout := do
  let input ← topFrame .replaceEmptyStack
  let b ← beginBailout { reason := .osr, function := some function, address := input.pc } input
  b.rebuild

theorem replaceOnStack_eq (function : Value) :
    replaceOnStack function = prepareReplacement function >>= resume := by
  simp only [replaceOnStack, prepareReplacement, bind_assoc]

theorem prepareReplacement_quiet (function : Value) : Quiet (prepareReplacement function) :=
  .bind (topFrame_quiet _) fun _ => .bind (beginBailout_quiet ..) fun b => b.rebuild_quiet

/-- A replacement that could be prepared went through both of its steps. -/
theorem prepareReplacement_ok {function : Value} (h : prepareReplacement function e = (.ok b, e')) :
    ∃ input b₀ e₁, e.stack.top? = some input ∧
      beginBailout { reason := .osr, function := some function, address := input.pc } input e =
        (.ok b₀, e₁) ∧ b₀.rebuild e₁ = (.ok b, e') := by
  obtain ⟨input, e₁, found, h⟩ := Computation.bind_eq_ok h
  obtain ⟨top, rfl⟩ := topFrame_ok found
  obtain ⟨b₀, e₁, begun, rebuilt⟩ := Computation.bind_eq_ok h
  exact ⟨input, b₀, e₁, top, begun, rebuilt⟩

/-- The stack changes only if everything before has succeeded. -/
theorem bind_resume {m : Action Bailout} (quiet : Quiet m) (e : Engine) :
    (∃ b k, m e = (.ok b, k) ∧ e.Keeps k ∧
      (m >>= resume) e = (.ok ⟨b.frames⟩, { k with stack := e.stack.replaceTop b.frames })) ∨
    ∃ f k, e.Keeps k ∧ (m >>= resume) e = (.error f, k) := by
  have keeps := quiet.keeps e
  rcases h : m e with ⟨f | b, k⟩
  · rw [h] at keeps
    exact .inr ⟨f, k, keeps, Computation.bind_error h⟩
  · rw [h] at keeps
    refine .inl ⟨b, k, rfl, keeps, ?_⟩
    rw [Computation.bind_ok h, ← keeps.stack]
    rfl

end Engine

/-- What the walk of a requested bailout reads. -/
def BailoutRequest.scene (r : BailoutRequest) (e : Engine) (input : Frame) (code : CodeId)
    (data : BailoutData) : Scene :=
  { heap := (e.counted r).heap, codeSpace := e.codeSpace, reason := r.reason
    code := e.codeSpace.get code, data, input, traced := (e.counted r).tracesBailout r.reason }

/-- Counting does not change what the frames are computed from. -/
theorem BailoutRequest.scene_eq (r : BailoutRequest) {e e₁ : Engine} (input : Frame) (code : CodeId)
    (data : BailoutData) (begun : e₁ = { e.counted r with trace := e₁.trace }) :
    (r.bailout input code ((e.counted r).tracesBailout r.reason)).scene e₁ data =
      r.scene e input code data := by
  have space : e₁.codeSpace = e.codeSpace := by rw [begun, e.counted_keeps r]
  simp only [Bailout.scene, BailoutRequest.scene, space]
  rw [begun]
  rfl

/-- A successful bailout from `e` to `e'`, which left `code` at a frame `input`: the walk ended in
`a`, and its frames have the layouts `ls`. -/
structure Departs (r : BailoutRequest) (e e' : Engine) (res : Resumption) (input : Frame)
    (code : CodeId) (data : BailoutData) (entry : BailoutEntry) (a : Assembly) (count : UInt32)
    (records : List FrameRecord) (ls : List Layout) : Prop where
  top : e.stack.top? = some input
  leaves : (e.counted r).codeToLeave? r r.callee = some code
  known : (e.codeSpace.get code).bailouts = some data
  point : data.entries[r.entry]? = some entry
  run : Assembly.run (r.scene e input code data) { cursor := .start data.recipes entry.recipe } =
    (.ok count.toNat, a)
  walked : Walked (r.scene e input code data) (data.recipes.drop entry.recipe) count records ls
    a.frames a.numbers a.arguments
  length : res.frames.length = a.frames.length
  filled : ∀ (i : Nat) f l, a.frames[i]? = some f → ls[i]? = some l →
    ∃ g, res.frames[i]? = some g ∧ l.Filled e'.heap f g
  admits : ∀ d ∈ a.numbers, (e.counted r).heap.AdmitsNumber d.value
  retains : (e.counted r).heap.Retains e'.heap
  engine : e' = { e with heap := e'.heap, trace := e'.trace,
                         stack := e.stack.replaceTop res.frames }

/-- A frame that a bailout leaves is a rebuilt frame that was filled. -/
theorem Departs.frame {r : BailoutRequest} {e e' : Engine} {res : Resumption} {input : Frame}
    {code : CodeId} {data : BailoutData} {entry : BailoutEntry} {a : Assembly} {count : UInt32}
    {records : List FrameRecord} {ls : List Layout} {i : Nat} {g : Frame}
    (d : Departs r e e' res input code data entry a count records ls) (hg : res.frames[i]? = some g) :
    ∃ f record l, a.frames[i]? = some f ∧ records[i]? = some record ∧ ls[i]? = some l ∧
      Rebuilt (r.scene e input code data) (if i = 0 then none else a.frames[i - 1]?) record.opener
        record.passed record.positions l f ∧
      l.Filled e'.heap f g := by
  have inside : i < a.frames.length := by
    rw [← d.length]
    exact (List.getElem?_eq_some_iff.mp hg).1
  have hf : a.frames[i]? = some a.frames[i] := List.getElem?_eq_getElem inside
  obtain ⟨record, l, hr, hl, rebuilt⟩ := d.walked.follows.rebuilt hf
  obtain ⟨g', hg', filled⟩ := d.filled i _ l hf hl
  rw [hg] at hg'
  cases hg'
  exact ⟨_, record, l, hf, hr, hl, rebuilt, filled⟩

/-- A successful bailout follows its recipe and fills the frames. -/
theorem Engine.deoptimize_departs {r : BailoutRequest} {e e' : Engine} {res : Resumption}
    (h : deoptimize r e = (.ok res, e')) (reason : r.reason = .eager ∨ r.reason = .lazy) :
    ∃ input code data entry a count records ls,
      Departs r e e' res input code data entry a count records ls := by
  rw [deoptimize_eq] at h
  rcases bind_resume (prepareBailout_quiet r) e with ⟨b, k, prepared, keeps, done⟩ | ⟨f, k, -, failed⟩
  · rw [done] at h
    cases h
    obtain ⟨input, b₀, e₁, b₁, e₂, top, begun, rebuilt, filled⟩ := prepareBailout_ok prepared
    obtain ⟨code, found, rfl, he₁⟩ := beginBailout_ok begun
    rw [r.rebuild_eq reason] at rebuilt
    obtain ⟨data, entry, n, a, known, point, run, rfl, he₂⟩ := Bailout.rebuildFrames_ok rebuilt
    have space : e₁.codeSpace = e.codeSpace := by
      rw [he₁, e.counted_keeps r]
    rw [r.scene_eq input code data he₁] at run
    obtain ⟨count, records, ls, rfl, walked⟩ := Assembly.run_walked run
    have heap : e₂.heap = (e.counted r).heap := by rw [he₂, he₁]
    have refills := Bailout.materialize_refills filled
    obtain ⟨admitted, filled⟩ := Bailout.materialize_ok filled (.of_walked walked)
    rw [heap] at admitted
    refine ⟨input, code, data, entry, a, count, records, ls,
      { top, leaves := found, known := ?_, point, run, walked, length := ?_, filled, admits := admitted
        retains := heap ▸ refills.retains, engine := ?_ }⟩
    · rwa [space] at known
    · simpa using congrArg List.length refills.blank
    · rw [keeps]
  · rw [failed] at h
    cases h

end Speculation
