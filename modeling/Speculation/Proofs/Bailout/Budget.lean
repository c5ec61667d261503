import Speculation.Proofs.Bailout.Leaving

/-!
# The budget of bailouts

A function may leave its optimized code only so often; after that it is never optimized again. The
count is kept with the data that all closures of a function share, and a bailout is counted before it
is known whether it can be made at all. `budgets_exact` says of every run that the counts are right:
what is counted are the bailouts that were begun for closures of the function, and nothing else, and
the function is given up exactly when its budget is used up.

One call of `deoptimize` charges at most one budget (`Engine.deoptimize_budget`); all that is done after
the bailout was counted, and all of a replacement or of a look of the debugger, leaves the budgets
alone (`Engine.SameBudgets`).
-/

namespace Speculation

/-! ### The budgets of functions -/

/-- How often a function has bailed out, and whether it is never optimized again. -/
structure Budget where
  count : Nat
  spent : Bool
deriving DecidableEq, Repr

namespace Budget

/-- The budget after one more bailout. -/
def charge (limit : Nat) (b : Budget) : Budget :=
  ⟨b.count + 1, b.spent || decide (limit ≤ b.count + 1)⟩

/-- A budget is spent exactly when the limit is reached. -/
def Exact (limit : Nat) (b : Budget) : Prop := b.spent = true ↔ limit ≤ b.count

/-- A charge keeps the books of a budget exact. -/
theorem Exact.charge {limit : Nat} {b : Budget} (h : b.Exact limit) : (b.charge limit).Exact limit := by
  unfold Exact at h
  simp only [Exact, Budget.charge, Bool.or_eq_true, h, decide_eq_true_iff]
  omega

end Budget

namespace Heap

variable {g h : Heap}

/-- The budget of a function. -/
def budget (h : Heap) (s : SharedId) : Budget :=
  ⟨(h.sharedInfo s).deoptCount, (h.sharedInfo s).optimizationDisabled⟩

/-- The function that a value is a closure of. -/
def closureOf? (h : Heap) (f : Value) : Option SharedId :=
  (h.functionData? f).bind fun d => if d.shared.index < h.shared.size then some d.shared else none

/-- A budget is a matter of the shared parts of functions alone. -/
theorem budget_congr (same : h.shared = g.shared) : h.budget = g.budget := by
  funext s
  simp only [budget, sharedInfo, same]

/-- Functions that do not exist have fresh budgets. -/
theorem budget_of_all (fresh : h.shared.all fun i => i.deoptCount == 0 && !i.optimizationDisabled)
    (s : SharedId) : h.budget s = ⟨0, false⟩ := by
  unfold budget sharedInfo
  by_cases inside : s.index < h.shared.size
  · have own := Array.all_eq_true.mp fresh s.index inside
    simpa [inside] using own
  · simp [inside, default, instInhabitedSharedInfo.default]

theorem allocate_shared (c : Cell) (h : Heap) : (allocate c h).2.shared = h.shared := by
  simp only [allocate, Computation.get_bind]
  split <;> rfl

theorem newNumber_shared (d : Double) (h : Heap) : (newNumber d h).2.shared = h.shared := by
  unfold newNumber
  cases smiOfNumber? d with
  | some v => rfl
  | none =>
    exact Computation.bind_rel (R := fun g h : Heap => h.shared = g.shared) (fun a b => b.trans a)
      (allocate_shared ..) fun _ _ => rfl

theorem transitionTarget_shared (h : Heap) (s : ShapeId) (d : Descriptor) :
    (h.transitionTarget s d).2.shared = h.shared := by
  unfold transitionTarget
  split
  · split <;> rfl
  · rfl

theorem addProperty_shared (h : Heap) (id : ObjectId) (name : Name) (v : Value) (a : Attributes) :
    (h.addProperty id name v a).shared = h.shared := by
  unfold addProperty
  split
  · rfl
  · dsimp only
    split
    · rfl
    · exact h.transitionTarget_shared ..

theorem newArguments_shared (callee : Value) (values : List Value) (strict : Bool) (h : Heap) :
    (newArguments callee values strict h).2.shared = h.shared := by
  refine Computation.bind_rel (R := fun g h : Heap => h.shared = g.shared) (fun a b => b.trans a)
    (allocate_shared ..) fun id _ => ?_
  exact addProperty_shared ..

end Heap

namespace Engine

variable {e e' : Engine} {r : BailoutRequest} {s : SharedId}

/-! ### What is not counted -/

/-- Neither budgets nor the configuration have changed. -/
def SameBudgets (e e' : Engine) : Prop := e'.heap.budget = e.heap.budget ∧ e'.config = e.config

theorem SameBudgets.trans {k : Engine} (a : e.SameBudgets e') (b : e'.SameBudgets k) :
    e.SameBudgets k :=
  ⟨b.1.trans a.1, b.2.trans a.2⟩

theorem SameBudgets.tolerates : Tolerates SameBudgets where
  refl _ := ⟨rfl, rfl⟩
  trans := .trans
  trace _ _ := ⟨rfl, rfl⟩
  newNumber e d := ⟨Heap.budget_congr (Heap.newNumber_shared d e.heap), rfl⟩
  newArguments e callee values :=
    ⟨Heap.budget_congr (Heap.newArguments_shared callee values false e.heap), rfl⟩

/-- Beginning a bailout does no more than to count it, and to write a line. -/
theorem beginBailout_sameBudgets (r : BailoutRequest) (input : Frame) (e : Engine) :
    (e.counted r).SameBudgets (beginBailout r input e).2 := by
  obtain ⟨text, parts⟩ := beginBailout_counted r input e
  rw [parts]
  cases (e.counted r).codeToLeave? r r.callee with
  | none => exact ⟨rfl, rfl⟩
  | some code =>
    dsimp only
    split <;> exact ⟨rfl, rfl⟩

/-- Replacements and looks of the debugger are not counted. -/
theorem beginBailout_respects (eager : r.reason ≠ .eager) (lazy : r.reason ≠ .lazy) (input : Frame) :
    Respects SameBudgets (beginBailout r input) := by
  refine ⟨fun e => ?_⟩
  have same : e.counted r = e := by
    unfold counted
    cases r.callee with
    | none => rfl
    | some f => simp [eager, lazy]
  have begun := beginBailout_sameBudgets r input e
  rwa [same] at begun

theorem resume_respects (b : Bailout) : Respects SameBudgets (resume b) := ⟨fun _ => ⟨rfl, rfl⟩⟩

theorem replaceOnStack_sameBudgets (e : Engine) (function : Value) :
    e.SameBudgets (replaceOnStack function e).2 := by
  have t := SameBudgets.tolerates
  refine (t.bind (topFrame_respects t _) fun input => ?_).step e
  refine t.bind (beginBailout_respects (by simp) (by simp) input) fun b => ?_
  exact t.bind (b.rebuild_respects t) resume_respects

theorem showNumber_respects (b : Bailout) (d : DeferredNumber) (address : Nat) (place : String) :
    Respects SameBudgets (b.showNumber d address place) := by
  have t := SameBudgets.tolerates
  exact t.bind ⟨fun e => t.newNumber e _⟩ fun n => t.bind (b.say_respects t ..) fun _ => t.pure n

theorem fillView_respects (b : Bailout) (parameters expressions : SlotRange) (v : FrameView)
    (d : DeferredNumber) : Respects SameBudgets (b.fillView parameters expressions v d) := by
  have t := SameBudgets.tolerates
  unfold Bailout.fillView
  dsimp only
  split
  · exact t.pure _
  · exact t.bind (showNumber_respects ..) fun n => t.pure _
  · split
    · exact t.bind (showNumber_respects ..) fun n => t.pure _
    · exact t.pure _

/-- The debugger charges nobody. -/
theorem inspectFrame_respects (frame : Frame) (k : Nat) :
    Respects SameBudgets (inspectFrame frame k) := by
  have t := SameBudgets.tolerates
  refine t.bind t.get fun e => ?_
  split
  · exact t.throw _
  split
  · exact t.throw _
  refine t.bind (t.lift _) fun data => ?_
  split
  · exact t.throw _
  refine t.bind (beginBailout_respects (by simp) (by simp) _) fun b => ?_
  refine t.bind (b.rebuildFrames_respects t) fun b => ?_
  split
  · exact t.throw _
  · exact t.bind (t.lift _) fun v => t.foldlM (fun v d => fillView_respects ..) _ _

theorem inspect_sameBudgets (e : Engine) (k : Nat) : e.SameBudgets (inspect k e).2 := by
  have t := SameBudgets.tolerates
  exact (t.bind (topFrame_respects t _) fun frame => inspectFrame_respects frame k).step e

theorem installCode_sameBudgets (e : Engine) (f : ObjectId) (code : CodeId) :
    e.SameBudgets (e.installCode f code).2 := by
  unfold installCode
  split
  · exact ⟨rfl, rfl⟩
  · split <;> exact ⟨rfl, rfl⟩

/-! ### What is counted -/

/-- Counting changes the budget of one function. -/
theorem countBailout_budget (e : Engine) (f : Value) (s : SharedId) :
    (e.countBailout f).heap.budget s =
      if e.heap.closureOf? f = some s then (e.heap.budget s).charge e.config.maxDeoptCount
      else e.heap.budget s := by
  unfold countBailout Heap.closureOf?
  cases e.heap.functionData? f with
  | none => simp
  | some d =>
    simp only [Option.bind_some, Heap.budget, Heap.sharedInfo, Heap.modifyShared,
      Array.getD_eq_getD_getElem?, Array.getElem?_modify]
    by_cases inside : d.shared.index < e.heap.shared.size
    · by_cases same : d.shared = s
      · subst same
        simp [inside, Budget.charge]
      · have other : d.shared.index ≠ s.index := fun index => same (congrArg SharedId.mk index)
        simp [inside, same, other]
    · by_cases same : d.shared.index = s.index
      · simp [inside, ← same]
      · simp [inside, same]

/-- The function whose bailout a request is, if it is one: a request that finds a frame to leave, for
a closure of the function. Stubs have no budget, and nothing but eager and lazy bailouts is counted. -/
def charged? (e : Engine) (r : BailoutRequest) : Option SharedId :=
  if e.stack.top?.isSome ∧ (r.reason = .eager ∨ r.reason = .lazy) then r.callee.bind e.heap.closureOf?
  else none

/-- A bailout charges one function once, and nobody else. -/
theorem counted_budget (top : e.stack.top?.isSome) (s : SharedId) :
    (e.counted r).heap.budget s =
      if e.charged? r = some s then (e.heap.budget s).charge e.config.maxDeoptCount
      else e.heap.budget s := by
  unfold counted charged?
  by_cases reason : r.reason = .eager ∨ r.reason = .lazy
  · cases r.callee with
    | none => simp
    | some f => simp [reason, top, countBailout_budget]
  · cases r.callee with
    | none => simp
    | some f => simp [reason]

theorem counted_config (e : Engine) (r : BailoutRequest) : (e.counted r).config = e.config := by
  rw [e.counted_keeps r]

/-- Whatever comes after the count leaves the budgets alone. -/
theorem deoptimize_sameBudgets {input : Frame} (top : e.stack.top? = some input)
    (r : BailoutRequest) : (e.counted r).SameBudgets (deoptimize r e).2 := by
  have t := SameBudgets.tolerates
  have begun := beginBailout_sameBudgets r input e
  have rest (b : Bailout) :
      Respects SameBudgets (b.rebuild >>= fun b => b.materialize >>= fun b => resume b) :=
    t.bind (b.rebuild_respects t) fun b => t.bind (b.materialize_respects t) resume_respects
  have parts : deoptimize r e = (beginBailout r input >>= fun b =>
      b.rebuild >>= fun b => b.materialize >>= fun b => resume b) e :=
    Computation.bind_ok (topFrame_of_top _ top)
  rw [parts, Computation.bind_apply]
  rcases h : beginBailout r input e with ⟨f | b, k⟩
  · rwa [h] at begun
  · rw [h] at begun
    exact begun.trans ((rest b).step k)

/-- Without a frame there is nothing to leave, and nobody is charged. -/
theorem deoptimize_of_empty (top : e.stack.top? = none) (r : BailoutRequest) :
    deoptimize r e = (.error (.refused .deoptimizeEmptyStack), e) := by
  refine Computation.bind_error ?_
  simp only [topFrame, Computation.get_bind, top]
  rfl

theorem deoptimize_config (e : Engine) (r : BailoutRequest) :
    (deoptimize r e).2.config = e.config := by
  cases top : e.stack.top? with
  | none => rw [deoptimize_of_empty top]
  | some input => exact (deoptimize_sameBudgets top r).2.trans (e.counted_config r)

/-- A bailout charges the budget of the function whose bailout it is, whether it succeeds or not. -/
theorem deoptimize_budget (e : Engine) (r : BailoutRequest) (s : SharedId) :
    (deoptimize r e).2.heap.budget s =
      if e.charged? r = some s then (e.heap.budget s).charge e.config.maxDeoptCount
      else e.heap.budget s := by
  cases top : e.stack.top? with
  | none => simp [deoptimize_of_empty top, charged?, top]
  | some input =>
    rw [(deoptimize_sameBudgets top r).1]
    exact counted_budget (by rw [top]; rfl) s

/-- A function whose budget is spent gets no optimized code, and every other one does. -/
theorem installCode_fails_iff {f : ObjectId} {d : FunctionData}
    (data : e.heap.functionData? (.object f) = some d) (code : CodeId) :
    ((e.installCode f code).1 = false ↔ (e.heap.budget d.shared).spent = true) ∧
      ((e.heap.budget d.shared).spent = true → e.installCode f code = (false, e)) := by
  unfold installCode Heap.budget
  rw [data]
  dsimp only
  split <;> simp [*]

end Engine

/-! ### Runs -/

/-- Engines that are reached by bailouts, replacements, looks of the debugger and installations of
code, whether they succeed or not, and by changes that leave all budgets alone; with the functions whose
bailouts were begun, the latest first. -/
inductive BudgetRun (start : Engine) : Engine → List SharedId → Prop
  | start : BudgetRun start start []
  | deoptimize {e : Engine} {begun : List SharedId} (run : BudgetRun start e begun)
    (r : BailoutRequest) :
    BudgetRun start (Engine.deoptimize r e).2 ((e.charged? r).toList ++ begun)
  | replaceOnStack {e : Engine} {begun : List SharedId} (run : BudgetRun start e begun)
    (function : Value) : BudgetRun start (Engine.replaceOnStack function e).2 begun
  | inspect {e : Engine} {begun : List SharedId} (run : BudgetRun start e begun) (k : Nat) :
    BudgetRun start (Engine.inspect k e).2 begun
  | installCode {e : Engine} {begun : List SharedId} (run : BudgetRun start e begun) (f : ObjectId)
    (code : CodeId) : BudgetRun start (e.installCode f code).2 begun
  | elsewhere {e e' : Engine} {begun : List SharedId} (run : BudgetRun start e begun)
    (same : e.SameBudgets e') : BudgetRun start e' begun

namespace BudgetRun

variable {start e : Engine} {begun : List SharedId}

theorem config (run : BudgetRun start e begun) : e.config = start.config := by
  induction run with
  | start => rfl
  | deoptimize _ r ih => exact (Engine.deoptimize_config _ r).trans ih
  | replaceOnStack _ function ih => exact (Engine.replaceOnStack_sameBudgets _ function).2.trans ih
  | inspect _ k ih => exact (Engine.inspect_sameBudgets _ k).2.trans ih
  | installCode _ f code ih => exact (Engine.installCode_sameBudgets _ f code).2.trans ih
  | elsewhere _ same ih => exact same.2.trans ih

/-- A property of budgets that a charge keeps holds of every budget that was charged in a run. -/
theorem budget (run : BudgetRun start e begun) (s : SharedId) {P : Nat → Budget → Prop}
    (initial : P 0 (start.heap.budget s))
    (charge : ∀ n b, P n b → P (n + 1) (b.charge start.config.maxDeoptCount)) :
    P (begun.count s) (e.heap.budget s) := by
  induction run with
  | start => exact initial
  | @deoptimize e begun run r ih =>
    rw [Engine.deoptimize_budget, run.config, List.count_append]
    cases charged : e.charged? r with
    | none => simpa using ih
    | some s' =>
      by_cases same : s' = s
      · subst same
        have counted := charge _ _ ih
        rw [Nat.add_comm] at counted
        simpa using counted
      · simpa [same] using ih
  | replaceOnStack _ function ih => rwa [(Engine.replaceOnStack_sameBudgets _ function).1]
  | inspect _ k ih => rwa [(Engine.inspect_sameBudgets _ k).1]
  | installCode _ f code ih => rwa [(Engine.installCode_sameBudgets _ f code).1]
  | elsewhere _ same ih => rwa [same.1]

/-- A budget that is spent stays so. -/
theorem spent (run : BudgetRun start e begun) {s : SharedId}
    (spent : (start.heap.budget s).spent = true) : (e.heap.budget s).spent = true :=
  run.budget s (P := fun _ b => b.spent = true) spent fun n b h => by simp [Budget.charge, h]

end BudgetRun

/-- **Budgets are exact.** Where functions start with fresh budgets, every run counts for each function
the eager and lazy bailouts that were begun for its closures, and nothing else. The function is given
up exactly when they are as many as the configuration allows, and for good: from then on, and only
then, code is not installed for its closures. -/
theorem budgets_exact {start e : Engine} {begun : List SharedId}
    (limit : 1 ≤ start.config.maxDeoptCount)
    (fresh : ∀ s, start.heap.budget s = ⟨0, false⟩) (run : BudgetRun start e begun) (s : SharedId) :
    (e.heap.sharedInfo s).deoptCount = begun.count s ∧
      ((e.heap.sharedInfo s).optimizationDisabled = true ↔
        start.config.maxDeoptCount ≤ (e.heap.sharedInfo s).deoptCount) ∧
      ((e.heap.sharedInfo s).optimizationDisabled = true → ∀ {e' : Engine} {later : List SharedId},
        BudgetRun e e' later → (e'.heap.sharedInfo s).optimizationDisabled = true) ∧
      ∀ (f : ObjectId) (d : FunctionData) (code : CodeId),
        e.heap.functionData? (.object f) = some d → d.shared = s →
        ((e.installCode f code).1 = false ↔ (e.heap.sharedInfo s).optimizationDisabled = true) ∧
        ((e.heap.sharedInfo s).optimizationDisabled = true → e.installCode f code = (false, e)) := by
  refine ⟨?_, ?_, fun spent e' later more => more.spent spent, ?_⟩
  · refine run.budget s (P := fun n b => b.count = n) (by rw [fresh]) fun n b counted => ?_
    rw [Budget.charge, counted]
  · refine run.budget s (P := fun _ b => b.Exact start.config.maxDeoptCount) ?_ fun _ _ => .charge
    rw [fresh, Budget.Exact]
    simp only [Bool.false_eq_true, false_iff]
    omega
  · rintro f d code data rfl
    exact Engine.installCode_fails_iff data code

/-- A function that may bail out twice: a bailout, a look of the debugger, and a bailout that fails. -/
theorem budgets_exact_twice : ∃ (start e : Engine) (begun : List SharedId),
    start.config.maxDeoptCount = 2 ∧ BudgetRun start e begun ∧ begun = [⟨2⟩, ⟨2⟩] ∧
    (e.heap.sharedInfo ⟨2⟩).deoptCount = 2 ∧ ∀ code, e.installCode ⟨11⟩ code = (false, e) := by
  let start : Engine := { Sample.engine with config := { maxDeoptCount := 2 } }
  let unknown : BailoutRequest := { Sample.request with entry := 5 }
  let first := (Engine.deoptimize Sample.request start).2
  let second := (Engine.inspect 0 first).2
  let third := (Engine.deoptimize unknown second).2
  have run : BudgetRun start third [⟨2⟩, ⟨2⟩] := by
    have one : start.charged? Sample.request = some ⟨2⟩ := by decide +kernel
    have two : second.charged? unknown = some ⟨2⟩ := by decide +kernel
    have began := (BudgetRun.start : BudgetRun start start []).deoptimize Sample.request
    rw [one] at began
    have again := (began.inspect 0).deoptimize unknown
    rwa [two] at again
  have fresh := Heap.budget_of_all (h := start.heap) (by decide +kernel)
  obtain ⟨count, spent, -, refused⟩ := budgets_exact (by decide) fresh run ⟨2⟩
  have closure : (third.heap.functionData? (.object ⟨11⟩)).map (·.shared) = some ⟨2⟩ := by decide +kernel
  obtain ⟨d, data, shared⟩ := Option.map_eq_some_iff.mp closure
  have disabled := spent.mpr (by rw [count]; decide)
  exact ⟨start, third, _, rfl, run, rfl, count, fun code => (refused _ d code data shared).2 disabled⟩

end Speculation
