import Speculation.Proofs.Bailout.Stack

/-!
# Bailouts that succeed

Once its frames are rebuilt, a bailout can only fail for want of objects: `deoptimize_of_run` says
that it succeeds if allocation is allowed. The one thing that could still go wrong is that an
arguments object is to be filled from an adaptor frame, but the parameters of rebuilt frames are
values (`Readable`), and stay so when words are filled in.
-/

namespace Speculation

/-! ### Values of a frame -/

/-- The values in `n` words that are read one after the other. -/
def valuesFrom (read : Nat → Except Fault Word) : Nat → Nat → Except Fault (List Value)
  | 0, _ => .ok []
  | n + 1, i => do
    let v ← (← read i).rebuilt
    let vs ← valuesFrom read n (i + 1)
    return v :: vs

theorem Frame.parametersFrom_eq (f : Frame) (n i : Nat) :
    f.parametersFrom n i = valuesFrom f.parameter n i := by
  induction n generalizing i with
  | zero => rfl
  | succ n ih => simp only [parametersFrom, valuesFrom, ih]

theorem Frame.expressionsFrom_eq (f : Frame) (n i : Nat) :
    f.expressionsFrom n i = valuesFrom f.expression n i := by
  induction n generalizing i with
  | zero => rfl
  | succ n ih => simp only [expressionsFrom, valuesFrom, ih]

section ValuesFrom

variable {read : Nat → Except Fault Word} {n i : Nat} {vs : List Value}

/-- Values that were read are the tagged words, in their order. -/
theorem valuesFrom_ok (h : valuesFrom read n i = .ok vs) : vs.length = n ∧
    ∀ (j : Nat) v, vs[j]? = some v → read (i + j) = .ok (.tagged v) := by
  induction n generalizing i vs with
  | zero =>
    cases h
    exact ⟨rfl, by simp⟩
  | succ n ih =>
    obtain ⟨w, hw, h⟩ := Computation.except_bind_eq_ok h
    obtain ⟨v, hv, h⟩ := Computation.except_bind_eq_ok h
    obtain ⟨rest, hrest, h⟩ := Computation.except_bind_eq_ok h
    cases h
    obtain ⟨length, later⟩ := ih hrest
    refine ⟨by simp [length], fun j u hu => ?_⟩
    cases j with
    | zero =>
      cases hu
      cases w <;> cases hv
      exact hw
    | succ j =>
      have step : i + (j + 1) = i + 1 + j := by omega
      rw [step]
      exact later j u hu

/-- Words that are all tagged can be read. -/
theorem valuesFrom_of_tagged (tagged : ∀ j < n, ∃ v, read (i + j) = .ok (.tagged v)) :
    ∃ vs, valuesFrom read n i = .ok vs := by
  induction n generalizing i with
  | zero => exact ⟨[], rfl⟩
  | succ n ih =>
    obtain ⟨v, hv⟩ := tagged 0 (by omega)
    obtain ⟨vs, hvs⟩ := ih fun j hj => by
      have step : i + 1 + j = i + (j + 1) := by omega
      rw [step]
      exact tagged (j + 1) (by omega)
    refine ⟨v :: vs, ?_⟩
    rw [valuesFrom, show read i = .ok (.tagged v) from hv, hvs]
    rfl

end ValuesFrom

/-- A parameter is counted from above, below the receiver. -/
theorem Frame.parameter_eq {f : Frame} {i : Nat} (inside : i < f.parameterCount) (w : Word) :
    f.parameter i = .ok w ↔ f.words[f.size - 2 - i]? = some w := by
  have fits := f.fits
  unfold parameterCount at inside
  rw [parameter, if_pos (by unfold size; omega), slot]
  cases f.words[f.size - 2 - i]? with
  | none => simp
  | some x => simp

/-- An expression is counted from above. -/
theorem Frame.expression_eq {f : Frame} {i : Nat} (inside : i < f.expressionCount) (w : Word) :
    f.expression i = .ok w ↔ f.words[f.expressionCount - 1 - i]? = some w := by
  rw [expression, if_pos inside, slot]
  cases f.words[f.expressionCount - 1 - i]? with
  | none => simp
  | some x => simp

/-- Parameters that are all tagged can be read. -/
theorem Frame.parameterValues_of_tagged {f : Frame}
    (tagged : ∀ i < f.parameterCount, ∃ v, f.words[f.size - 2 - i]? = some (.tagged v)) :
    ∃ vs, f.parameterValues = .ok vs := by
  rw [parameterValues, parametersFrom_eq]
  refine valuesFrom_of_tagged fun i inside => ?_
  obtain ⟨v, hv⟩ := tagged i inside
  rw [Nat.zero_add]
  exact ⟨v, (parameter_eq inside _).mpr hv⟩

/-! ### Slots of rebuilt frames -/

namespace Rebuilt

variable {s : Scene} {prev : Option Frame} {opener : Command} {passed : List Int}
  {positions : List Position} {l : Layout} {f : Frame} {k : Nat}

theorem length_slots (h : Rebuilt s prev opener passed positions l f) : l.slots.length = f.size := by
  rw [← f.length_down, h.words, Layout.words, List.length_map]

/-- The slots of the parameters come first from above. -/
theorem at?_parameter (h : Rebuilt s prev opener passed positions l f)
    (inside : k < l.parameters.length) : l.at? (f.size - 1 - k) = l.parameters[k]? := by
  have less : k < l.slots.length := by
    rw [h.length_slots, h.size]
    omega
  rw [← h.length_slots, Layout.at?_down less, Layout.slots, Layout.upper, List.append_assoc,
    List.getElem?_append_left inside]

/-- The slots of the body come last from above. -/
theorem at?_body (inside : k < l.body.length) : l.at? (l.body.length - 1 - k) = l.body[k]? := by
  have length : l.slots.length = l.upper.length + l.body.length := List.length_append
  have place : l.body.length - 1 - k = l.slots.length - 1 - (l.upper.length + k) := by omega
  rw [place, Layout.at?_down (by omega), Layout.slots, List.getElem?_append_right (by omega),
    Nat.add_sub_cancel_left]

/-- A parameter of a rebuilt frame is a value. -/
theorem parameter_value {ps : List Recovered} (h : Rebuilt s prev opener passed positions l f)
    (parameters : l.parameters = ps.map .value) (inside : k < f.parameterCount) :
    ∃ v, l.at? (f.size - 2 - k) = some (.value v) := by
  have area := h.area
  unfold Frame.parameterCount at inside
  have slot : l.at? (f.size - 1 - (k + 1)) = l.parameters[k + 1]? := h.at?_parameter (by omega)
  have some' : k + 1 < ps.length := by
    rw [parameters, List.length_map] at area
    omega
  have offset : f.size - 1 - (k + 1) = f.size - 2 - k := by omega
  rw [parameters, List.getElem?_map, List.getElem?_eq_getElem some', offset] at slot
  exact ⟨_, slot⟩

theorem expressionCount (h : Rebuilt s prev opener passed positions l f) :
    f.expressionCount = l.body.length := by
  rw [Frame.expressionCount, h.size, h.area]
  omega

/-- An expression of a rebuilt frame is a value. -/
theorem expression_value {es : List Recovered} (h : Rebuilt s prev opener passed positions l f)
    (body : l.body = es.map .value) (inside : k < f.expressionCount) :
    ∃ v, l.at? (f.expressionCount - 1 - k) = some (.value v) := by
  rw [h.expressionCount] at inside ⊢
  have some' : k < es.length := by rwa [body, List.length_map] at inside
  rw [at?_body inside, body, List.getElem?_map, List.getElem?_eq_getElem some']
  exact ⟨_, rfl⟩

/-- The parameters and the body of a function's frame are values. -/
theorem javaScript (h : Rebuilt s prev opener passed positions l f) (type : f.type = .javaScript) :
    ∃ ps es : List Recovered, l.parameters = ps.map .value ∧ l.body = es.map .value ∧ 0 < ps.length := by
  have plan := h.plan
  rw [type] at plan
  cases h.described with
  | @javaScript _ _ _ _ _ parameters body function data =>
    refine ⟨parameters, body, rfl, rfl, ?_⟩
    simp [function, data] at plan
    omega
  | _ => simp at plan

/-- The parameters of an adaptor frame are values. -/
theorem adaptor (h : Rebuilt s prev opener passed positions l f) (type : f.type = .argumentsAdaptor) :
    ∃ ps : List Recovered, l.parameters = ps.map .value := by
  have plan := h.plan
  rw [type] at plan
  cases h.described with
  | @argumentsAdaptor _ _ _ parameters => exact ⟨parameters, rfl⟩
  | javaScript function data => simp [function, data] at plan
  | _ => simp at plan

end Rebuilt

/-! ### Arguments objects -/

namespace Bailout

variable {b b' : Bailout} {e e' : Engine}

/-- The parameters of adaptor frames are values. -/
structure Readable (b : Bailout) : Prop where
  tagged : ∀ (i : Nat) f, b.frames[i]? = some f → f.type = .argumentsAdaptor →
    ∀ t < f.parameterCount, ∃ v, b.word? i (f.size - 2 - t) = some (.tagged v)

/-- Words that are written are values. -/
theorem Readable.of_refills (readable : b.Readable) (refills : Refills b b' e e')
    (tagged : ∀ i o v, b.word? i o = some (.tagged v) → ∃ u, b'.word? i o = some (.tagged u)) :
    b'.Readable := ⟨by
  intro i g hg type t inside
  have same : (b.frames[i]?).map Frame.blank = some g.blank := by
    rw [← List.getElem?_map, ← refills.blank, List.getElem?_map, hg]
    rfl
  obtain ⟨f, hf, blank⟩ := Option.map_eq_some_iff.mp same
  have outline := Frame.outline_eq blank
  have type' : f.type = g.type := congrArg Outline.type outline
  have area : f.area = g.area := congrArg Outline.area outline
  have size : f.size = g.size := congrArg Outline.size outline
  have count : f.parameterCount = g.parameterCount := by rw [Frame.parameterCount, area]; rfl
  obtain ⟨v, hv⟩ := readable.tagged i f hf (type'.trans type) t (count ▸ inside)
  rw [size] at hv
  exact tagged i _ v hv⟩

theorem Readable.putValue (readable : b.Readable) (i o : Nat) (v : Value) :
    (b.putValue i o v).Readable := by
  refine @Readable.of_refills b _ default default readable
    ⟨rfl, putValue_blank .., rfl, .refl _⟩ ?_
  intro j p u hu
  rw [word?_putValue]
  split
  · exact ⟨v, by rw [hu]; rfl⟩
  · exact ⟨u, hu⟩

/-- The values of arguments can be read where the frames are readable. -/
theorem argumentValues_of_readable (readable : b.Readable) (d : DeferredArguments) :
    ∃ vs, b.argumentValues d = .ok vs := by
  unfold argumentValues
  cases before : b.adaptorBefore? d.frame with
  | none => exact ⟨_, rfl⟩
  | some a =>
    unfold adaptorBefore? at before
    cases hd : d.frame with
    | zero =>
      rw [hd] at before
      cases before
    | succ i =>
      rw [hd] at before
      obtain ⟨found, type⟩ := Option.filter_eq_some_iff.mp before
      refine Frame.parameterValues_of_tagged fun t inside => ?_
      have tagged := readable.tagged i a found (by simpa using type) t inside
      rwa [word?, found, Option.bind_some] at tagged

/-- Arguments objects can be made where the frames are readable and allocation is allowed. -/
theorem fillArguments_of_readable {ds : List DeferredArguments} {made : Table Nat Value}
    (allowed : e.heap.allocationAllowed = true) (readable : b.Readable) :
    ∃ b' e', b.fillArguments made ds e = (.ok b', e') := by
  induction ds generalizing b e made with
  | nil => exact ⟨b, e, rfl⟩
  | cons d ds ih =>
    rw [fillArguments]
    cases made.get? d.frame with
    | some v => exact ih allowed (readable.putValue ..)
    | none =>
      obtain ⟨vs, hvs⟩ := argumentValues_of_readable readable d
      obtain ⟨v, e₁, new⟩ : ∃ v e₁, b.newArgumentsFor d e = (.ok v, e₁) := by
        obtain ⟨text, parts⟩ := b.newArgumentsFor_eq d
        obtain ⟨id, heap, made⟩ := Heap.newArguments_of_allowed (g := e.heap)
          ((b.frame d.frame).function.getD .undefined) vs false allowed
        have object : Engine.onHeap (Heap.newArguments ((b.frame d.frame).function.getD .undefined) vs
            false) e = (.ok id, { e with heap }) := by simp [Engine.onHeap, made]
        obtain ⟨e₁, said⟩ := b.say_apply .bailout (text vs) { e with heap }
        refine ⟨.object id, e₁, ?_⟩
        rw [parts, hvs, Computation.liftM_ok_bind, Computation.bind_ok object, Computation.bind_ok said]
        rfl
      have allowed' : e₁.heap.allocationAllowed = true := by
        rw [(newArgumentsFor_ok new).2.1.allocation, allowed]
      obtain ⟨b', e', rest⟩ := @ih (b.putValue d.frame d.offset v) e₁ (made.insert d.frame v) allowed'
        (readable.putValue ..)
      exact ⟨b', e', (Computation.bind_ok new).trans rest⟩

/-- Rebuilt frames are readable. -/
theorem Readable.of_walked {s : Scene} {bytes : List UInt8} {count : UInt32}
    {records : List FrameRecord} {ls : List Layout}
    (w : Walked s bytes count records ls b.frames b.numbers b.arguments) : b.Readable := ⟨by
  intro i f hf type t inside
  obtain ⟨record, l, -, -, rebuilt⟩ := w.follows.rebuilt hf
  obtain ⟨ps, parameters⟩ := rebuilt.adaptor type
  obtain ⟨v, slot⟩ := rebuilt.parameter_value parameters inside
  rw [word?, hf, Option.bind_some, Layout.words_getElem? rebuilt.words, slot]
  exact ⟨_, rfl⟩⟩

/-- Materializing succeeds if allocation is allowed. -/
theorem materialize_of_readable (allowed : e.heap.allocationAllowed = true) (live : b.reason ≠ .debugger)
    (readable : b.Readable) (apart : b.numbers.Pairwise fun c d => c.frame = d.frame → c.offset ≠ d.offset) :
    ∃ b' e', b.materialize e = (.ok b', e') := by
  rw [materialize, if_neg live]
  obtain ⟨c, k, boxed⟩ := @fillNumbers_of_admits b e b.numbers fun _ _ => .inr allowed
  have refills := fillNumbers_refills boxed
  obtain ⟨-, filled, kept⟩ := fillNumbers_ok boxed apart
  have readable' : c.Readable := by
    refine readable.of_refills refills fun i o v hv => ?_
    by_cases waits : ∃ d ∈ b.numbers, d.frame = i ∧ d.offset = o
    · obtain ⟨d, hd, rfl, rfl⟩ := waits
      obtain ⟨u, hu, -⟩ := filled d hd (by rw [hv]; rfl)
      exact ⟨u, hu⟩
    · rw [kept i o fun d hd frame offset => waits ⟨d, hd, frame, offset⟩]
      exact ⟨v, hv⟩
  obtain ⟨b', e', made⟩ := @fillArguments_of_readable c k b.arguments {}
    (by rw [refills.retains.allocation, allowed]) readable'
  exact ⟨b', e', (Computation.bind_ok boxed).trans made⟩

/-! ### Whole bailouts -/

/-- A bailout with what a walk has built. -/
def rebuilt (b : Bailout) (n : Nat) (a : Assembly) : Bailout :=
  { b with frames := a.frames, frameCount := n, jsFrames := a.jsFrames, numbers := a.numbers
           arguments := a.arguments }

/-- A bailout rebuilds what the walk has built. -/
theorem rebuildFrames_of_run {data : BailoutData} {entry : BailoutEntry} {n : Nat} {a : Assembly}
    (known : (e.codeSpace.get b.code).bailouts = some data)
    (point : data.entries[b.entry]? = some entry)
    (run : Assembly.run (b.scene e data) { cursor := .start data.recipes entry.recipe } = (.ok n, a)) :
    ∃ e', b.rebuildFrames e = (.ok (b.rebuilt n a), e') := by
  have data' : (e.codeSpace.get b.code).bailoutData = .ok data := by simp [Code.bailoutData, known]
  have entry' : data.entry b.entry = .ok entry := by simp [BailoutData.entry, point]
  rw [rebuildFrames, Computation.get_bind]
  dsimp only
  rw [data', Computation.liftM_ok_bind, entry', Computation.liftM_ok_bind]
  obtain ⟨e₁, said⟩ := b.say_apply .bailout _ e
  have scene : b.scene e data =
      { heap := e.heap, codeSpace := e.codeSpace, reason := b.reason, code := e.codeSpace.get b.code,
        data, input := b.input, traced := b.traced } := rfl
  rw [Computation.bind_ok said, ← scene, run]
  dsimp only
  rw [Computation.modify_bind, Computation.liftM_ok_bind]
  cases a.frames.getLast? with
  | none => exact ⟨_, rfl⟩
  | some f =>
    obtain ⟨e₂, ended⟩ := b.say_apply .bailout _ _
    exact ⟨e₂, Computation.bind_ok ended⟩

end Bailout

/-- **A bailout succeeds if its frames can be rebuilt** and allocation is allowed. -/
theorem Engine.deoptimize_of_run {r : BailoutRequest} {e : Engine} {input : Frame} {code : CodeId}
    {data : BailoutData} {entry : BailoutEntry} {n : Nat} {a : Assembly}
    (top : e.stack.top? = some input) (reason : r.reason = .eager ∨ r.reason = .lazy)
    (leaves : (e.counted r).codeToLeave? r r.callee = some code)
    (known : (e.codeSpace.get code).bailouts = some data)
    (point : data.entries[r.entry]? = some entry)
    (run : Assembly.run (r.scene e input code data) { cursor := .start data.recipes entry.recipe } =
      (.ok n, a)) (allowed : e.heap.allocationAllowed = true) :
    ∃ res e', deoptimize r e = (.ok res, e') := by
  obtain ⟨b, e₁, begun⟩ := beginBailout_of_code input leaves
  obtain ⟨code', leaves', rfl, he₁⟩ := beginBailout_ok begun
  obtain rfl : code = code' := Option.some.inj (leaves.symm.trans leaves')
  have space : e₁.codeSpace = e.codeSpace := by rw [he₁, e.counted_keeps r]
  -- Beginning the bailout counts and logs it, so the recipe runs in the same scene.
  have scene := r.scene_eq input code data he₁
  rw [← scene] at run
  rw [← space] at known
  obtain ⟨e₂, rebuilt⟩ := Bailout.rebuildFrames_of_run known point run
  obtain ⟨-, -, -, -, -, -, -, -, he₂⟩ := Bailout.rebuildFrames_ok rebuilt
  have allowed₂ : e₂.heap.allocationAllowed = true := by
    rw [he₂, he₁]
    exact (e.counted_allocation r).trans allowed
  obtain ⟨count, records, ls, -, walked⟩ := Assembly.run_walked run
  -- The records are for different slots, so that each can be filled in whatever the others hold.
  have apart : a.numbers.Pairwise fun c d => c.frame = d.frame → c.offset ≠ d.offset := by
    rw [walked.numbers]
    exact Layout.pairwise_numbersFrom 0 ls
  obtain ⟨b', e₃, filled⟩ :=
    @Bailout.materialize_of_readable ((r.bailout input code _).rebuilt n a) e₂ allowed₂
      (r.reason_ne reason).2 (.of_walked walked) apart
  rw [deoptimize, Computation.bind_ok (topFrame_of_top _ top), Computation.bind_ok begun,
    r.rebuild_eq reason, Computation.bind_ok rebuilt, Computation.bind_ok filled]
  exact ⟨_, _, rfl⟩

end Speculation
