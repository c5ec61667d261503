import Speculation.Proofs.Bailout.Success
import Speculation.Proofs.Bailout.View

/-!
# The debugger's view agrees with a bailout

The debugger shows a function's frame by rebuilding it as a bailout would. `inspect_agrees` says that
it shows what the bailout would leave on the stack: the same function, where it would resume, and the
same parameters and expressions, up to objects that are new in either case (`ShownAs`).

The walks of both build the same frames (`Assembly.run_mirrors`). What is left is that a number which
waits for a word is shown where that word is: since the frames are stacked, an address belongs to one
word of one frame (`Stacked.address_inj`), and the ranges of the view cover exactly the words that it
shows.
-/

namespace Speculation

/-! ### Which frame is shown -/

/-- `f`, at place `j`, is the `k`th frame of a function. -/
structure NthFunction (fs : List Frame) (k j : Nat) (f : Frame) : Prop where
  found : fs[j]? = some f
  type : f.type = .javaScript
  before : (fs.take j).countP (·.type == .javaScript) = k

/-- The index that is found is that of the function counted to. -/
theorem jsFrameIndex?_eq_some {fs : List Frame} {k i m : Nat} (h : jsFrameIndex? k i fs = some m) :
    ∃ j f, m = i + j ∧ NthFunction fs k j f := by
  induction fs generalizing k i with
  | nil => cases h
  | cons g fs ih =>
    unfold jsFrameIndex? at h
    by_cases type : g.type = .javaScript
    · rw [if_pos type] at h
      cases k with
      | zero =>
        cases h
        exact ⟨0, g, rfl, rfl, type, rfl⟩
      | succ k =>
        obtain ⟨j, f, rfl, nth⟩ := ih h
        exact ⟨j + 1, f, by omega, nth.found, nth.type, by simp [type, nth.before]⟩
    · rw [if_neg type] at h
      obtain ⟨j, f, rfl, nth⟩ := ih h
      exact ⟨j + 1, f, by omega, nth.found, nth.type, by simp [type, nth.before]⟩

/-- Every function counted has an index. -/
theorem jsFrameIndex?_of_lt {fs : List Frame} {k : Nat} (i : Nat)
    (less : k < fs.countP (·.type == .javaScript)) : ∃ m, jsFrameIndex? k i fs = some m := by
  induction fs generalizing k i with
  | nil => simp at less
  | cons g fs ih =>
    unfold jsFrameIndex?
    by_cases type : g.type = .javaScript
    · rw [if_pos type]
      cases k with
      | zero => exact ⟨i, rfl⟩
      | succ k => exact ih (i + 1) (by simpa [type] using less)
    · rw [if_neg type]
      exact ih (i + 1) (by simpa [type] using less)

/-- Only the types of frames matter. -/
theorem jsFrameIndex?_congr {fs gs : List Frame} (types : gs.map (·.type) = fs.map (·.type))
    (k i : Nat) : jsFrameIndex? k i gs = jsFrameIndex? k i fs := by
  induction fs generalizing gs k i with
  | nil => rw [List.map_eq_nil_iff.mp types]
  | cons f fs ih =>
    obtain ⟨g, gs, rfl, type, rest⟩ := List.map_eq_cons_iff.mp types
    unfold jsFrameIndex?
    rw [type]
    split
    · cases k with
      | zero => rfl
      | succ k => exact ih rest ..
    · exact ih rest ..

/-- `g`, at place `i`, has the arguments of the function whose frame is at place `j`: it is an adaptor
frame right before that frame, or that frame itself. -/
inductive ArgumentsOf (fs : List Frame) (j : Nat) : Nat → Frame → Prop
  | adapted {i : Nat} {g : Frame} (next : j = i + 1) (found : fs[i]? = some g)
    (type : g.type = .argumentsAdaptor) : ArgumentsOf fs j i g
  | own {f : Frame} (found : fs[j]? = some f)
    (plain : ∀ i g, j = i + 1 → fs[i]? = some g → g.type ≠ .argumentsAdaptor) : ArgumentsOf fs j j f

theorem ArgumentsOf.found {fs : List Frame} {i j : Nat} {g : Frame} (h : ArgumentsOf fs j i g) :
    fs[i]? = some g := by
  cases h with
  | adapted _ found _ => exact found
  | own found _ => exact found

/-- Which frame has a function's arguments is a matter of the types of the frames. -/
theorem ArgumentsOf.of_types {fs gs : List Frame} {i j : Nat} {f g : Frame} (h : ArgumentsOf fs j i f)
    (types : gs.map (·.type) = fs.map (·.type)) (found : gs[i]? = some g) : ArgumentsOf gs j i g := by
  have same {m : Nat} {x y : Frame} (hx : fs[m]? = some x) (hy : gs[m]? = some y) : y.type = x.type := by
    have at' : (gs.map (·.type))[m]? = (fs.map (·.type))[m]? := by rw [types]
    simpa [hx, hy] using at'
  cases h with
  | adapted next found' type => exact .adapted next found ((same found' found).trans type)
  | own found' plain =>
    refine .own found fun m x next hx => ?_
    have inside : m < fs.length := by
      have length : gs.length = fs.length := by simpa using congrArg List.length types
      rw [← length]
      exact (List.getElem?_eq_some_iff.mp hx).1
    have hm : fs[m]? = some fs[m] := List.getElem?_eq_getElem inside
    rw [same hm hx]
    exact plain m _ next hm

namespace Bailout

theorem frame_eq {b : Bailout} {i : Nat} {f : Frame} (h : b.frames[i]? = some f) : b.frame i = f := by
  rw [frame, List.getD_eq_getElem?_getD, h]
  rfl

/-- The debugger takes the arguments from the frame that has them. -/
theorem argumentsFrame_eq {b : Bailout} {j : Nat} {f : Frame} (found : b.frames[j]? = some f) :
    ∃ i, ArgumentsOf b.frames j i (b.argumentsFrame j) := by
  unfold argumentsFrame precededBy
  -- The outermost frame has nothing before it; any other may have an adaptor.
  cases j with
  | zero =>
    refine ⟨0, ?_⟩
    rw [if_neg (by simp), frame_eq found]
    exact .own found fun i _ next => by omega
  | succ i =>
    have inside : i < b.frames.length := by
      have := (List.getElem?_eq_some_iff.mp found).1
      omega
    have hi : b.frames[i]? = some b.frames[i] := List.getElem?_eq_getElem inside
    rw [Nat.add_sub_cancel, frame_eq hi]
    split
    · rename_i adapted
      exact ⟨i, .adapted rfl hi (by simpa using adapted)⟩
    · rename_i plain
      refine ⟨i + 1, ?_⟩
      rw [frame_eq found]
      refine .own found fun m g next hg type => plain ?_
      obtain rfl : i = m := by omega
      rw [hi] at hg
      cases hg
      simp [type]

end Bailout

/-! ### Values of whole frames -/

namespace Frame

variable {f : Frame} {vs : List Value}

/-- The parameters are read off the area, from above. -/
theorem parameterValues_ok (h : f.parameterValues = .ok vs) : vs.length = f.parameterCount ∧
    ∀ (t : Nat) v, vs[t]? = some v → f.words[f.size - 2 - t]? = some (.tagged v) := by
  rw [parameterValues, parametersFrom_eq] at h
  obtain ⟨length, read⟩ := valuesFrom_ok h
  refine ⟨length, fun t v hv => ?_⟩
  have inside : t < f.parameterCount := by
    rw [← length]
    exact (List.getElem?_eq_some_iff.mp hv).1
  have word := read t v hv
  rw [Nat.zero_add] at word
  exact (parameter_eq inside _).mp word

/-- The expressions are read off the body, from above. -/
theorem expressionValues_ok (h : f.expressionValues = .ok vs) : vs.length = f.expressionCount ∧
    ∀ (t : Nat) v, vs[t]? = some v → f.words[f.expressionCount - 1 - t]? = some (.tagged v) := by
  rw [expressionValues, expressionsFrom_eq] at h
  obtain ⟨length, read⟩ := valuesFrom_ok h
  refine ⟨length, fun t v hv => ?_⟩
  have inside : t < f.expressionCount := by
    rw [← length]
    exact (List.getElem?_eq_some_iff.mp hv).1
  have word := read t v hv
  rw [Nat.zero_add] at word
  exact (expression_eq inside _).mp word

/-- Expressions that are all tagged can be read. -/
theorem expressionValues_of_tagged
    (tagged : ∀ t < f.expressionCount, ∃ v, f.words[f.expressionCount - 1 - t]? = some (.tagged v)) :
    ∃ vs, f.expressionValues = .ok vs := by
  rw [expressionValues, expressionsFrom_eq]
  refine valuesFrom_of_tagged fun t inside => ?_
  obtain ⟨v, hv⟩ := tagged t inside
  rw [Nat.zero_add]
  exact ⟨v, (expression_eq inside _).mpr hv⟩

end Frame

/-! ### Addresses -/

/-- An address belongs to one word of one frame. -/
theorem Stacked.address_inj {ceiling i j o p : Nat} {fs : List Frame} {f g : Frame}
    (h : Stacked ceiling fs) (hf : fs[i]? = some f) (hg : fs[j]? = some g) (ho : o < f.size)
    (hp : p < g.size) (same : f.addressOf o = g.addressOf p) : i = j ∧ o = p := by
  unfold Frame.addressOf at same
  rcases Nat.lt_trichotomy i j with less | rfl | more
  · have := h.le_top hf hg less
    omega
  · rw [hf] at hg
    cases hg
    exact ⟨rfl, by omega⟩
  · have := h.le_top hg hf more
    omega

/-! ### What the view shows -/

/-- How a value of a slot is shown. -/
def Recovered.ShownIn (h : Heap) : Recovered → Value → Prop
  | number d, y => h.IsNumber d y
  | v, y => y = v.placeholder

namespace Bailout

variable {b : Bailout} {ls : List Layout} {ceiling : Nat}

/-- A number that waits has a place in a frame. -/
theorem LaidOut.number {d : DeferredNumber} (laid : b.LaidOut ls) (hd : d ∈ b.numbers) : ∃ l,
    ls[d.frame]? = some l ∧ l.at? d.offset = some (.value (.number d.value)) := by
  rw [laid.numbers] at hd
  obtain ⟨l, -, hl, slot⟩ := Layout.mem_numbersFrom.mp hd
  exact ⟨l, hl, slot⟩

/-- A slot is a word of its frame. -/
theorem LaidOut.word {i o : Nat} {l : Layout} {slot : Slot} (laid : b.LaidOut ls)
    (hl : ls[i]? = some l) (hslot : l.at? o = some slot) :
    ∃ f, b.frames[i]? = some f ∧ f.words[o]? = some slot.content ∧ o < f.size := by
  have inside : i < b.frames.length := by
    rw [laid.length]
    exact (List.getElem?_eq_some_iff.mp hl).1
  have hf : b.frames[i]? = some b.frames[i] := List.getElem?_eq_getElem inside
  have word : b.frames[i].words[o]? = some slot.content := by
    rw [Layout.words_getElem? (laid.words i _ l hf hl), hslot]
    rfl
  exact ⟨_, hf, word, (List.getElem?_eq_some_iff.mp word).1⟩

/-- A number whose address is that of a slot waits for that slot. -/
theorem LaidOut.addressOf_eq {d : DeferredNumber} {i o : Nat} {l : Layout} {slot : Slot}
    (laid : b.LaidOut ls) (stacked : Stacked ceiling b.frames) (hd : d ∈ b.numbers)
    (hl : ls[i]? = some l) (hslot : l.at? o = some slot)
    (same : b.addressOf d = (b.frame i).addressOf o) : d.frame = i ∧ d.offset = o := by
  obtain ⟨l', hl', slot'⟩ := laid.number hd
  obtain ⟨f, hf, -, inside⟩ := laid.word hl' slot'
  obtain ⟨g, hg, -, inside'⟩ := laid.word hl hslot
  rw [addressOf, frame_eq hf, frame_eq hg] at same
  exact stacked.address_inj hf hg inside inside' same

/-- Numbers wait at different addresses. -/
theorem LaidOut.pairwise_addressOf (laid : b.LaidOut ls) (stacked : Stacked ceiling b.frames) :
    b.numbers.Pairwise fun c d => b.addressOf c ≠ b.addressOf d := by
  have apart : b.numbers.Pairwise fun c d => c.frame = d.frame → c.offset ≠ d.offset := by
    rw [laid.numbers]
    exact Layout.pairwise_numbersFrom 0 ls
  refine apart.imp_of_mem fun {c d} hc hd differ same => ?_
  obtain ⟨l, hl, slot⟩ := laid.number hd
  obtain ⟨frame, offset⟩ := laid.addressOf_eq stacked hc hl slot same
  exact differ frame offset

section Filled

variable {parameters expressions : SlotRange} {v w : FrameView} {e e' : Engine}

/-- What a place of the view shows, if the address of a slot belongs to it. -/
theorem shown_of_place {i o t : Nat} {l : Layout} {x : Recovered} (laid : b.LaidOut ls)
    (stacked : Stacked ceiling b.frames)
    (filled : ∀ d ∈ b.numbers, ∀ t, SlotRange.place? parameters expressions (b.addressOf d) = some t →
      ∃ n, w.shown[t]? = some n ∧ e'.heap.IsNumber d.value n)
    (kept : ∀ t, (∀ d ∈ b.numbers, SlotRange.place? parameters expressions (b.addressOf d) ≠ some t) →
      w.shown[t]? = v.shown[t]?)
    (hl : ls[i]? = some l) (hslot : l.at? o = some (.value x))
    (place : SlotRange.place? parameters expressions ((b.frame i).addressOf o) = some t)
    (before : v.shown[t]? = some x.placeholder) :
    ∃ y, w.shown[t]? = some y ∧ x.ShownIn e'.heap y := by
  -- A number at this place waits for this slot.
  have waits (d : DeferredNumber) (hd : d ∈ b.numbers)
      (there : SlotRange.place? parameters expressions (b.addressOf d) = some t) :
      x = .number d.value := by
    obtain ⟨frame, offset⟩ := laid.addressOf_eq stacked hd hl hslot (SlotRange.place?_inj there place)
    have slot := Layout.at?_of_number hl (laid.numbers ▸ hd) frame offset
    rw [hslot] at slot
    exact Slot.value.inj (Option.some.inj slot)
  cases x with
  | number d =>
    have waiting : (⟨i, o, d⟩ : DeferredNumber) ∈ b.numbers := by
      rw [laid.numbers]
      exact Layout.mem_numbersFrom.mpr ⟨l, Nat.zero_le _, hl, hslot⟩
    exact filled _ waiting t place
  | tagged u =>
    exact ⟨u, (kept t fun d hd there => nomatch waits d hd there).trans before, rfl⟩
  | arguments us =>
    exact ⟨.argumentsMarker, (kept t fun d hd there => nomatch waits d hd there).trans before, rfl⟩

variable {i j t : Nat} {f g : Frame}

/-- A view is made of what the frame says and of the values that are read. -/
theorem view_eq {es ps : List Value} (found : b.frames[j]? = some f)
    (expressions : f.expressionValues = .ok es)
    (parameters : (b.argumentsFrame j).parameterValues = .ok ps) : ∃ v, b.view j = .ok v ∧
      v.function = f.function.getD .undefined ∧ v.pc = f.pc ∧ v.parameters = ps ∧ v.expressions = es := by
  rw [view, frame_eq found, expressions, parameters]
  exact ⟨_, rfl, rfl, rfl, rfl, rfl⟩

/-- The addresses of parameters are those of the first range. -/
theorem place?_parameter (length : v.parameters.length = (b.argumentsFrame j).parameterCount)
    (inside : t < v.parameters.length) :
    SlotRange.place? (b.parameterRange j v) (b.expressionRange j v)
      ((b.argumentsFrame j).addressOf ((b.argumentsFrame j).size - 2 - t)) = some t := by
  have fits := (b.argumentsFrame j).fits
  rw [SlotRange.place?_eq_some]
  refine .inl ⟨?_, ?_⟩
  · simpa [parameterRange] using inside
  · simp only [parameterRange, Frame.addressOf, Frame.parameterCount, Frame.size] at *
    omega

/-- The addresses of expressions are those of the second range, and none is in the first. -/
theorem place?_expression (stacked : Stacked ceiling b.frames) (found : b.frames[j]? = some f)
    (area : 0 < f.area) (of : ArgumentsOf b.frames j i (b.argumentsFrame j))
    (parameters : v.parameters.length = (b.argumentsFrame j).parameterCount)
    (expressions : v.expressions.length = f.expressionCount) (inside : t < v.expressions.length) :
    SlotRange.place? (b.parameterRange j v) (b.expressionRange j v)
      (f.addressOf (f.expressionCount - 1 - t)) = some (v.parameters.length + t) := by
  -- The parameters stand above the expressions, in the same frame or in the one before.
  have above : f.addressOf (f.expressionCount - 1 - t) < (b.parameterRange j v).top := by
    unfold parameterRange
    generalize b.argumentsFrame j = g at of parameters
    have fits := g.fits
    unfold Frame.parameterCount at parameters
    unfold Frame.expressionCount at expressions
    simp only [Frame.addressOf, Frame.expressionCount, Frame.size] at *
    cases of with
    | adapted next found' _ =>
      have below := stacked.le_top found' found (by omega)
      unfold Frame.size at below
      omega
    | own found' _ =>
      rw [found] at found'
      cases found'
      omega
  have outside : (b.parameterRange j v).index? (f.addressOf (f.expressionCount - 1 - t)) = none :=
    if_neg fun inside => Nat.not_lt.mpr inside.1 above
  have size : (b.parameterRange j v).size = v.parameters.length + 1 := rfl
  have range : b.expressionRange j v = ⟨f.top, v.expressions.length⟩ := by
    rw [expressionRange, frame_eq found]
  rw [SlotRange.place?_eq_some]
  refine .inr ⟨outside, by omega, SlotRange.index?_eq_some.mpr ?_⟩
  rw [range, size, Frame.addressOf]
  dsimp only
  omega

/-- Before numbers are filled in, placeholders are shown. -/
theorem getElem?_of_word {vs : List Value} {w : Option Word} {x : Recovered} (inside : t < vs.length)
    (words : ∀ v, vs[t]? = some v → w = some (.tagged v)) (word : w = some (Slot.value x).content) :
    vs[t]? = some x.placeholder := by
  have value := words _ (List.getElem?_eq_getElem inside)
  rw [word] at value
  rw [List.getElem?_eq_getElem inside, Word.tagged.inj (Option.some.inj value)]

/-- The view of a frame, once the numbers are filled in, shows the slots of its frames. -/
theorem fillViews_shown (laid : b.LaidOut ls) (stacked : Stacked ceiling b.frames)
    (found : b.frames[j]? = some f) (area : 0 < f.area)
    (of : ArgumentsOf b.frames j i (b.argumentsFrame j))
    (parameters : (b.argumentsFrame j).parameterValues = .ok v.parameters)
    (expressions : f.expressionValues = .ok v.expressions)
    (h : b.numbers.foldlM (b.fillView (b.parameterRange j v) (b.expressionRange j v)) v e =
      (.ok w, e')) :
    v.SameFrame w ∧ e.Keeps e' ∧ e.heap.AddsNumbers e'.heap w.shown ∧
      (∀ t l x, ls[i]? = some l → t < (b.argumentsFrame j).parameterCount →
        l.at? ((b.argumentsFrame j).size - 2 - t) = some (.value x) →
        ∃ y, w.parameters[t]? = some y ∧ x.ShownIn e'.heap y) ∧
      ∀ t l x, ls[j]? = some l → t < f.expressionCount →
        l.at? (f.expressionCount - 1 - t) = some (.value x) →
        ∃ y, w.expressions[t]? = some y ∧ x.ShownIn e'.heap y := by
  obtain ⟨parameters', words⟩ := Frame.parameterValues_ok parameters
  obtain ⟨expressions', words'⟩ := Frame.expressionValues_ok expressions
  have range : b.expressionRange j v = ⟨f.top, v.expressions.length⟩ := by
    rw [expressionRange, frame_eq found]
  obtain ⟨same, keeps, adds, -, filled, kept⟩ :=
    fillViews_ok h rfl (by rw [range]) (laid.pairwise_addressOf stacked)
  -- Shown values are listed parameters first, so a place among them and one among the
  -- expressions differ by the number of parameters.
  refine ⟨same, keeps, adds, ?_, ?_⟩
  · intro t l x hl inside hslot
    obtain ⟨g, hg, word, -⟩ := laid.word hl hslot
    obtain rfl : b.argumentsFrame j = g := Option.some.inj (of.found.symm.trans hg)
    have inside' : t < v.parameters.length := parameters' ▸ inside
    have here := getElem?_of_word inside' (words t) word
    have place := place?_parameter parameters' inside'
    obtain ⟨y, hy, shown⟩ := shown_of_place laid stacked filled kept hl hslot (by rwa [frame_eq hg])
      (by rw [FrameView.shown, List.getElem?_append_left inside', here])
    refine ⟨y, ?_, shown⟩
    rwa [FrameView.shown, List.getElem?_append_left (by rw [same.parameters]; exact inside')] at hy
  · intro t l x hl inside hslot
    obtain ⟨g, hg, word, -⟩ := laid.word hl hslot
    obtain rfl : f = g := Option.some.inj (found.symm.trans hg)
    have inside' : t < v.expressions.length := expressions' ▸ inside
    have here := getElem?_of_word inside' (words' t) word
    have place := place?_expression stacked found area of parameters' expressions' inside'
    obtain ⟨y, hy, shown⟩ := shown_of_place laid stacked filled kept hl hslot (by rwa [frame_eq hg])
      (by rw [FrameView.shown, List.getElem?_append_right (by omega), Nat.add_sub_cancel_left, here])
    refine ⟨y, ?_, shown⟩
    rwa [FrameView.shown, ← same.parameters, List.getElem?_append_right (by omega),
      Nat.add_sub_cancel_left] at hy

end Filled

end Bailout

/-! ### Looking and leaving -/

/-- The frame on top of the stack is stopped at the bailout point with index `i` of the code `c`, the
first one at its pc. -/
structure StoppedAt (e : Engine) (frame : Frame) (c : CodeId) (data : BailoutData) (i : Nat)
    (entry : BailoutEntry) : Prop where
  top : e.stack.top? = some frame
  function : frame.function.isSome
  code : e.codeSpace.find? frame.pc = some c
  known : (e.codeSpace.get c).bailouts = some data
  first : data.entryAtPc? (frame.pc - (e.codeSpace.get c).start) = some i
  point : data.entries[i]? = some entry

/-- The view of the `k`th function frame, with its numbers. -/
def Bailout.viewNth (b : Bailout) (k : Nat) : Engine.Action FrameView := do
  match jsFrameIndex? k 0 b.frames with
  | none => throw (.violated (.jsFrameOutOfRange k b.jsFrames))
  | some j =>
    let v ← b.view j
    b.numbers.foldlM (b.fillView (b.parameterRange j v) (b.expressionRange j v)) v

/-- How a view comes about. -/
theorem Bailout.viewNth_ok {b : Bailout} {k : Nat} {w : FrameView} {e e' : Engine}
    (h : b.viewNth k e = (.ok w, e')) : ∃ j f v, NthFunction b.frames k j f ∧
      (b.argumentsFrame j).parameterValues = .ok v.parameters ∧
      f.expressionValues = .ok v.expressions ∧ v.function = f.function.getD .undefined ∧
      v.hasAdaptor = b.precededBy j 1 .argumentsAdaptor ∧
      b.numbers.foldlM (b.fillView (b.parameterRange j v) (b.expressionRange j v)) v e = (.ok w, e') := by
  unfold viewNth at h
  cases index : jsFrameIndex? k 0 b.frames with
  | none =>
    rw [index] at h
    cases h
  | some m =>
    rw [index] at h
    obtain ⟨j, f, rfl, nth⟩ := jsFrameIndex?_eq_some index
    rw [Nat.zero_add] at h
    obtain ⟨v, e₁, view, h⟩ := Computation.bind_eq_ok h
    obtain rfl : e = e₁ := congrArg Prod.snd view
    replace view : b.view j = .ok v := congrArg Prod.fst view
    rw [Bailout.view, frame_eq nth.found] at view
    obtain ⟨es, expressions, view⟩ := Computation.except_bind_eq_ok view
    obtain ⟨ps, parameters, view⟩ := Computation.except_bind_eq_ok view
    cases view
    exact ⟨j, f, _, nth, parameters, expressions, rfl, rfl, h⟩

theorem Heap.SameFunctions.refl (h : Heap) : h.SameFunctions h :=
  ⟨fun _ => rfl, fun _ => rfl, fun _ => rfl, fun _ => rfl⟩

theorem Heap.SameFunctions.modifyShared (h : Heap) (s : SharedId) {f : SharedInfo → SharedInfo}
    (name : ∀ x, (f x).name = x.name) (formals : ∀ x, (f x).formals = x.formals)
    (code : ∀ x, (f x).code = x.code) : (h.modifyShared s f).SameFunctions h := by
  have info (i : SharedId) : (h.modifyShared s f).sharedInfo i = h.sharedInfo i ∨
      (h.modifyShared s f).sharedInfo i = f (h.sharedInfo i) := by
    by_cases inside : i.index < h.shared.size
    · simp only [Heap.modifyShared, sharedInfo, Array.getD_eq_getD_getElem?, Array.getElem?_modify]
      split
      · exact .inr (by simp [inside])
      · exact .inl rfl
    · exact .inl (by simp [Heap.modifyShared, sharedInfo, inside])
  refine ⟨fun _ => rfl, fun i => ?_, fun i => ?_, fun i => ?_⟩
  all_goals
    rcases info i with same | same
    · rw [same]
    · rw [same]
      simp [name, formals, code]

namespace Engine

variable {r : BailoutRequest} {e e₁ : Engine} {frame : Frame} {c : CodeId} {data : BailoutData}
  {i k n : Nat} {entry : BailoutEntry} {a : Assembly}

/-- Counting a bailout changes nothing that the walk reads. -/
theorem counted_sameFunctions (e : Engine) (r : BailoutRequest) :
    (e.counted r).heap.SameFunctions e.heap := by
  unfold counted countBailout
  split
  · split
    · split
      · exact .refl _
      · exact .modifyShared _ _ (fun _ => rfl) (fun _ => rfl) fun _ => rfl
    · exact .refl _
  · exact .refl _

/-- Counting a bailout does not change which code it leaves. -/
theorem codeToLeave?_counted (e : Engine) (r : BailoutRequest) :
    (e.counted r).codeToLeave? r r.callee = e.codeToLeave? r r.callee := by
  have current : (e.counted r).currentCode? r.callee = e.currentCode? r.callee := by
    unfold currentCode?
    congr 1
    cases r.callee with
    | none => rfl
    | some f => exact ((e.counted_sameFunctions r).data f).symm
  unfold codeToLeave?
  rw [current, e.counted_keeps r]

/-- Looking is not counted. -/
theorem counted_debugger (e : Engine) (debugger : r.reason = .debugger) : e.counted r = e := by
  unfold counted
  cases r.callee with
  | none => rfl
  | some f => simp [debugger]

/-- What the debugger's walk reads. -/
def inspection (e : Engine) (frame : Frame) (c : CodeId) (data : BailoutData) : Scene :=
  { heap := e.heap, codeSpace := e.codeSpace, reason := .debugger, code := e.codeSpace.get c, data
    input := frame, traced := e.tracesBailout .debugger }

/-- The debugger's walk reads the same as that of a bailout. -/
theorem inspected_scene (e : Engine) (reason : r.reason = .eager ∨ r.reason = .lazy) (frame : Frame)
    (c : CodeId) (data : BailoutData) :
    (r.scene e frame c data).inspected e.heap = e.inspection frame c data := by
  have config : (e.counted r).config = e.config := by rw [e.counted_keeps r]
  simp only [BailoutRequest.scene, Scene.inspected, inspection, tracesBailout, config,
    if_neg (r.reason_ne reason).1]
  rfl

/-- Looking rebuilds the frames, and then shows one of them. -/
theorem inspect_eq (stopped : StoppedAt e frame c data i entry) (k : Nat) :
    ∃ (b : Bailout) (e₁ : Engine), e₁ = { e with trace := e₁.trace } ∧
      b.scene e₁ data = e.inspection frame c data ∧
      (e₁.codeSpace.get b.code).bailouts = some data ∧ data.entries[b.entry]? = some entry ∧
      inspect k e = (b.rebuildFrames >>= fun b => b.viewNth k) e₁ := by
  obtain ⟨function, known⟩ := Option.isSome_iff_exists.mp stopped.function
  have data' : (e.codeSpace.get c).bailoutData = .ok data := by simp [Code.bailoutData, stopped.known]
  -- An inspection is a bailout that is neither counted nor resumed.
  let rd : BailoutRequest :=
    { reason := .debugger, function := some function, entry := i, address := frame.pc, code := some c }
  have uncounted : e.counted rd = e := e.counted_debugger rfl
  have leaves : (e.counted rd).codeToLeave? rd rd.callee = some c := rfl
  obtain ⟨b, e₁, begun⟩ := beginBailout_of_code frame leaves
  obtain ⟨c', leaves', rfl, he₁⟩ := beginBailout_ok begun
  obtain rfl : c = c' := Option.some.inj (leaves.symm.trans leaves')
  have space : e₁.codeSpace = e.codeSpace := by rw [he₁, uncounted]
  let b := rd.bailout frame c ((e.counted rd).tracesBailout rd.reason)
  refine ⟨b, e₁, ?_, ?_, ?_, stopped.point, ?_⟩
  · rw [he₁, uncounted]
  · rw [rd.scene_eq frame c data he₁, BailoutRequest.scene, uncounted]
    rfl
  · rw [space]
    exact stopped.known
  · rw [inspect, Computation.bind_ok (topFrame_of_top _ stopped.top), inspectFrame,
      Computation.get_bind, known]
    dsimp only
    rw [stopped.code]
    dsimp only
    rw [data', Computation.liftM_ok_bind, stopped.first]
    dsimp only
    rw [Computation.bind_ok begun]
    rfl

/-- Looking at frames that can be rebuilt. -/
theorem inspect_of_run (stopped : StoppedAt e frame c data i entry)
    (run : Assembly.run (e.inspection frame c data) { cursor := .start data.recipes entry.recipe } =
      (.ok n, a)) (k : Nat) :
    ∃ (b : Bailout) (e₁ : Engine), e₁ = { e with trace := e₁.trace } ∧ b.frames = a.frames ∧
      b.numbers = a.numbers ∧ b.arguments = a.arguments ∧ inspect k e = b.viewNth k e₁ := by
  obtain ⟨b, e₁, begun, scene, known, point, looks⟩ := inspect_eq stopped k
  rw [← scene] at run
  obtain ⟨e₂, rebuilt⟩ := Bailout.rebuildFrames_of_run known point run
  obtain ⟨-, -, -, -, -, -, -, -, he₂⟩ := Bailout.rebuildFrames_ok rebuilt
  refine ⟨b.rebuilt n a, e₂, ?_, rfl, rfl, rfl, ?_⟩
  · rw [he₂, begun]
  · rw [looks, Computation.bind_ok rebuilt]

/-- What was looked at could be rebuilt. -/
theorem inspect_ok {v : FrameView} {e₂ : Engine} (stopped : StoppedAt e frame c data i entry)
    (h : inspect k e = (.ok v, e₂)) : ∃ (n : Nat) (a : Assembly) (b : Bailout) (e₁ : Engine),
      Assembly.run (e.inspection frame c data) { cursor := .start data.recipes entry.recipe } =
        (.ok n, a) ∧
      e₁ = { e with trace := e₁.trace } ∧ b.frames = a.frames ∧ b.numbers = a.numbers ∧
      b.arguments = a.arguments ∧ b.viewNth k e₁ = (.ok v, e₂) := by
  obtain ⟨b, e₁, begun, scene, known, point, looks⟩ := inspect_eq stopped k
  rw [looks] at h
  obtain ⟨b', e₁', rebuilt, h⟩ := Computation.bind_eq_ok h
  obtain ⟨data', entry', n, a, known', point', run, rfl, quiet⟩ := Bailout.rebuildFrames_ok rebuilt
  obtain rfl : data = data' := Option.some.inj (known.symm.trans known')
  obtain rfl : entry = entry' := Option.some.inj (point.symm.trans point')
  rw [scene] at run
  exact ⟨n, a, _, e₁', run, by rw [quiet, begun], rfl, rfl, rfl, h⟩

end Engine

/-! ### Agreement -/

/-- How the value `x` that a bailout leaves at an offset of a frame is shown: numbers and arguments
objects that wait in the walk `a` are new in the bailout's heap `h` and, if they are shown, in the
debugger's heap `h'`. -/
inductive ShownAs (a : Assembly) (h h' : Heap) (frame offset : Nat) (x y : Value) : Prop
  | number {d : Double} (waits : (⟨frame, offset, d⟩ : DeferredNumber) ∈ a.numbers)
    (left : h.IsNumber d x) (shown : h'.IsNumber d y)
  | arguments {vs : List Value} (waits : (⟨frame, offset, vs⟩ : DeferredArguments) ∈ a.arguments)
    (left : h.isArguments x = true) (shown : y = .argumentsMarker)
  | same (noNumber : ∀ d ∈ a.numbers, d.frame = frame → d.offset ≠ offset)
    (noArguments : ∀ d ∈ a.arguments, d.frame = frame → d.offset ≠ offset) (shown : y = x)

/-- Values at offsets of a frame, all shown. -/
structure ShownAll (a : Assembly) (h h' : Heap) (frame : Nat) (offset : Nat → Nat)
    (xs ys : List Value) : Prop where
  length : ys.length = xs.length
  each : ∀ (t : Nat) x y, xs[t]? = some x → ys[t]? = some y → ShownAs a h h' frame (offset t) x y

/-- A view shows the `k`th function among the frames `fs` that a bailout has left: its frame is `f`,
and `g` has its arguments. -/
structure Shows (a : Assembly) (h h' : Heap) (fs : List Frame) (k : Nat) (v : FrameView) (j i : Nat)
    (f g : Frame) : Prop where
  nth : NthFunction fs k j f
  arguments : ArgumentsOf fs j i g
  function : f.function = some v.function
  pc : v.pc = f.pc
  parameters : ∃ xs, g.parameterValues = .ok xs ∧
    ShownAll a h h' i (fun t => g.size - 2 - t) xs v.parameters
  expressions : ∃ xs, f.expressionValues = .ok xs ∧
    ShownAll a h h' j (fun t => f.expressionCount - 1 - t) xs v.expressions

section Shown

variable {a : Assembly} {h h' : Heap} {ls : List Layout} {l : Layout} {i o n : Nat} {f g : Frame}

/-- What fills a slot is shown as the debugger shows the value of the slot. -/
theorem ShownAs.of_slot {x y : Value} {v : Recovered} (numbers : a.numbers = Layout.numbersFrom 0 ls)
    (arguments : a.arguments = Layout.argumentsFrom 0 ls) (hl : ls[i]? = some l)
    (hslot : l.at? o = some (.value v)) (left : (Slot.value v).Holds h (.tagged x))
    (shown : v.ShownIn h' y) : ShownAs a h h' i o x y := by
  cases v with
  | number d =>
    obtain ⟨_, same, number⟩ := left
    cases same
    have waits : (⟨i, o, d⟩ : DeferredNumber) ∈ a.numbers := by
      rw [numbers]
      exact Layout.mem_numbersFrom.mpr ⟨l, Nat.zero_le _, hl, hslot⟩
    exact .number waits number shown
  | arguments vs =>
    obtain ⟨_, same, object⟩ := left
    cases same
    have waits : (⟨i, o, vs⟩ : DeferredArguments) ∈ a.arguments := by
      rw [arguments]
      exact Layout.mem_argumentsFrom.mpr ⟨l, Nat.zero_le _, hl, hslot⟩
    exact .arguments waits object shown
  | tagged u =>
    cases left
    refine .same (fun d hd frame offset => ?_) (fun d hd frame offset => ?_) shown
    · have waits := Layout.at?_of_number hl (numbers ▸ hd) frame offset
      rw [hslot] at waits
      cases waits
    · have waits := Layout.at?_of_arguments hl (arguments ▸ hd) frame offset
      rw [hslot] at waits
      cases waits

/-- What fills the slots of a frame is shown. -/
theorem ShownAll.of_slots {offset : Nat → Nat} {xs ys : List Value}
    (numbers : a.numbers = Layout.numbersFrom 0 ls) (arguments : a.arguments = Layout.argumentsFrom 0 ls)
    (hl : ls[i]? = some l) (filled : l.Filled h f g)
    (slots : ∀ t < n, ∃ v, l.at? (offset t) = some (.value v)) (length : xs.length = n)
    (words : ∀ (t : Nat) x, xs[t]? = some x → g.words[offset t]? = some (.tagged x))
    (length' : ys.length = n)
    (shown : ∀ t v, t < n → l.at? (offset t) = some (.value v) → ∃ y, ys[t]? = some y ∧ v.ShownIn h' y) :
    ShownAll a h h' i offset xs ys := by
  refine ⟨length'.trans length.symm, fun t x y hx hy => ?_⟩
  have inside : t < n := by
    rw [← length]
    exact (List.getElem?_eq_some_iff.mp hx).1
  obtain ⟨v, slot⟩ := slots t inside
  obtain ⟨w, hw, holds⟩ := filled.holds _ _ slot
  rw [words t x hx] at hw
  cases hw
  obtain ⟨y', hy', shown⟩ := shown t v inside slot
  rw [hy] at hy'
  cases hy'
  exact .of_slot numbers arguments hl slot holds shown

/-- Where a value was to be placed, there is a tagged word. -/
theorem Layout.Filled.tagged {v : Recovered} (filled : l.Filled h f g)
    (slot : l.at? o = some (.value v)) : ∃ x, g.words[o]? = some (.tagged x) := by
  obtain ⟨w, hw, holds⟩ := filled.holds _ _ slot
  cases v with
  | tagged u =>
    cases holds
    exact ⟨u, hw⟩
  | number _ | arguments _ =>
    obtain ⟨x, rfl, -⟩ := holds
    exact ⟨x, hw⟩

theorem Layout.Filled.size (filled : l.Filled h f g) : g.size = f.size :=
  congrArg Outline.size (Frame.outline_eq filled.blank)

theorem Layout.Filled.area (filled : l.Filled h f g) : g.area = f.area :=
  congrArg Outline.area (Frame.outline_eq filled.blank)

theorem Layout.Filled.parameterCount (filled : l.Filled h f g) :
    g.parameterCount = f.parameterCount := by
  rw [Frame.parameterCount, filled.area, Frame.parameterCount]

theorem Layout.Filled.expressionCount (filled : l.Filled h f g) :
    g.expressionCount = f.expressionCount := by
  rw [Frame.expressionCount, filled.size, filled.area, Frame.expressionCount]

end Shown

section Agreement

variable {r : BailoutRequest} {e e₁ : Engine} {res : Resumption} {input : Frame} {c : CodeId}
  {data : BailoutData} {entry : BailoutEntry} {a : Assembly} {count : UInt32}
  {records : List FrameRecord} {ls : List Layout} {i k : Nat}

/-- The frames that a bailout leaves are of the types that the walk has given them. -/
theorem Departs.types (d : Departs r e e₁ res input c data entry a count records ls) :
    res.frames.map (·.type) = a.frames.map (·.type) := by
  apply List.ext_getElem
  · simpa using d.length
  · intro i inside _
    rw [List.length_map] at inside
    obtain ⟨f, _, _, hf, -, -, -, filled⟩ := d.frame (List.getElem?_eq_getElem inside)
    obtain ⟨_, same⟩ := List.getElem?_eq_some_iff.mp hf
    rw [List.getElem_map, List.getElem_map, same]
    exact congrArg Outline.type (Frame.outline_eq filled.blank)

/-- The frames that the debugger's walk builds, as those of a bailout. -/
structure Mirrored (b : Bailout) (a : Assembly) : Prop where
  frames : b.frames = a.frames.map Frame.unresumed
  numbers : b.numbers = a.numbers
  arguments : b.arguments = a.arguments

/-- The debugger's frames are laid out like those of the bailout. -/
theorem Mirrored.laidOut {b : Bailout} (m : Mirrored b a)
    (d : Departs r e e₁ res input c data entry a count records ls) : b.LaidOut ls where
  length := by rw [m.frames, List.length_map, d.walked.follows.length.2, d.walked.follows.length.1]
  words j f l hf hl := by
    rw [m.frames, List.getElem?_map] at hf
    obtain ⟨f', hf', rfl⟩ := Option.map_eq_some_iff.mp hf
    obtain ⟨_, l', -, hl', rebuilt⟩ := d.walked.follows.rebuilt hf'
    rw [hl] at hl'
    cases hl'
    exact rebuilt.words
  numbers := m.numbers.trans d.walked.numbers
  arguments := m.arguments.trans d.walked.arguments

theorem Mirrored.frame {b : Bailout} {n : Nat} {f : Frame} (m : Mirrored b a)
    (hf : a.frames[n]? = some f) : b.frames[n]? = some f.unresumed := by
  rw [m.frames, List.getElem?_map, hf]
  rfl

/-- A frame that a bailout has left, and the parts of the walk that it comes from. -/
structure Source (a : Assembly) (ls : List Layout) (h : Heap) (n : Nat) (g f : Frame) (l : Layout) :
    Prop where
  walked : a.frames[n]? = some f
  layout : ls[n]? = some l
  words : f.down = l.words
  filled : l.Filled h f g
  parameters : f.type = .javaScript ∨ f.type = .argumentsAdaptor →
    ∀ t < f.parameterCount, ∃ v, l.at? (f.size - 2 - t) = some (.value v)
  expressions : f.type = .javaScript →
    ∀ t < f.expressionCount, ∃ v, l.at? (f.expressionCount - 1 - t) = some (.value v)
  known : f.type = .javaScript → f.function.isSome ∧ 0 < f.area

/-- Each frame that a bailout has left is one that the walk has built and that was filled in. -/
theorem Departs.source {n : Nat} {g : Frame}
    (d : Departs r e e₁ res input c data entry a count records ls) (hg : res.frames[n]? = some g) :
    ∃ f l, Source a ls e₁.heap n g f l := by
  obtain ⟨f, _, l, hf, -, hl, rebuilt, filled⟩ := d.frame hg
  refine ⟨f, l, hf, hl, rebuilt.words, filled, ?_, ?_, ?_⟩
  · rintro (type | type)
    · obtain ⟨ps, -, parameters, -⟩ := rebuilt.javaScript type
      exact fun t ht => rebuilt.parameter_value parameters ht
    · obtain ⟨ps, parameters⟩ := rebuilt.adaptor type
      exact fun t ht => rebuilt.parameter_value parameters ht
  · intro type
    obtain ⟨-, es, -, body, -⟩ := rebuilt.javaScript type
    exact fun t ht => rebuilt.expression_value body ht
  · intro type
    obtain ⟨ps, -, parameters, -, positive⟩ := rebuilt.javaScript type
    have known := rebuilt.function type
    refine ⟨by simpa using congrArg Option.isSome known, ?_⟩
    rwa [rebuilt.area, parameters, List.length_map]

namespace Source

variable {h h' : Heap} {n : Nat} {f g : Frame} {l : Layout}

theorem type (s : Source a ls h n g f l) : g.type = f.type :=
  congrArg Outline.type (Frame.outline_eq s.filled.blank)

/-- Before anything is filled in, values are placeholders. -/
theorem placeholder {o : Nat} (s : Source a ls h n g f l) {v : Recovered}
    (slot : l.at? o = some (.value v)) : ∃ x, f.words[o]? = some (.tagged x) := by
  rw [Layout.words_getElem? s.words, slot]
  exact ⟨_, rfl⟩

/-- The placeholders of parameters can be read. -/
theorem reads_parameters (s : Source a ls h n g f l)
    (type : f.type = .javaScript ∨ f.type = .argumentsAdaptor) :
    ∃ vs, f.unresumed.parameterValues = .ok vs := by
  refine Frame.parameterValues_of_tagged fun t ht => ?_
  obtain ⟨v, slot⟩ := s.parameters type t ht
  exact s.placeholder slot

/-- The placeholders of expressions can be read. -/
theorem reads_expressions (s : Source a ls h n g f l) (type : f.type = .javaScript) :
    ∃ vs, f.unresumed.expressionValues = .ok vs := by
  refine Frame.expressionValues_of_tagged fun t ht => ?_
  obtain ⟨v, slot⟩ := s.expressions type t ht
  exact s.placeholder slot

/-- The parameters of a frame are shown as the bailout has left them. -/
theorem shows_parameters {ys : List Value} (s : Source a ls h n g f l)
    (numbers : a.numbers = Layout.numbersFrom 0 ls) (arguments : a.arguments = Layout.argumentsFrom 0 ls)
    (type : f.type = .javaScript ∨ f.type = .argumentsAdaptor) (length : ys.length = f.parameterCount)
    (shown : ∀ t v, t < f.parameterCount → l.at? (f.size - 2 - t) = some (.value v) →
      ∃ y, ys[t]? = some y ∧ v.ShownIn h' y) :
    ∃ xs, g.parameterValues = .ok xs ∧ ShownAll a h h' n (fun t => g.size - 2 - t) xs ys := by
  have count := s.filled.parameterCount
  have slots := s.parameters type
  rw [← count, ← s.filled.size] at slots shown
  obtain ⟨xs, hxs⟩ := Frame.parameterValues_of_tagged (f := g) fun t ht => by
    obtain ⟨v, slot⟩ := slots t ht
    exact s.filled.tagged slot
  obtain ⟨length', words⟩ := Frame.parameterValues_ok hxs
  exact ⟨xs, hxs, .of_slots numbers arguments s.layout s.filled slots length' words
    (length.trans count.symm) shown⟩

/-- The expressions of a frame are shown as the bailout has left them. -/
theorem shows_expressions {ys : List Value} (s : Source a ls h n g f l)
    (numbers : a.numbers = Layout.numbersFrom 0 ls) (arguments : a.arguments = Layout.argumentsFrom 0 ls)
    (type : f.type = .javaScript) (length : ys.length = f.expressionCount)
    (shown : ∀ t v, t < f.expressionCount → l.at? (f.expressionCount - 1 - t) = some (.value v) →
      ∃ y, ys[t]? = some y ∧ v.ShownIn h' y) :
    ∃ xs, g.expressionValues = .ok xs ∧
      ShownAll a h h' n (fun t => g.expressionCount - 1 - t) xs ys := by
  have count := s.filled.expressionCount
  have slots := s.expressions type
  rw [← count] at slots shown
  obtain ⟨xs, hxs⟩ := Frame.expressionValues_of_tagged (f := g) fun t ht => by
    obtain ⟨v, slot⟩ := slots t ht
    exact s.filled.tagged slot
  obtain ⟨length', words⟩ := Frame.expressionValues_ok hxs
  exact ⟨xs, hxs, .of_slots numbers arguments s.layout s.filled slots length' words
    (length.trans count.symm) shown⟩

end Source

/-- The frame that has the arguments of a function is one that the bailout has left. -/
theorem Mirrored.argumentsSource {b : Bailout} {h : Heap} {i j : Nat} {f g : Frame} {l : Layout}
    (m : Mirrored b a) (d : Departs r e e₁ res input c data entry a count records ls)
    (types : res.frames.map (·.type) = b.frames.map (·.type)) (body : Source a ls h j g f l)
    (type : f.type = .javaScript) (of : ArgumentsOf b.frames j i (b.argumentsFrame j)) :
    ∃ g g₀ l', res.frames[i]? = some g ∧ Source a ls e₁.heap i g g₀ l' ∧
      b.argumentsFrame j = g₀.unresumed ∧ (g₀.type = .javaScript ∨ g₀.type = .argumentsAdaptor) := by
  obtain ⟨g, hg⟩ : ∃ g, res.frames[i]? = some g := by
    have inside : i < res.frames.length := by
      have length := congrArg List.length types
      rw [List.length_map, List.length_map] at length
      rw [length]
      exact (List.getElem?_eq_some_iff.mp of.found).1
    exact ⟨_, List.getElem?_eq_getElem inside⟩
  obtain ⟨g₀, l', head⟩ := d.source hg
  have holder : b.argumentsFrame j = g₀.unresumed :=
    Option.some.inj (of.found.symm.trans (m.frame head.walked))
  refine ⟨g, g₀, l', hg, head, holder, ?_⟩
  have same : (b.argumentsFrame j).type = g₀.type := by rw [holder]; rfl
  rw [← same]
  cases of with
  | adapted _ _ type => exact .inr type
  | own found _ =>
    rw [m.frame body.walked] at found
    exact .inl ((congrArg Frame.type (Option.some.inj found)).symm.trans type)

/-- The debugger shows a function's frame as a bailout leaves it. -/
theorem Mirrored.viewNth {b : Bailout} {e' : Engine} {ceiling : Nat} (m : Mirrored b a)
    (stacked : Stacked ceiling b.frames)
    (d : Departs r e e₁ res input c data entry a count records ls)
    (admitted : ∀ d ∈ a.numbers, e'.heap.AdmitsNumber d.value)
    (less : k < res.frames.countP (·.type == .javaScript)) : ∃ v e₂ j i f g,
      b.viewNth k e' = (.ok v, e₂) ∧ Shows a e₁.heap e₂.heap res.frames k v j i f g ∧ e'.Keeps e₂ ∧
      e'.heap.AddsNumbers e₂.heap v.shown := by
  have types : res.frames.map (·.type) = b.frames.map (·.type) := by
    rw [d.types, m.frames, List.map_map]
    rfl
  -- The frame that is shown, and the one that has its arguments.
  obtain ⟨m', index⟩ := jsFrameIndex?_of_lt 0 less
  obtain ⟨j, f, rfl, nth⟩ := jsFrameIndex?_eq_some index
  rw [Nat.zero_add, jsFrameIndex?_congr types] at index
  obtain ⟨f₀, l, body⟩ := d.source nth.found
  have type : f₀.type = .javaScript := body.type.symm.trans nth.type
  obtain ⟨i, of⟩ := Bailout.argumentsFrame_eq (m.frame body.walked)
  obtain ⟨g, g₀, l', hg, head, holder, type'⟩ := m.argumentsSource d types body type of
  obtain ⟨vs, hvs⟩ := head.reads_parameters type'
  obtain ⟨us, hus⟩ := body.reads_expressions type
  obtain ⟨v, view, function, pc, rfl, rfl⟩ := Bailout.view_eq (m.frame body.walked) hus (holder ▸ hvs)
  obtain ⟨w, e₂, fold⟩ := @Bailout.fillViews_of_admits b (b.parameterRange j v) (b.expressionRange j v)
    e' b.numbers v (by rwa [m.numbers])
  obtain ⟨same, keeps, adds, parameters, expressions⟩ := Bailout.fillViews_shown (m.laidOut d) stacked
    (m.frame body.walked) (body.known type).2 of (holder ▸ hvs) hus fold
  rw [holder] at parameters
  refine ⟨w, e₂, j, i, f, g, ?_, ?_, keeps, adds⟩
  · rw [Bailout.viewNth, index]
    dsimp only
    rw [view, Computation.liftM_ok_bind]
    exact fold
  · constructor
    case nth => exact nth
    case arguments => exact of.of_types types hg
    case function =>
      obtain ⟨x, known⟩ := Option.isSome_iff_exists.mp (body.known type).1
      have same' : f.function = f₀.function :=
        congrArg Outline.function (Frame.outline_eq body.filled.blank)
      have shown : w.function = x := by
        rw [same.frame, function]
        exact congrArg (Option.getD · _) known
      rw [same', known, shown]
    case pc =>
      have same' : f.blank.pc = f₀.blank.pc := by rw [body.filled.blank]
      rw [same.frame]
      exact pc.trans same'.symm
    case parameters =>
      refine head.shows_parameters d.walked.numbers d.walked.arguments type' ?_ fun t v ht slot =>
        parameters t l' v head.layout ht slot
      rw [same.parameters]
      exact (Frame.parameterValues_ok hvs).1
    case expressions =>
      refine body.shows_expressions d.walked.numbers d.walked.arguments type ?_ fun t v ht slot =>
        expressions t l v body.layout ht slot
      rw [same.expressions]
      exact (Frame.expressionValues_ok hus).1

/-- **The debugger shows what a bailout would leave.** The frame on top of the stack is stopped at a
bailout point, and its frames can be rebuilt. Then a bailout of the same code at that point succeeds if
allocation is allowed; and whenever it does, the debugger's view of each function is that of its frame
among those that the bailout leaves, with its expressions, and its parameters as they were passed. The
debugger changes nothing but the trace and the heap, which only gets numbers that are shown. -/
theorem inspect_agrees {i n : Nat} {frame : Frame} (stopped : StoppedAt e frame c data i entry)
    (reason : r.reason = .eager ∨ r.reason = .lazy) (leaves : e.codeToLeave? r r.callee = some c)
    (same : r.entry = i)
    (translated : Assembly.run (r.scene e frame c data)
      { cursor := .start data.recipes entry.recipe } = (.ok n, a)) :
    (e.heap.allocationAllowed = true → ∃ res e₁, Engine.deoptimize r e = (.ok res, e₁)) ∧
      ∀ {res e₁ k}, Engine.deoptimize r e = (.ok res, e₁) →
        k < res.frames.countP (·.type == .javaScript) →
        ∃ v e₂ j i f g, Engine.inspect k e = (.ok v, e₂) ∧
          Shows a e₁.heap e₂.heap res.frames k v j i f g ∧
          e.Keeps e₂ ∧ e.heap.AddsNumbers e₂.heap v.shown := by
  subst same
  rw [← e.codeToLeave?_counted] at leaves
  refine ⟨fun allowed => Engine.deoptimize_of_run stopped.top reason leaves stopped.known stopped.point
    translated allowed, fun {res e₁ k} left less => ?_⟩
  obtain ⟨input, c', data', entry', a', count, records, ls, d⟩ := Engine.deoptimize_departs left reason
  -- The bailout leaves the same code at the same point.
  obtain rfl : frame = input := Option.some.inj (stopped.top.symm.trans d.top)
  obtain rfl : c = c' := Option.some.inj (leaves.symm.trans d.leaves)
  obtain rfl : data = data' := Option.some.inj (stopped.known.symm.trans d.known)
  obtain rfl : entry = entry' := Option.some.inj (stopped.point.symm.trans d.point)
  obtain rfl : a = a' := congrArg Prod.snd (translated.symm.trans d.run)
  have functions : (r.scene e frame c data).heap.SameFunctions e.heap := e.counted_sameFunctions r
  have run : Assembly.run (e.inspection frame c data) { cursor := .start data.recipes entry.recipe } =
      (.ok n, a.unresumed) := by
    have mirror := (Assembly.run_mirrors functions).same { cursor := .start data.recipes entry.recipe }
    rw [translated, e.inspected_scene reason] at mirror
    exact mirror
  obtain ⟨b, e', begun, frames, numbers, arguments, looks⟩ := Engine.inspect_of_run stopped run k
  obtain ⟨_, _, _, -, walked⟩ := Assembly.run_walked run
  have stacked := walked.follows.stacked
  rw [← frames] at stacked
  have heap : e'.heap = e.heap := by rw [begun]
  have admitted : ∀ d ∈ a.numbers, e'.heap.AdmitsNumber d.value := by
    intro x hx
    rw [heap, Heap.AdmitsNumber, ← e.counted_allocation r]
    exact d.admits x hx
  have m : Mirrored b a := ⟨frames, numbers, arguments⟩
  obtain ⟨v, e₂, j, i, f, g, view, shows', keeps, adds⟩ := m.viewNth stacked d admitted less
  refine ⟨v, e₂, j, i, f, g, looks.trans view, shows', ?_, heap ▸ adds⟩
  have first : e.Keeps e' := by rw [begun]; rfl
  exact first.trans keeps

end Agreement

namespace Sample

/-- The bailout data of the optimized code of `outer`. -/
def data : BailoutData := (engine.codeSpace.get ⟨11⟩).bailouts.getD default

/-- The bailout point at which the engine is stopped. -/
def entry : BailoutEntry := data.entries.getD 0 default

/-- The sample is stopped at its bailout point. -/
theorem stopped : StoppedAt engine bailout.input ⟨11⟩ data 0 entry := by
  constructor <;> decide +kernel

end Sample

/-- The inlined function is called with two arguments through an adaptor frame, one of them a number
that needs a box, and its body has an arguments object. -/
theorem inspect_agrees_inlined : ∃ n a res e₁ v e₂ j i f g,
    Assembly.run (Sample.request.scene Sample.engine Sample.bailout.input ⟨11⟩ Sample.data)
      { cursor := .start Sample.data.recipes Sample.entry.recipe } = (.ok n, a) ∧
    Engine.deoptimize Sample.request Sample.engine = (.ok res, e₁) ∧
    Engine.inspect 1 Sample.engine = (.ok v, e₂) ∧
    Shows a e₁.heap e₂.heap res.frames 1 v j i f g ∧
    (v.hasAdaptor, v.parameters.length, v.expressions) = (true, 2, [.argumentsMarker]) := by
  have run : (Assembly.run (Sample.request.scene Sample.engine Sample.bailout.input ⟨11⟩ Sample.data)
      { cursor := .start Sample.data.recipes Sample.entry.recipe }).1.toOption = some 3 := by
    decide +kernel
  have translated := Computation.eq_ok_of_toOption run
  have left : (Engine.deoptimize Sample.request Sample.engine).1.toOption.map
      (·.frames.countP (·.type == .javaScript)) = some 2 := by decide +kernel
  obtain ⟨res, ok, count⟩ := Option.map_eq_some_iff.mp left
  have done := Computation.eq_ok_of_toOption ok
  obtain ⟨-, agrees⟩ := inspect_agrees Sample.stopped (.inl rfl) (by decide +kernel) rfl translated
  obtain ⟨v, e₂, j, i, f, g, looks, shows', -⟩ := agrees (k := 1) done (by rw [count]; decide)
  have seen : (Engine.inspect 1 Sample.engine).1.toOption.map
      (fun v => (v.hasAdaptor, v.parameters.length, v.expressions)) =
        some (true, 2, [.argumentsMarker]) := by decide +kernel
  rw [looks] at seen
  exact ⟨3, _, res, _, v, e₂, j, i, f, g, translated, done, looks, shows', Option.some.inj seen⟩

end Speculation
