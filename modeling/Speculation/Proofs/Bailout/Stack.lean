import Speculation.Proofs.Bailout.Replacement

/-!
# The stack stays contiguous

Frames lie on the stack without gaps, and every frame pointer is the address of the word that holds
the caller's (`Stacked`). Pushing and popping keep this, and so do bailouts and replacements, which
put frames exactly where the frame was that they replace. `stack_linked` says so for every run, and
says how the frames that a bailout leaves are linked to each other and to the rest of the stack.
-/

namespace Speculation

/-- Frames, outermost first, that lie right below an address and below each other, each with its frame
pointer at the word that holds the caller's. -/
inductive Stacked : Nat → List Frame → Prop
  | nil {ceiling : Nat} : Stacked ceiling []
  | cons {ceiling : Nat} {f : Frame} {fs : List Frame} (ends : f.top + f.size = ceiling)
    (linked : f.fp = f.linkAddress) (rest : Stacked f.top fs) : Stacked ceiling (f :: fs)

namespace Stacked

variable {ceiling : Nat} {fs gs : List Frame}

/-- The frames above others are stacked by themselves. -/
theorem of_append (h : Stacked ceiling (fs ++ gs)) : Stacked ceiling fs := by
  induction fs generalizing ceiling with
  | nil => exact .nil
  | cons f fs ih =>
    cases h with
    | cons ends linked rest => exact .cons ends linked (ih rest)

/-- The last frame may be replaced by frames that end where it ended. -/
theorem replace {f : Frame} (h : Stacked ceiling (fs ++ [f]))
    (new : Stacked (f.top + f.size) gs) : Stacked ceiling (fs ++ gs) := by
  induction fs generalizing ceiling with
  | nil =>
    cases h with
    | cons ends linked rest => exact ends ▸ new
  | cons g fs ih =>
    cases h with
    | cons ends linked rest => exact .cons ends linked (ih rest)

/-- A frame may be added right below the last one. -/
theorem concat {f : Frame} (h : Stacked ceiling fs) (linked : f.fp = f.linkAddress)
    (ends : f.top + f.size = ((fs.getLast?).map (·.top)).getD ceiling) :
    Stacked ceiling (fs ++ [f]) := by
  induction fs generalizing ceiling with
  | nil => exact .cons ends linked .nil
  | cons g fs ih =>
    cases h with
    | cons ends' linked' rest =>
      refine .cons ends' linked' (ih rest ?_)
      rw [ends, List.getLast?_cons]
      cases fs.getLast? <;> rfl

/-- Only addresses and sizes matter. -/
theorem of_blank (h : Stacked ceiling fs) (same : gs.map Frame.blank = fs.map Frame.blank) :
    Stacked ceiling gs := by
  induction h generalizing gs with
  | nil =>
    cases List.map_eq_nil_iff.mp same
    exact .nil
  | @cons ceiling f fs ends linked _ ih =>
    obtain ⟨g, gs, rfl, blank, rest⟩ := List.map_eq_cons_iff.mp same
    have outline := Frame.outline_eq blank
    have top : g.top = f.top := congrArg Outline.top outline
    have size : g.size = f.size := congrArg Outline.size outline
    have fp : g.fp = f.fp := congrArg Outline.fp outline
    have link : g.linkAddress = f.linkAddress := congrArg Outline.link outline
    exact .cons (by rw [top, size, ends]) (by rw [fp, link, linked]) (top ▸ ih rest)

/-- No frame of a stack goes beyond its end. -/
theorem le_ceiling {f : Frame} (h : Stacked ceiling fs) (hf : f ∈ fs) : f.top + f.size ≤ ceiling := by
  induction h with
  | nil => cases hf
  | @cons ceiling g fs ends _ _ ih =>
    rcases List.mem_cons.mp hf with rfl | later
    · exact Nat.le_of_eq ends
    · have := ih later
      omega

/-- A frame lies below all frames before it. -/
theorem le_top {i j : Nat} {f g : Frame} (h : Stacked ceiling fs) (hf : fs[i]? = some f)
    (hg : fs[j]? = some g) (less : i < j) : g.top + g.size ≤ f.top := by
  induction h generalizing i j with
  | nil => cases hf
  | cons ends linked rest ih =>
    obtain ⟨j, rfl⟩ : ∃ m, j = m + 1 := ⟨j - 1, by omega⟩
    cases i with
    | zero =>
      cases hf
      exact rest.le_ceiling (List.mem_of_getElem? hg)
    | succ i => exact ih hf hg (by omega)

end Stacked

/-- Frames that follow from records are stacked one on the other. -/
theorem Follows.stacked {s : Scene} {prev : Option Frame} {records : List FrameRecord}
    {ls : List Layout} {fs : List Frame} (h : Follows s prev records ls fs) :
    Stacked (s.ceiling prev) fs := by
  induction h with
  | nil => exact .nil
  | cons head _ ih => exact .cons head.ends head.linked ih

/-! ### Bailouts and replacements -/

/-- Frames that were computed take the place of the input, up to its end. -/
theorem Bailout.rebuild_stacked {b b' : Bailout} {e e' : Engine} (h : b.rebuild e = (.ok b', e')) :
    Stacked (b.input.top + b.input.size) b'.frames := by
  unfold rebuild at h
  split at h
  · rcases b.replaceFrame_cases e with ⟨f, k, -, failed⟩ | ⟨_, data, node, index, entry, height, cursor,
      shared, output, moved, r, -, ran, outcome⟩
    · rw [failed] at h
      cases h
    · rw [outcome] at h
      cases moved with
      | error f => cases h
      | ok frame =>
        cases h
        obtain ⟨ends, linked⟩ := Replacement.run_placed ran
        exact .cons ends linked .nil
  · obtain ⟨data, entry, n, a, -, -, run, rfl, -⟩ := rebuildFrames_ok h
    obtain ⟨count, records, ls, -, walked⟩ := Assembly.run_walked run
    exact walked.follows.stacked

/-- Frames lie below `Stack.base` without gaps, and are linked. -/
def Stack.Linked (s : Stack) : Prop := Stacked Stack.base s.toList

namespace Stack.Linked

variable {s s' : Stack} {f : Frame} {fs : List Frame}

theorem push (h : s.Linked) (pushed : s.push f = .ok s') : s'.Linked := by
  unfold Stack.push at pushed
  split at pushed
  · rename_i room
    cases pushed
    have list : Stack.toList ⟨f.placeAt (s.sp - f.size) :: s.frames⟩ =
        s.toList ++ [f.placeAt (s.sp - f.size)] := List.reverse_cons
    rw [Linked, list]
    refine h.concat rfl ?_
    rw [Stack.toList, List.getLast?_reverse]
    have sp : (s.frames.head?.map (·.top)).getD Stack.base = s.sp := by
      unfold Stack.sp
      cases s.frames with
      | nil => rfl
      | cons g gs => rfl
    rw [sp]
    exact Nat.sub_add_cancel room
  · cases pushed

theorem pop (h : s.Linked) : s.pop.2.Linked := by
  unfold Stack.pop
  split
  · exact h
  · rename_i f rest frames
    rw [Linked, Stack.toList, frames, List.reverse_cons] at h
    exact h.of_append

theorem top (h : s.top? = some f) : s.toList = s.frames.tail.reverse ++ [f] := by
  unfold Stack.top? at h
  obtain ⟨rest, frames⟩ := List.head?_eq_some_iff.mp h
  rw [Stack.toList, frames, List.reverse_cons]
  rfl

/-- Frames that take the place of the top frame keep the stack linked. -/
theorem replaceTop (h : s.Linked) (top : s.top? = some f) (new : Stacked (f.top + f.size) fs) :
    (s.replaceTop fs).Linked := by
  rw [Linked, Linked.top top] at h
  rw [Linked, Stack.toList_replaceTop]
  exact h.replace new

end Stack.Linked

/-! ### Runs -/

/-- Engines that are reached from an empty stack by pushing and popping frames, bailouts and
replacements, whether they succeed or not, and by changes elsewhere. -/
inductive StackRun : Engine → Prop
  | start {e : Engine} (empty : e.stack.frames = []) : StackRun e
  | push {e : Engine} {f : Frame} {s : Stack} (run : StackRun e) (pushed : e.stack.push f = .ok s) :
    StackRun { e with stack := s }
  | pop {e : Engine} (run : StackRun e) : StackRun { e with stack := e.stack.pop.2 }
  | deoptimize {e : Engine} (run : StackRun e) (r : BailoutRequest) :
    StackRun (Engine.deoptimize r e).2
  | replaceOnStack {e : Engine} (run : StackRun e) (function : Value) :
    StackRun (Engine.replaceOnStack function e).2
  | elsewhere {e e' : Engine} (run : StackRun e) (same : e'.stack = e.stack) : StackRun e'

namespace Engine

variable {r : BailoutRequest} {e e' : Engine} {res : Resumption} {function : Value}

/-- The frames of a bailout are stacked in the place of the top frame. -/
theorem prepareBailout_stacked {b : Bailout} (h : prepareBailout r e = (.ok b, e')) : ∃ input,
    e.stack.top? = some input ∧ Stacked (input.top + input.size) b.frames := by
  obtain ⟨input, b₀, e₁, b₁, e₂, top, begun, rebuilt, filled⟩ := prepareBailout_ok h
  obtain ⟨code, -, rfl, -⟩ := beginBailout_ok begun
  exact ⟨input, top, (Bailout.rebuild_stacked rebuilt).of_blank (Bailout.materialize_refills filled).blank⟩

/-- The frame of a replacement is stacked in the place of the top frame. -/
theorem prepareReplacement_stacked {b : Bailout} (h : prepareReplacement function e = (.ok b, e')) :
    ∃ input, e.stack.top? = some input ∧ Stacked (input.top + input.size) b.frames := by
  obtain ⟨input, b₀, e₁, top, begun, rebuilt⟩ := prepareReplacement_ok h
  obtain ⟨code, -, rfl, -⟩ := beginBailout_ok begun
  exact ⟨input, top, Bailout.rebuild_stacked rebuilt⟩

/-- Whatever replaces the frame on top of the stack keeps the stack linked. -/
theorem bind_resume_linked {m : Action Bailout} (quiet : Quiet m) (h : e.stack.Linked)
    (stacked : ∀ {b k}, m e = (.ok b, k) → ∃ input, e.stack.top? = some input ∧
      Stacked (input.top + input.size) b.frames) : ((m >>= resume) e).2.stack.Linked := by
  rcases bind_resume quiet e with ⟨b, k, prepared, -, done⟩ | ⟨f, k, keeps, failed⟩
  · obtain ⟨input, top, below⟩ := stacked prepared
    rw [done]
    exact h.replaceTop top below
  · rw [failed]
    show k.stack.Linked
    rwa [keeps.stack]

end Engine

/-- Every run keeps the stack linked. -/
theorem StackRun.linked {e : Engine} (run : StackRun e) : e.stack.Linked := by
  induction run with
  | start empty =>
    rw [Stack.Linked, Stack.toList, empty]
    exact .nil
  | push _ pushed ih => exact ih.push pushed
  | pop _ ih => exact ih.pop
  | deoptimize _ r ih =>
    rw [Engine.deoptimize_eq]
    exact Engine.bind_resume_linked (Engine.prepareBailout_quiet r) ih Engine.prepareBailout_stacked
  | replaceOnStack _ function ih =>
    rw [Engine.replaceOnStack_eq]
    exact Engine.bind_resume_linked (Engine.prepareReplacement_quiet function) ih
      Engine.prepareReplacement_stacked
  | elsewhere _ same ih => rwa [same]

/-! ### How the frames of a bailout are linked -/

/-- Frames in place of a frame: the first one is linked as that frame was, each further one to the
frame before it, and exactly the last one continues. -/
structure TakesPlace (input : Frame) (fs : List Frame) : Prop where
  ends : ∀ f, fs[0]? = some f → f.top + f.size = input.top + input.size
  outermost : ∀ f, fs[0]? = some f →
    f.fixed .callerPc = input.fixed .callerPc ∧ f.fixed .callerFp = input.fixed .callerFp
  further : ∀ (i : Nat) f g, fs[i]? = some f → fs[i + 1]? = some g →
    g.fixed .callerPc = .int f.pc ∧ g.fixed .callerFp = .int f.fp
  continues : ∀ (i : Nat) f, fs[i]? = some f → (f.continuation.isSome ↔ i + 1 = fs.length)

theorem Describes.caller {s : Scene} {prev : Option Frame} {opener : Command} {passed : List Int}
    {l : Layout} (h : Describes s prev opener passed l) :
    l.callerPc = (s.caller prev).pc ∧ l.callerFp = (s.caller prev).fp := by
  cases h <;> exact ⟨rfl, rfl⟩

/-- The fixed words of a filled frame are those of its layout. -/
theorem Layout.Filled.fixed {l : Layout} {h : Heap} {f g : Frame} (filled : l.Filled h f g)
    (area : f.area = l.parameters.length)
    (size : f.size = l.parameters.length + fixedSlots + l.body.length) (slot : FixedSlot) :
    g.fixed slot = l.fixed slot := by
  have outline := Frame.outline_eq filled.blank
  have area' : g.area = f.area := congrArg Outline.area outline
  have size' : g.size = f.size := congrArg Outline.size outline
  have offset : g.fixedOffset slot = l.body.length + fixedSlots - 1 - slot.depth := by
    rw [Frame.fixedOffset, size', area', size, area]
    omega
  obtain ⟨w, hw, rfl⟩ := filled.holds _ _ (l.at?_fixed slot)
  rw [← offset] at hw
  have word := Frame.slot_ok (g.slot_fixed slot)
  rw [hw] at word
  exact (Option.some.inj word).symm

/-- The frames that a bailout leaves take the place of the one that it left. -/
theorem Departs.takesPlace {r : BailoutRequest} {e e' : Engine} {res : Resumption} {input : Frame}
    {code : CodeId} {data : BailoutData} {entry : BailoutEntry} {a : Assembly} {count : UInt32}
    {records : List FrameRecord} {ls : List Layout}
    (d : Departs r e e' res input code data entry a count records ls)
    (reason : r.reason = .eager ∨ r.reason = .lazy) : TakesPlace input res.frames := by
  -- Filling in the placeholders keeps every outline and fixed slot, so each condition is that of
  -- the frames as rebuilt.
  constructor
  case ends =>
    intro g hg
    obtain ⟨f, record, l, hf, -, -, rebuilt, filled⟩ := d.frame hg
    have outline := Frame.outline_eq filled.blank
    have top : g.top = f.top := congrArg Outline.top outline
    have size : g.size = f.size := congrArg Outline.size outline
    rw [top, size]
    exact rebuilt.ends
  case outermost =>
    intro g hg
    obtain ⟨f, record, l, hf, -, -, rebuilt, filled⟩ := d.frame hg
    rw [filled.fixed rebuilt.area rebuilt.size, filled.fixed rebuilt.area rebuilt.size]
    exact rebuilt.described.caller
  case further =>
    intro i g g' hg hg'
    obtain ⟨f, _, _, hf, -, -, -, before⟩ := d.frame hg
    obtain ⟨f', record, l, -, -, -, rebuilt, filled⟩ := d.frame hg'
    have prev : (if i + 1 = 0 then none else a.frames[i + 1 - 1]?) = some f := hf
    rw [filled.fixed rebuilt.area rebuilt.size, filled.fixed rebuilt.area rebuilt.size]
    rw [prev] at rebuilt
    have pc : g.blank.pc = f.blank.pc := by rw [before.blank]
    have fp : g.blank.fp = f.blank.fp := by rw [before.blank]
    change g.pc = f.pc at pc
    change g.fp = f.fp at fp
    rw [pc, fp]
    exact rebuilt.described.caller
  case continues =>
    intro i g hg
    obtain ⟨f, _, _, hf, -, -, -, filled⟩ := d.frame hg
    have continuation : g.continuation = f.continuation :=
      congrArg Outline.continuation (Frame.outline_eq filled.blank)
    have count : count.toNat = res.frames.length := by
      rw [d.length, d.walked.follows.length.2, d.walked.announced]
    have live : (r.scene e input code data).reason ≠ .debugger := (r.reason_ne reason).2
    rw [continuation, d.walked.continuation i f hf, count]
    simp [live]

/-- **The stack stays contiguous and linked.** In every run, frames lie below `Stack.base` without gaps,
and every frame pointer is the address of the word that holds the caller's. A successful bailout
replaces only the innermost frame, by frames that are linked to it and to each other. -/
theorem stack_stays_linked {e : Engine} (run : StackRun e) : e.stack.Linked ∧
    ∀ {r : BailoutRequest} {res : Resumption} {e' : Engine}, (r.reason = .eager ∨ r.reason = .lazy) →
      Engine.deoptimize r e = (.ok res, e') → ∃ outer input,
        e.stack.toList = outer ++ [input] ∧ e'.stack.toList = outer ++ res.frames ∧
        TakesPlace input res.frames := by
  refine ⟨run.linked, fun reason h => ?_⟩
  obtain ⟨input, code, data, entry, a, count, records, ls, d⟩ := Engine.deoptimize_departs h reason
  refine ⟨e.stack.frames.tail.reverse, input, Stack.Linked.top d.top, ?_, d.takesPlace reason⟩
  rw [d.engine]
  exact Stack.toList_replaceTop ..

/-- A function that has called itself, and the frames of a bailout from the inner call. -/
theorem stack_stays_linked_inlined : ∃ e res e', StackRun e ∧ e.stack.size = 2 ∧
    Engine.deoptimize Sample.request e = (.ok res, e') ∧ res.frames.length = 3 ∧
    e.stack.Linked ∧ ∃ outer input, e.stack.toList = outer ++ [input] ∧
      e'.stack.toList = outer ++ res.frames ∧ TakesPlace input res.frames := by
  let frame := Sample.bailout.input
  let calls : Except Fault Stack := do (← ({} : Stack).push frame).push frame
  let e := { Sample.engine with stack := calls.toOption.getD default }
  have first : ({} : Stack).push frame = .ok Sample.engine.stack :=
    Computation.except_eq_ok_of_toOption (by decide +kernel)
  have second : Sample.engine.stack.push frame = .ok e.stack :=
    Computation.except_eq_ok_of_toOption (by decide +kernel)
  have start : StackRun (Engine.ofConfig {}) := .start rfl
  have run : StackRun e := .elsewhere ((start.push first).push second) rfl
  have left : (Engine.deoptimize Sample.request e).1.toOption.map (·.frames.length) = some 3 := by
    decide +kernel
  obtain ⟨res, ok, length⟩ := Option.map_eq_some_iff.mp left
  have done := Computation.eq_ok_of_toOption ok
  obtain ⟨linked, replaces⟩ := stack_stays_linked run
  exact ⟨e, res, _, run, by decide +kernel, done, length, linked, replaces (.inl rfl) done⟩

end Speculation
