import Speculation.Proofs.Bailout.Words

/-!
# Laying out a frame

A `Layout` lists what the words of a frame are: the parameters, the fixed part and the body.
`Lays` says how far the walk has come with a frame that it has opened: which positions of its record
it has read, and which layout the words have. Each step of the walk changes one part of the layout.

What a closed frame has to be is said without reference to the walk (`Rebuilt`): the frame command
fixes its type and the number of its words (`Scene.plan?`), the record and the caller's frame fix its
words (`Describes`), and its values are those that the positions of the record stand for.
-/

namespace Speculation

open Recipe

/-! ### Layouts -/

/-- What the words of a frame are, from the top down. -/
structure Layout where
  parameters : List Slot
  callerPc : Word
  callerFp : Word
  context : Word
  function : Word
  body : List Slot

namespace Layout

variable {l : Layout}

/-- The slots above the body. -/
def upper (l : Layout) : List Slot :=
  l.parameters ++ [.word l.callerPc, .word l.callerFp, .word l.context, .word l.function]

def slots (l : Layout) : List Slot := l.upper ++ l.body

def words (l : Layout) : List Word := l.slots.map Slot.content

/-- The values, with their offsets. -/
def placed (l : Layout) : List (Nat × Recovered) := Slot.placed 0 l.slots

/-- The values, in the order in which the recipe gives them. -/
def values (l : Layout) : List Recovered := l.placed.map Prod.snd

/-- A fixed word replaced. -/
def setFixed (l : Layout) (w : Word) : FixedSlot → Layout
  | .callerPc => { l with callerPc := w }
  | .callerFp => { l with callerFp := w }
  | .context => { l with context := w }
  | .function => { l with function := w }

theorem length_words (l : Layout) :
    l.words.length = l.parameters.length + fixedSlots + l.body.length := by
  simp only [words, slots, upper, List.length_map, List.length_append, List.length_cons,
    List.length_nil, fixedSlots]

@[simp] theorem parameters_setFixed (l : Layout) (w : Word) (slot : FixedSlot) :
    (l.setFixed w slot).parameters = l.parameters := by cases slot <;> rfl

/-- Values are placed in the body and above the fixed part. -/
theorem placed_eq (l : Layout) : l.placed =
    Slot.placed (fixedSlots + l.body.length) l.parameters ++ Slot.placed 0 l.body := by
  rw [placed, slots, upper, Slot.placed_append, Slot.placed_append]
  simp [Slot.placed, fixedSlots, Nat.add_comm]

@[simp] theorem placed_setFixed (l : Layout) (w : Word) (slot : FixedSlot) :
    (l.setFixed w slot).placed = l.placed := by
  cases slot <;> simp [placed_eq, setFixed]

/-- Where a fixed word stands. -/
theorem words_setFixed (l : Layout) (w : Word) (slot : FixedSlot) : ∃ above x below,
    above.length = l.parameters.length + slot.depth ∧ l.words = above ++ x :: below ∧
      (l.setFixed w slot).words = above ++ w :: below := by
  let p := l.parameters.map Slot.content
  let b := l.body.map Slot.content
  have length : p.length = l.parameters.length := List.length_map _
  have words (pc fp context function : Word) :
      Layout.words ⟨l.parameters, pc, fp, context, function, l.body⟩ =
        p ++ pc :: fp :: context :: function :: b := by
    simp [Layout.words, slots, upper, Slot.content, p, b]
  cases slot with
  | callerPc => exact ⟨p, l.callerPc, _, length, words .., words ..⟩
  | callerFp =>
    refine ⟨p ++ [l.callerPc], l.callerFp, l.context :: l.function :: b, ?_, ?_, ?_⟩
    · simp [length, FixedSlot.depth]
    · rw [List.append_assoc]
      exact words ..
    · rw [List.append_assoc]
      exact words ..
  | context =>
    refine ⟨p ++ [l.callerPc, l.callerFp], l.context, l.function :: b, ?_, ?_, ?_⟩
    · simp [length, FixedSlot.depth]
    · rw [List.append_assoc]
      exact words ..
    · rw [List.append_assoc]
      exact words ..
  | function =>
    refine ⟨p ++ [l.callerPc, l.callerFp, l.context], l.function, b, ?_, ?_, ?_⟩
    · simp [length, FixedSlot.depth]
    · rw [List.append_assoc]
      exact words ..
    · rw [List.append_assoc]
      exact words ..

/-- The words below the parameters do not depend on them. -/
theorem words_eq_parameters (l : Layout) : ∃ below : List Word,
    below.length = fixedSlots + l.body.length ∧ ∀ parameters : List Slot,
      words { l with parameters } = parameters.map Slot.content ++ below := by
  refine ⟨l.callerPc :: l.callerFp :: l.context :: l.function :: l.body.map Slot.content, ?_, ?_⟩
  · simp only [List.length_cons, List.length_map, fixedSlots]
    omega
  · intro parameters
    simp [words, slots, upper, Slot.content]

theorem words_eq_body (l : Layout) :
    l.words = l.upper.map Slot.content ++ l.body.map Slot.content := List.map_append

end Layout

/-! ### What a frame has to be -/

/-- What a frame command fixes by itself. -/
structure FramePlan where
  type : FrameType
  /-- Words of the parameter area. -/
  parameters : Nat
  /-- Words below the fixed part. -/
  body : Nat

/-- What a frame command asks for. -/
def Scene.plan? (s : Scene) : Command → Option FramePlan
  | .jsFrame _ literal height => do
    let function ← s.data.literals[literal.toNat]?
    let d ← s.heap.functionData? function
    return ⟨.javaScript, (s.heap.sharedInfo d.shared).formals + 1, height.toNat⟩
  | .argumentsAdaptorFrame _ height => some ⟨.argumentsAdaptor, height.toNat, 1⟩
  | .constructStubFrame _ height => some ⟨.construct, height.toNat, 2⟩
  | .getterStubFrame _ => some ⟨.internal, 0, 1⟩
  | .setterStubFrame _ => some ⟨.internal, 0, 2⟩
  | .compiledStubFrame => some ⟨.stubFailureTrampoline, 0, s.code.stubParameters⟩
  | _ => none

namespace Scene

variable (s : Scene) (node : NodeId) (literal height : UInt32)

@[simp] theorem plan?_jsFrame : s.plan? (.jsFrame node literal height) =
    (s.data.literals[literal.toNat]?).bind fun function =>
      (s.heap.functionData? function).bind fun d =>
        some ⟨.javaScript, (s.heap.sharedInfo d.shared).formals + 1, height.toNat⟩ := rfl

@[simp] theorem plan?_argumentsAdaptorFrame : s.plan? (.argumentsAdaptorFrame literal height) =
    some ⟨.argumentsAdaptor, height.toNat, 1⟩ := rfl

@[simp] theorem plan?_constructStubFrame : s.plan? (.constructStubFrame literal height) =
    some ⟨.construct, height.toNat, 2⟩ := rfl

@[simp] theorem plan?_getterStubFrame : s.plan? (.getterStubFrame literal) =
    some ⟨.internal, 0, 1⟩ := rfl

@[simp] theorem plan?_setterStubFrame : s.plan? (.setterStubFrame literal) =
    some ⟨.internal, 0, 2⟩ := rfl

@[simp] theorem plan?_compiledStubFrame : s.plan? .compiledStubFrame =
    some ⟨.stubFailureTrampoline, 0, s.code.stubParameters⟩ := rfl

end Scene

/-- A fixed word, which every frame has. -/
def Frame.fixed (f : Frame) (slot : FixedSlot) : Word :=
  f.words.get ⟨f.fixedOffset slot, f.fixedOffset_lt_size slot⟩

theorem Frame.slot_fixed (f : Frame) (slot : FixedSlot) :
    f.slot (f.fixedOffset slot) = .ok (f.fixed slot) := by
  have inside := f.fixedOffset_lt_size slot
  unfold Frame.size at inside
  simp [Frame.slot, Frame.fixed, inside]

/-- What a frame takes over from its caller. -/
structure Caller where
  pc : Word
  fp : Word
  context : Word

/-- The caller of the frame below `prev`: that of the optimized frame, or `prev` itself. -/
def Scene.caller (s : Scene) : Option Frame → Caller
  | none => ⟨s.input.fixed .callerPc, s.input.fixed .callerFp, s.input.fixed .context⟩
  | some p => ⟨.int p.pc, .int p.fp, .tagged p.context⟩

/-- The address at which the frame below `prev` ends: where the optimized frame ends, or where `prev`
starts. -/
def Scene.ceiling (s : Scene) : Option Frame → Nat
  | none => s.input.top + s.input.size
  | some p => p.top

/-- A frame that was opened below `prev`. -/
structure Outline.Below (s : Scene) (prev : Option Frame) (o : Outline) : Prop where
  ends : o.top + o.size = s.ceiling prev
  linked : o.fp = o.link
  fresh : o.continuation = none

/-- One command with its operands, whatever it is. -/
def Passed (is : List Int) : Prop :=
  ∃ (o : Opcode) (operands : List Int), operands.length = o.arity ∧ is = (o.number : Int) :: operands

/-- Which words a frame command, the commands passed over behind it and the caller determine. -/
inductive Describes (s : Scene) (prev : Option Frame) : Command → List Int → Layout → Prop
  | javaScript {node : NodeId} {literal height : UInt32} {f : Value} {d : FunctionData}
    {parameters body : List Recovered} (function : s.data.literals[literal.toNat]? = some f)
    (data : s.heap.functionData? f = some d) :
    Describes s prev (.jsFrame node literal height) []
      { parameters := parameters.map .value
        callerPc := (s.caller prev).pc
        callerFp := (s.caller prev).fp
        context := if prev.isNone then (s.caller prev).context else .tagged d.context
        function := .tagged f
        body := body.map .value }
  | argumentsAdaptor {literal height : UInt32} {f : Value} {parameters : List Recovered}
    (function : s.data.literals[literal.toNat]? = some f) :
    Describes s prev (.argumentsAdaptorFrame literal height) []
      { parameters := parameters.map .value
        callerPc := (s.caller prev).pc
        callerFp := (s.caller prev).fp
        context := .tagged FrameType.argumentsAdaptor.marker
        function := .tagged f
        body := [.word (.tagged (.smi (height.toNat - 1)))] }
  /-- The lowest word repeats the receiver. -/
  | construct {literal height : UInt32} {receiver : Recovered} {parameters : List Recovered} :
    Describes s prev (.constructStubFrame literal height) []
      { parameters := (receiver :: parameters).map .value
        callerPc := (s.caller prev).pc
        callerFp := (s.caller prev).fp
        context := (s.caller prev).context
        function := .tagged FrameType.construct.marker
        body := [.word (.tagged (.smi (height.toNat - 1))), .word (.tagged receiver.placeholder)] }
  | getter {literal : UInt32} {is : List Int} (receiver : Passed is) :
    Describes s prev (.getterStubFrame literal) is
      { parameters := []
        callerPc := (s.caller prev).pc
        callerFp := (s.caller prev).fp
        context := (s.caller prev).context
        function := .tagged FrameType.internal.marker
        body := [.word (.code Builtins.standard.getterStub)] }
  /-- The receiver is passed over, and the stored value is kept. -/
  | setter {literal : UInt32} {is : List Int} {v : Recovered} (receiver : Passed is) :
    Describes s prev (.setterStubFrame literal) is
      { parameters := []
        callerPc := (s.caller prev).pc
        callerFp := (s.caller prev).fp
        context := (s.caller prev).context
        function := .tagged FrameType.internal.marker
        body := [.word (.code Builtins.standard.setterStub), .value v] }
  | compiledStub {body : List Recovered} (outermost : prev = none) :
    Describes s prev .compiledStubFrame []
      { parameters := []
        callerPc := (s.caller prev).pc
        callerFp := (s.caller prev).fp
        context := (s.caller prev).context
        function := .tagged FrameType.stubFailureTrampoline.marker
        body := body.map .value }

/-- A frame as a record describes it, below `prev`. -/
structure Rebuilt (s : Scene) (prev : Option Frame) (opener : Command) (passed : List Int)
    (positions : List Position) (l : Layout) (f : Frame) : Prop where
  plan : s.plan? opener = some ⟨f.type, l.parameters.length, l.body.length⟩
  area : f.area = l.parameters.length
  size : f.size = l.parameters.length + fixedSlots + l.body.length
  words : f.down = l.words
  described : Describes s prev opener passed l
  denoted : Denoted s positions l.values
  ends : f.top + f.size = s.ceiling prev
  linked : f.fp = f.linkAddress
  /-- The frame of a function knows it. -/
  function : f.type = .javaScript → f.function.map Word.tagged = some l.function

namespace Assembly

variable {s : Scene} {a b c : Assembly} {o : Outline} {passed : List Int}
  {positions : List Position} {l l' : Layout} {w : Word} {e : Effect} {r : Unit}

/-! ### The caller -/

/-- A new frame is linked to the one before, or to what is below the optimized frame. -/
theorem callerWords_apply (s : Scene) (a : Assembly) : callerWords s a =
    (.ok ((s.caller a.frames.getLast?).pc, (s.caller a.frames.getLast?).fp), a) := by
  simp only [callerWords, previous?, Computation.get_bind, Computation.pure_bind_apply, bind_assoc]
  cases a.frames.getLast? with
  | none =>
    simp only [Frame.slot_fixed]
    rfl
  | some p => rfl

theorem callerContext_apply (s : Scene) (a : Assembly) :
    callerContext s a = (.ok (s.caller a.frames.getLast?).context, a) := by
  simp only [callerContext, previous?, Computation.get_bind, Computation.pure_bind_apply, bind_assoc]
  cases a.frames.getLast? with
  | none =>
    simp only [Frame.slot_fixed]
    rfl
  | some p => rfl

/-- A new frame ends where the one before begins, or where the optimized frame ends. -/
theorem ceiling_apply (s : Scene) (a : Assembly) :
    ceiling s a = (.ok (s.ceiling a.frames.getLast?), a) := by
  simp only [ceiling, previous?, Computation.get_bind, Computation.pure_bind_apply, bind_assoc]
  cases a.frames.getLast? <;> rfl

/-! ### A frame under construction -/

/-- In `b` a frame with outline `o` is under construction that was opened in `a`. -/
structure Lays (s : Scene) (a b : Assembly) (o : Outline) (passed : List Int)
    (positions : List Position) (l : Layout) : Prop where
  spelled : Spells a.cursor.rest (passed ++ positions.flatMap Position.ints) b.cursor.rest
  reads : Reads s none positions l.values b.last
  frames : b.frames = a.frames
  numbers : b.numbers = a.numbers ++ l.placed.filterMap (DeferredNumber.of? a.frames.length)
  arguments : b.arguments = a.arguments ++ l.placed.filterMap (DeferredArguments.of? a.frames.length)
  outline : b.current.outline = o
  area : b.current.area = l.parameters.length
  words : b.current.down = l.words
  below : o.Below s a.frames.getLast?

namespace Lays

/-- A step that reads positions, and places their values below all that were placed before. -/
theorem step (lays : Lays s a b o passed positions l) (f : Fills s b c e l.words l'.words)
    (area : l'.parameters.length = l.parameters.length)
    (ints : e.ints = e.positions.flatMap Position.ints) (values : e.values = e.placed.map Prod.snd)
    (placed : l'.placed = l.placed ++ e.placed) :
    Lays s a c o passed (positions ++ e.positions) l' where
  spelled := by
    rw [List.flatMap_append, ← List.append_assoc, ← ints]
    exact lays.spelled.append f.spelled
  reads := by
    rw [Layout.values, placed, List.map_append, ← values]
    exact lays.reads.append f.reads
  frames := f.frames.trans lays.frames
  numbers := by
    rw [f.numbers, lays.numbers, lays.frames, placed, List.filterMap_append, List.append_assoc]
  arguments := by
    rw [f.arguments, lays.arguments, lays.frames, placed, List.filterMap_append, List.append_assoc]
  outline := f.outline.trans lays.outline
  area := (congrArg Outline.area f.outline).trans (lays.area.trans area.symm)
  words := f.down lays.words
  below := lays.below

/-- A step that reads nothing. -/
theorem quiet (lays : Lays s a b o passed positions l) (f : Fills s b c {} l.words l'.words)
    (area : l'.parameters.length = l.parameters.length) (placed : l'.placed = l.placed) :
    Lays s a c o passed positions l' := by
  have := lays.step f area rfl rfl (by simpa using placed)
  rwa [List.append_nil] at this

/-- A word of the fixed part goes to its slot. -/
theorem putFixed (lays : Lays s a b o passed positions l) {slot : FixedSlot}
    (h : putFixed slot w b = (.ok r, c)) :
    Lays s a c o passed positions (l.setFixed w slot) := by
  obtain ⟨above, x, below, depth, before, after⟩ := l.words_setFixed w slot
  refine lays.quiet ?_ (by simp) (by simp)
  rw [before, after]
  exact putFixed_fills h (by rw [depth, lays.area])

/-- What changes neither outline nor words changes nothing of the layout. -/
theorem adjust (lays : Lays s a b o passed positions l) {f : Frame → Frame}
    (h : adjust f b = (.ok r, c)) (outline : (f b.current).outline = b.current.outline)
    (words : (f b.current).words = b.current.words) :
    Lays s a c o passed positions l :=
  lays.quiet (adjust_fills h outline words _) rfl rfl

theorem putContext (lays : Lays s a b o passed positions l)
    (h : putContext w b = (.ok r, c)) :
    Lays s a c o passed positions { l with context := w } := by
  obtain ⟨_, t, written, h⟩ := Computation.bind_eq_ok h
  have set := lays.putFixed written
  cases hw : w.tagged? with
  | some v =>
    rw [hw] at h
    exact set.adjust h rfl rfl
  | none =>
    rw [hw] at h
    cases h
    exact set

/-- A word of the body. -/
theorem put (lays : Lays s a b o passed positions l) {offset : Nat} (above below : List Slot)
    {x : Word} (h : put offset w b = (.ok r, c)) (body : l.body = above ++ .word x :: below)
    (at' : offset = below.length) :
    Lays s a c o passed positions { l with body := above ++ .word w :: below } := by
  have placed : Slot.placed 0 (above ++ .word w :: below) = Slot.placed 0 l.body := by
    rw [body, Slot.placed_append, Slot.placed_append]
    rfl
  refine lays.quiet ?_ rfl (by rw [Layout.placed_eq, Layout.placed_eq, placed]; simp [body])
  rw [Layout.words_eq_body, Layout.words_eq_body, body]
  simp only [List.map_append, List.map_cons, ← List.append_assoc]
  exact put_fills h (by rw [at', List.length_map])

/-- The parameters, of a frame without values. -/
theorem parameters {n offset : Nat} (lays : Lays s a b o passed [] l) (blank : l.placed = [])
    (h : rebuildWords s n offset b = (.ok r, c)) (length : l.parameters.length = n)
    (at' : offset = l.words.length) : ∃ (ps : List Position) (vs : List Recovered),
      vs.length = n ∧ Lays s a c o passed ps { l with parameters := vs.map .value } := by
  obtain ⟨below, hb, words⟩ := l.words_eq_parameters
  have at'' : offset = n + below.length := by
    rw [at', hb, Layout.length_words]
    omega
  obtain ⟨ps, vs, hvs, fills⟩ := rebuildWords_fills (s := s) [] below h
    (show (l.parameters.map Slot.content).length = n by rw [List.length_map, length]) at''
  rw [List.nil_append, List.nil_append, ← words, ← words] at fills
  have placed : Layout.placed { l with parameters := vs.map .value } =
      l.placed ++ Slot.placed below.length (vs.map .value) := by
    obtain ⟨-, body⟩ := List.append_eq_nil_iff.mp (l.placed_eq ▸ blank)
    rw [blank, Layout.placed_eq, body, hb, List.append_nil, List.nil_append]
  have area : (vs.map Slot.value).length = l.parameters.length := by
    rw [List.length_map, hvs, length]
  exact ⟨ps, vs, hvs, lays.step fills area rfl (Slot.snd_placed _ vs).symm placed⟩

/-- The lower part of the body. -/
theorem body {n : Nat} (upper : List Slot) {unwritten : List Slot}
    (lays : Lays s a b o passed positions l)
    (h : rebuildWords s n n b = (.ok r, c)) (body : l.body = upper ++ unwritten)
    (blank : Slot.placed 0 l.body = []) (length : unwritten.length = n) :
    ∃ (ps : List Position) (vs : List Recovered), vs.length = n ∧
      Lays s a c o passed (positions ++ ps) { l with body := upper ++ vs.map .value } := by
  have unwritten' : (unwritten.map Slot.content).length = n := by rw [List.length_map, length]
  obtain ⟨ps, vs, hvs, fills⟩ := rebuildWords_fills (s := s)
    (l.upper.map Slot.content ++ upper.map Slot.content) [] h unwritten' rfl
  have before : l.words = l.upper.map Slot.content ++ upper.map Slot.content ++
      unwritten.map Slot.content ++ [] := by simp [Layout.words_eq_body, body]
  have after : Layout.words { l with body := upper ++ vs.map .value } =
      l.upper.map Slot.content ++ upper.map Slot.content ++ (vs.map .value).map Slot.content ++ [] := by
    simp [Layout.words_eq_body, Layout.upper]
  rw [← before, ← after] at fills
  have placed : Layout.placed { l with body := upper ++ vs.map .value } =
      l.placed ++ Slot.placed 0 (vs.map .value) := by
    have upper' : Slot.placed n upper = [] := by
      rw [body, Slot.placed_append, length, Nat.zero_add] at blank
      exact (List.append_eq_nil_iff.mp blank).1
    rw [Layout.placed_eq, Layout.placed_eq, blank, Slot.placed_append]
    simp [body, hvs, length, upper']
  exact ⟨ps, vs, hvs, lays.step fills rfl rfl (Slot.snd_placed _ vs).symm placed⟩

end Lays

/-! ### Opening and closing -/

/-- The layout of a frame that was just opened, with `m` parameters and `n` words in its body. -/
def opened (s : Scene) (a : Assembly) (m n : Nat) : Layout where
  parameters := List.replicate m (.word .zap)
  callerPc := (s.caller a.frames.getLast?).pc
  callerFp := (s.caller a.frames.getLast?).fp
  context := .zap
  function := .zap
  body := List.replicate n (.word .zap)

/-- A new frame has its area and its fixed part, all of it zapped. -/
theorem openFrame_lays {f : Frame} {m n : Nat} (h : openFrame s f a = (.ok r, b))
    (area : f.area = m) (words : f.words = List.replicate (m + fixedSlots + n) .zap)
    (fresh : f.continuation = none) :
    Lays s a b (f.placeAt (s.ceiling a.frames.getLast? - f.size)).outline [] [] (opened s a m n) := by
  rw [openFrame, Computation.bind_ok (ceiling_apply s a)] at h
  split at h
  · rename_i room
    rw [Computation.bind_ok (callerWords_apply s a)] at h
    simp only [Computation.modify_bind] at h
    obtain ⟨_, u, pc, fp⟩ := Computation.bind_eq_ok h
    let placed := f.placeAt (s.ceiling a.frames.getLast? - f.size)
    let blank : Layout := { opened s a m n with callerPc := .zap, callerFp := .zap }
    -- A new frame is blank, so it is laid out with every word still to be written.
    have down : placed.down = blank.words := by
      have parts : List.replicate (m + fixedSlots + n) Word.zap =
          List.replicate m .zap ++ [.zap, .zap, .zap, .zap] ++ List.replicate n .zap := by
        rw [← List.replicate_append_replicate, ← List.replicate_append_replicate]
        rfl
      rw [Frame.down, show placed.words = f.words from rfl, words, List.reverse_replicate, parts]
      simp [blank, opened, Layout.words, Layout.slots, Layout.upper, Slot.content]
    have none : blank.placed = [] := by
      simp [Layout.placed_eq, blank, opened]
    have lays : Lays s a { a with current := placed, last := .none } placed.outline [] [] blank :=
      { spelled := .nil
        reads := by
          rw [Layout.values, none]
          exact .nil
        frames := rfl
        numbers := by simp [none]
        arguments := by simp [none]
        outline := rfl
        area := by simp [placed, Frame.placeAt, area, blank, opened]
        words := down
        below := ⟨Nat.sub_add_cancel room, rfl, fresh⟩ }
    exact (lays.putFixed pc).putFixed fp
  · cases h

/-- Whether the frame being built is the innermost of `count` and control will go on in it. -/
def Resumes (s : Scene) (a : Assembly) (count : Nat) : Prop :=
  a.frames.length + 1 = count ∧ s.reason ≠ .debugger

/-- Only the last frame gets a continuation when it is closed. -/
theorem closeFrame_ok {count : Nat} {notify : CodeId} (h : closeFrame s count notify a = (.ok r, b))
    (fresh : a.current.continuation = none) : ∃ f : Frame,
      f.outline = { a.current.outline with continuation := f.continuation } ∧
      f.down = a.current.down ∧ (f.continuation.isSome ↔ Resumes s a count) ∧
      b = { a with current := f, frames := a.frames ++ [f] } := by
  simp only [closeFrame, index, Computation.get_bind, Computation.pure_bind_apply, bind_assoc] at h
  refine ⟨b.current, ?_⟩
  split at h
  · rename_i last
    cases h
    exact ⟨rfl, rfl, by simpa [Resumes] using last, rfl⟩
  · rename_i last
    cases h
    exact ⟨rfl, rfl, by simpa [Resumes, fresh] using last, rfl⟩

/-- A frame was added that a record describes. -/
structure Adds (s : Scene) (count : Nat) (a b : Assembly) (opener : Command) (passed : List Int)
    (positions : List Position) (l : Layout) (f : Frame) : Prop where
  spelled : Spells a.cursor.rest (passed ++ positions.flatMap Position.ints) b.cursor.rest
  values : ∀ p ∈ positions, p.opcode.isValue = true
  rebuilt : Rebuilt s a.frames.getLast? opener passed positions l f
  frames : b.frames = a.frames ++ [f]
  numbers : b.numbers = a.numbers ++ l.placed.filterMap (DeferredNumber.of? a.frames.length)
  arguments : b.arguments = a.arguments ++ l.placed.filterMap (DeferredArguments.of? a.frames.length)
  continuation : f.continuation.isSome ↔ Resumes s a count

/-- A frame that is complete is one of those that follow from the records. -/
theorem Lays.close {opener : Command} {type : FrameType} {count : Nat} {notify : CodeId}
    (lays : Lays s a b o passed positions l) (h : closeFrame s count notify b = (.ok r, c))
    (type' : o.type = type) (plan : s.plan? opener = some ⟨type, l.parameters.length, l.body.length⟩)
    (described : Describes s a.frames.getLast? opener passed l)
    (function : type = .javaScript → o.function.map Word.tagged = some l.function) :
    ∃ f, Adds s count a c opener passed positions l f := by
  -- Closing writes the continuation and the state, so everything else is as the frame was laid.
  have fresh : b.current.continuation = none :=
    (congrArg Outline.continuation lays.outline).trans lays.below.fresh
  obtain ⟨f, outline, down, continuation, rfl⟩ := closeFrame_ok h fresh
  rw [lays.outline] at outline
  have words : f.down = l.words := down.trans lays.words
  have type'' : f.type = type := (congrArg Outline.type outline).trans type'
  have area : f.area = o.area := congrArg Outline.area outline
  have top : f.top = o.top := congrArg Outline.top outline
  have size : f.size = o.size := congrArg Outline.size outline
  have fp : f.fp = o.fp := congrArg Outline.fp outline
  have rebuilt : Rebuilt s a.frames.getLast? opener passed positions l f :=
    { plan := by rw [plan, type'']
      area := area.trans ((congrArg Outline.area lays.outline).symm.trans lays.area)
      size := by rw [← f.length_down, words, l.length_words]
      words
      described
      denoted := lays.reads.denoted
      ends := by
        rw [top, size]
        exact lays.below.ends
      linked := by
        rw [fp, Frame.linkAddress, Frame.addressOf, Frame.fixedOffset, top, size, area]
        exact lays.below.linked
      function := by
        have owner : f.function = o.function := congrArg Outline.function outline
        rw [type'', owner]
        exact function }
  refine ⟨f, lays.spelled, lays.reads.isValue, rebuilt, congrArg (· ++ [f]) lays.frames, lays.numbers,
    lays.arguments, ?_⟩
  rw [continuation, Resumes, Resumes, lays.frames]

end Assembly

end Speculation
