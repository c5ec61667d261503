import Speculation.Proofs.Bailout.Arguments
import Speculation.Proofs.Bailout.Moves

/-!
# There and back again

A function that enters optimized code by a replacement and leaves it at once by a bailout at the same
point goes on with the frame that it had. Both directions read one recipe, and the frame of optimized
code is where they meet (`Frame.Receives`): the replacement has put every interpreted word at the place
that its command names, and the bailout finds it there.

The recipe may use registers and slots for any values, and untagged integers for small ones. Values that
have to be boxed again would be other objects than before.
-/

namespace Speculation

open Recipe

/-! ### Interpreted frames -/

/-- The frame of a function that runs unoptimized code. -/
structure Frame.Interprets (f : Frame) (h : Heap) (function : Value) : Prop where
  type : f.type = .javaScript
  callee : f.function = some function
  area : (h.functionShared? function).map (fun shared => shared.formals + 1) = some f.area
  linked : f.fp = f.linkAddress

namespace Frame

/-- The words beside the fixed part, from the top down: receiver, parameters and expressions. -/
def ownWords (f : Frame) : List Word := f.down.take f.area ++ f.down.drop (f.area + fixedSlots)

theorem down_fixed (f : Frame) (slot : FixedSlot) :
    f.down[f.area + slot.depth]? = some (f.fixed slot) := by
  have fits : f.area + fixedSlots ≤ f.size := f.fits
  have depth := slot.depth_lt
  have place : f.size - 1 - f.fixedOffset slot = f.area + slot.depth := by
    unfold fixedOffset
    omega
  rw [← place, f.down_getElem? (f.fixedOffset_lt_size slot)]
  exact slot_ok (f.slot_fixed slot)

/-- The words of a frame are its own words around the fixed part. -/
theorem down_eq (f : Frame) :
    f.down = f.down.take f.area ++ FixedSlot.all.map f.fixed ++ f.down.drop (f.area + fixedSlots) := by
  have fixed : (f.down.drop f.area).take fixedSlots = FixedSlot.all.map f.fixed := by
    apply List.ext_getElem?
    intro i
    rcases i with _ | _ | _ | _ | i
    · simpa [fixedSlots, FixedSlot.all, FixedSlot.depth] using f.down_fixed .callerPc
    · simpa [fixedSlots, FixedSlot.all, FixedSlot.depth] using f.down_fixed .callerFp
    · simpa [fixedSlots, FixedSlot.all, FixedSlot.depth] using f.down_fixed .context
    · simpa [fixedSlots, FixedSlot.all, FixedSlot.depth] using f.down_fixed .function
    · have outside : ((f.down.drop f.area).take fixedSlots).length ≤ i + 4 := by
        rw [List.length_take, fixedSlots]
        omega
      rw [List.getElem?_eq_none outside]
      rfl
  rw [← fixed, List.append_assoc, ← List.drop_drop, List.take_append_drop, List.take_append_drop]

/-- What is the same in two frames of a function, all but the function's word. -/
structure Restores (g f : Frame) : Prop where
  type : g.type = .javaScript
  size : g.size = f.size
  area : g.area = f.area
  top : g.top = f.top
  fp : g.fp = f.fp
  receiver : g.receiver = f.receiver
  parameters : ∀ i < f.parameterCount, g.parameter i = f.parameter i
  expressions : ∀ i < f.expressionCount, g.expression i = f.expression i
  callerPc : g.fixed .callerPc = f.fixed .callerPc
  callerFp : g.fixed .callerFp = f.fixed .callerFp
  context : g.fixed .context = f.fixed .context

theorem slot_congr {f g : Frame} (words : g.words = f.words) (o : Nat) : g.slot o = f.slot o := by
  rw [slot, slot, size, size, words]

/-- Frames at the same address that differ only in the function's word. -/
theorem Restores.of_words {f g : Frame} {w : Word} (type : g.type = .javaScript) (area : g.area = f.area)
    (ends : g.top + g.size = f.top + f.size) (linked : g.fp = g.linkAddress)
    (linked' : f.fp = f.linkAddress) (words : g.words = (f.write (f.fixedOffset .function) w).words) :
    g.Restores f := by
  have fits : f.area + 4 ≤ f.size := f.fits
  have size : g.size = f.size := by
    rw [Frame.size, words]
    exact f.size_write ..
  have top : g.top = f.top := by omega
  have offset (s : FixedSlot) : g.fixedOffset s = f.fixedOffset s := by
    rw [fixedOffset, fixedOffset, size, area]
  -- The two frames have the same words but for the function's, so every other offset reads
  -- alike.
  have function : f.fixedOffset .function = f.size - f.area - 1 - 3 := rfl
  have slot {o : Nat} (other : f.fixedOffset .function ≠ o) : g.slot o = f.slot o := by
    rw [slot_congr words, f.slot_write_ne w other]
  have fixed {s : FixedSlot} (other : s ≠ .function) : g.fixed s = f.fixed s := by
    have same := slot (o := f.fixedOffset s) fun same =>
      other (Place.fixed.inj (offset_inj (f := f) (congrArg (fun n : Nat => some (n : Int)) same.symm) rfl))
    rw [← offset s, g.slot_fixed, offset s, f.slot_fixed] at same
    exact Except.ok.inj same
  have count : g.expressionCount = f.expressionCount := by
    rw [expressionCount, expressionCount, size, area]
  constructor
  case type => exact type
  case size => exact size
  case area => exact area
  case top => exact top
  case fp => rw [linked, linked', linkAddress, linkAddress, addressOf, addressOf, offset, top]
  case receiver =>
    rw [Frame.receiver, Frame.receiver, size]
    exact slot (by omega)
  case parameters =>
    intro i inside
    unfold parameterCount at inside
    rw [parameter, parameter, size]
    split
    · exact slot (by omega)
    · rfl
  case expressions =>
    intro i inside
    rw [expression, expression, count, if_pos inside, if_pos inside]
    unfold expressionCount fixedSlots at inside ⊢
    exact slot (by omega)
  case callerPc => exact fixed (by simp)
  case callerFp => exact fixed (by simp)
  case context => exact fixed (by simp)

end Frame

/-! ### Entering -/

/-- The bailout point at which the current code of a function is entered. -/
structure EnteredAt (e : Engine) (function : Value) (code : CodeId) (data : BailoutData) (index : Nat)
    (entry : BailoutEntry) : Prop where
  current : e.currentCode? (some function) = some code
  known : (e.codeSpace.get code).bailouts = some data
  found : data.osrNode.bind data.entryForNode? = some index
  point : data.entries[index]? = some entry

/-- A recipe for one frame of a function, with these commands for its words. -/
structure EntryRecipe (bytes : List UInt8) (js literal height : UInt32) (node : NodeId)
    (commands : List Command) : Prop where
  spelled : ∃ rest, Spells bytes
    ((.begin 1 js :: .jsFrame node literal height :: commands).flatMap Command.ints) rest

/-- A result that does not end the program. -/
def Survives {α σ : Type} (r : Except Fault α × σ) : Prop :=
  ∀ f t, r = (.error f, t) → f.isTerminal = false

namespace Survives

variable {α σ : Type} {P : α → σ → Prop} {r : Except Fault α × σ}

theorem of_toOption (ok : r.1.toOption.isSome = true) : Survives r := by
  rintro f t rfl
  cases ok

/-- A computation that survives does not fail for good. -/
theorem not_terminal {f : Fault} {t : σ} (survives : Survives r) (failed : r = (.error f, t)) :
    ¬ f.isTerminal = true := by
  rw [survives f t failed]
  decide

/-- A step that fails only for good gives a result. -/
theorem ok (survives : Survives r) (settles : Settles P r) : ∃ x t, r = (.ok x, t) ∧ P x t := by
  cases settles with
  | failed terminal => exact absurd terminal (survives.not_terminal rfl)
  | done holds => exact ⟨_, _, rfl, holds⟩

end Survives

/-- A frame of optimized code that has taken the place of an interpreted one. -/
structure Frame.Receives (f input : Frame) (moves : List Move) : Prop where
  ends : f.top + f.size = input.top + input.size
  held : ∀ m ∈ moves, f.held? m.place = some m.word
  fixed : ∀ slot, f.fixed slot = input.fixed slot

/-- The function that a request names, which is no small integer. -/
theorem BailoutRequest.callee_eq (r : BailoutRequest) {function : Value}
    (named : r.function = some function) (known : function.isSmi = false) : r.callee = some function := by
  simp [callee, named, known]

/-- The words that a frame owns are its parameters and its expressions, around the fixed part. -/
theorem Frame.split_ownWords {input : Frame} {moves : List Move}
    (words : input.ownWords = moves.map Move.source) : ∃ ps es : List Move,
    moves = ps ++ es ∧ input.area = ps.length ∧
      input.down = ps.map Move.source ++ FixedSlot.all.map input.fixed ++ es.map Move.source := by
  have fits : input.area + fixedSlots ≤ input.size := input.fits
  have length : (input.down.take input.area).length = input.area := by
    rw [List.length_take, input.length_down]
    omega
  obtain ⟨ps, es, rfl, upper, lower⟩ := List.map_eq_append_iff.mp words.symm
  refine ⟨ps, es, rfl, ?_, ?_⟩
  · rw [← length, ← upper, List.length_map]
  · rw [upper, lower]
    exact input.down_eq

theorem Heap.isSmi_of_function {h : Heap} {v : Value} {n : Nat}
    (known : (h.functionShared? v).map (fun shared => shared.formals + 1) = some n) :
    v.isSmi = false := by
  cases v with
  | smi i => cases known
  | _ => rfl

section Entering

variable {e : Engine} {function : Value} {input : Frame} {code : CodeId} {data : BailoutData} {index : Nat}
  {entry : BailoutEntry} {moves : List Move} {js literal height : UInt32} {node : NodeId}

/-- A replacement begins with the current code of the function. -/
theorem Engine.replaceOnStack_begins (top : e.stack.top? = some input) (object : function.isSmi = false)
    (current : e.currentCode? (some function) = some code) : ∃ (b : Bailout) (trace : List TraceLine),
      b.function = some function ∧ b.code = code ∧ b.input = input ∧
      replaceOnStack function e = (b.replaceFrame >>= resume) { e with trace } := by
  let r : BailoutRequest := { reason := .osr, function := some function, address := input.pc }
  have callee : r.callee = some function := r.callee_eq rfl object
  have counted : e.counted r = e := by
    rw [Engine.counted, callee]
    rfl
  have leaves : (e.counted r).codeToLeave? r r.callee = some code := by
    rw [counted, callee]
    exact current
  obtain ⟨b, e₁, begun⟩ := beginBailout_of_code input leaves
  obtain ⟨code', leaves', rfl, he₁⟩ := beginBailout_ok begun
  obtain rfl : code = code' := Option.some.inj (leaves.symm.trans leaves')
  rw [counted] at he₁
  refine ⟨r.bailout input code ((e.counted r).tracesBailout r.reason), e₁.trace, callee, rfl, rfl, ?_⟩
  rw [replaceOnStack, Computation.bind_ok (topFrame_of_top _ top), Computation.bind_ok begun, ← he₁]
  rfl

/-- **A replacement puts the interpreted frame into optimized code.** It fails for good, or every word is
where the recipe says. -/
theorem Bailout.replaceFrame_receives {b : Bailout} (callee : b.function = some function)
    (interpreted : b.input.Interprets e.heap function)
    (entered : EnteredAt e function b.code data index entry)
    (recipe : EntryRecipe (data.recipes.drop entry.recipe) js literal height node (moves.map Move.command))
    (words : b.input.ownWords = moves.map Move.source) (apart : (moves.map Move.place).Nodup) :
    Settles (fun b' k => ∃ frame, b' = b.entered index frame ∧ k = { e with trace := k.trace } ∧
        frame.Receives b.input moves ∧ moves.length = b.input.area + height.toNat ∧
        (Command.begin 1 js).Legible ∧ (Command.jsFrame node literal height).Legible)
      (b.replaceFrame e) := by
  rcases b.replaceFrame_cases e with ⟨f, k, terminal, failed⟩ |
    ⟨function', data', node', index', entry', n, cursor, shared, output, moved, t, enters, ran, outcome⟩
  · rw [failed]
    exact .failed terminal
  obtain rfl : function = function' := Option.some.inj (callee.symm.trans enters.callee)
  obtain rfl : data = data' := Option.some.inj (entered.known.symm.trans enters.known)
  obtain rfl : index = index' := by
    have found := entered.found
    rw [enters.enters, Option.bind_some, enters.found] at found
    exact (Option.some.inj found).symm
  obtain rfl : entry = entry' := Option.some.inj (entered.point.symm.trans enters.point)
  -- The recipe is read up to the first word.
  obtain ⟨rest, spelled⟩ := recipe.spelled
  rw [List.flatMap_cons, List.flatMap_cons, List.flatMap_map] at spelled
  obtain ⟨rfl, begins, opens, spelled'⟩ := Replacement.expectedHeight_spelled enters.expects spelled
  obtain ⟨ps, es, rfl, area, down⟩ := Frame.split_ownWords words
  have formals : shared.formals + 1 = b.input.area := by
    have known := interpreted.area
    rw [enters.info] at known
    exact Option.some.inj known
  have size : es.length = height.toNat := by
    have sizes := enters.size
    have length := congrArg List.length down
    rw [b.input.length_down] at length
    simp [FixedSlot.all] at length
    unfold fixedSlots at sizes
    omega
  obtain ⟨-, area', -, -⟩ := Frame.make_ok enters.made
  have settles : Settles _ (moved, t) := ran ▸ size ▸ @Replacement.run_holds (b.scene e data)
    { cursor, output } [] rest ps es _ shared.name node' entry down rfl area
    (area'.trans (formals.trans area)) apart (by simpa using spelled')
  rw [outcome]
  cases settles with
  | failed terminal => exact .failed terminal
  | @done frame _ holds =>
    obtain ⟨-, -, held, fixed⟩ := holds
    refine .done ⟨frame, rfl, rfl, ⟨(Replacement.run_placed ran).1, held, fun slot => ?_⟩, ?_, begins, opens⟩
    · exact Option.some.inj ((Frame.slot_ok (frame.slot_fixed slot)).symm.trans (fixed slot))
    · rw [List.length_append, area, size]

/-- The new frame takes the place of the interpreted one. -/
theorem Engine.replaceOnStack_receives (top : e.stack.top? = some input)
    (interpreted : input.Interprets e.heap function)
    (entered : EnteredAt e function code data index entry)
    (recipe : EntryRecipe (data.recipes.drop entry.recipe) js literal height node (moves.map Move.command))
    (words : input.ownWords = moves.map Move.source) (apart : (moves.map Move.place).Nodup) :
    Settles (fun _ k => ∃ frame, k = { e with trace := k.trace, stack := e.stack.replaceTop [frame] } ∧
        frame.Receives input moves ∧ moves.length = input.area + height.toNat ∧
        (Command.begin 1 js).Legible ∧ (Command.jsFrame node literal height).Legible)
      (replaceOnStack function e) := by
  obtain ⟨b, trace, callee, rfl, rfl, begins⟩ :=
    replaceOnStack_begins top (Heap.isSmi_of_function interpreted.area) entered.current
  have entered' : EnteredAt { e with trace } function b.code data index entry := { entered with }
  rw [begins]
  refine .bind (b.replaceFrame_receives callee interpreted entered' recipe words apart) ?_
  rintro _ k ⟨frame, rfl, hk, receives⟩
  exact .done ⟨frame, by rw [hk]; rfl, receives⟩

end Entering

/-! ### Leaving -/

/-- A frame is its blank form with its words. -/
theorem Frame.eq_of_blank {f g : Frame} (blank : g.blank = f.blank) (words : g.words = f.words) : g = f := by
  cases f
  cases g
  simp only [Frame.blank, Frame.mk.injEq] at blank words ⊢
  exact ⟨blank.1, blank.2.1, blank.2.2.1, words, blank.2.2.2.2⟩

/-- A frame in which nothing had to wait stays as it was rebuilt. -/
theorem Layout.Filled.eq_of_tagged {l : Layout} {h : Heap} {f g : Frame} (filled : l.Filled h f g)
    (words : f.down = l.words) (tagged : ∀ v ∈ l.values, ∃ x, v = .tagged x) : g = f := by
  refine Frame.eq_of_blank filled.blank (List.ext_getElem? fun o => ?_)
  have size : g.size = f.size := congrArg Outline.size (Frame.outline_eq filled.blank)
  rw [Layout.words_getElem? words]
  cases slot : l.at? o with
  | none =>
    have outside : f.words[o]? = none := by
      rw [Layout.words_getElem? words, slot]
      rfl
    rw [List.getElem?_eq_none_iff] at outside
    rw [List.getElem?_eq_none_iff.mpr]
    · rfl
    · exact Nat.le_trans (Nat.le_of_eq size) outside
  | some slot' =>
    obtain ⟨w, hw, holds⟩ := filled.holds o slot' slot
    rw [hw]
    cases slot' with
    | word x => exact congrArg some holds
    | value v =>
      have placed : (o, v) ∈ l.placed := Slot.mem_placed.mpr ⟨Nat.zero_le o, slot⟩
      obtain ⟨x, rfl⟩ := tagged v (List.mem_map.mpr ⟨_, placed, rfl⟩)
      exact congrArg some holds

namespace Move

/-- The position of a move in a record. -/
def position (m : Move) : Position :=
  ⟨0, m.command.opcode, m.command.operands, m.carries.opcode_ne, m.command.length_operands⟩

theorem ints_position (m : Move) : m.position.ints = m.command.ints := rfl

/-- The value that is taken back out. -/
def recovered (m : Move) : Recovered := .tagged m.value

/-- A position that reads back the word of a move recovers the value that was moved. -/
theorem denotes {s : Scene} {m : Move} {v : Recovered} (held : s.input.held? m.place = some m.word)
    (denotes : m.position.Denotes s v) : v = m.recovered := by
  obtain ⟨-, c, parts, denotes⟩ := denotes
  obtain rfl := Command.eq_of_ofParts?_operands parts
  exact m.carries.denotes held denotes

end Move

section Leaving

variable {s : Scene} {opener : Command} {l : Layout} {f input : Frame} {ps es : List Move}
  {function : Value} {node : NodeId} {literal height : UInt32}

/-- The values of the rebuilt frame are those that were moved. -/
theorem Rebuilt.values_of_moves {moves : List Move} {passed : List Int}
    (rebuilt : Rebuilt s none opener passed (moves.map Move.position) l f)
    (held : ∀ m ∈ moves, s.input.held? m.place = some m.word) : l.values = moves.map Move.recovered := by
  have length := rebuilt.denoted.length
  refine List.ext_getElem (by simpa using length) fun k hk hk' => ?_
  rw [List.length_map] at length hk'
  have position : (moves.map Move.position)[k]? = some moves[k].position := by
    rw [List.getElem?_map, List.getElem?_eq_getElem hk']
    rfl
  have denotes := rebuilt.denoted.own position rfl (List.getElem?_eq_getElem hk)
  rw [List.getElem_map]
  exact Move.denotes (held _ (List.getElem_mem hk')) denotes

/-- **A bailout rebuilds the interpreted frame** if the optimized frame has received it. -/
theorem Rebuilt.restores
    (rebuilt : Rebuilt s none (.jsFrame node literal height) [] ((ps ++ es).map Move.position) l f)
    (receives : s.input.Receives input (ps ++ es)) (known : s.data.literals[literal.toNat]? = some function)
    (area : input.area = ps.length) (area' : f.area = input.area)
    (down : input.down = ps.map Move.source ++ FixedSlot.all.map input.fixed ++ es.map Move.source)
    (linked : input.fp = input.linkAddress) : f.Restores input := by
  have values := rebuilt.values_of_moves receives.held
  have words := rebuilt.words
  have type := rebuilt.type_iff.1.mpr rfl
  have ends : f.top + f.size = input.top + input.size := rebuilt.ends.trans receives.ends
  have width := area'.symm.trans rebuilt.area
  cases rebuilt.described with
  | @javaScript _ _ _ function' d parameters body known' found =>
    obtain rfl : function = function' := Option.some.inj (known.symm.trans known')
    rw [Layout.values, Layout.placed_eq, List.map_append, Slot.snd_placed, Slot.snd_placed,
      List.map_append] at values
    rw [List.length_map] at width
    obtain ⟨rfl, rfl⟩ := List.append_inj values (by rw [List.length_map, ← width, area])
    -- The rebuilt function is a literal, so its word is not compared.
    refine .of_words (w := .tagged function) type area' ends rebuilt.linked linked ?_
    have parts : input.down = (ps.map Move.source ++ [input.fixed .callerPc, input.fixed .callerFp,
        input.fixed .context]) ++ input.fixed .function :: es.map Move.source := by
      rw [down]
      simp [FixedSlot.all]
    have offset : (es.map Move.source).length = input.fixedOffset .function := by
      have length := congrArg List.length parts
      rw [input.length_down] at length
      simp at length
      rw [List.length_map, Frame.fixedOffset, FixedSlot.depth]
      omega
    have written := Frame.down_write (.tagged function) parts
    rw [offset] at written
    refine List.reverse_inj.mp (words.trans (Eq.trans ?_ written.symm))
    have content (ms : List Move) : ms.map (Slot.content ∘ Slot.value ∘ Move.recovered) =
        ms.map Move.source := rfl
    simp [Layout.words, Layout.slots, Layout.upper, Slot.content, Scene.caller, receives.fixed, content]

/-- The record of the one frame of a recipe by which code is entered. -/
def entryRecord (moves : List Move) (opens : (Command.jsFrame node literal height).Legible) : FrameRecord :=
  ⟨.jsFrame node literal height, Command.operands (.jsFrame node literal height), [],
    moves.map Move.position, opens⟩

theorem Walked.entryRecord {bytes : List UInt8} {js count : UInt32} {moves : List Move}
    {records : List FrameRecord} {ls : List Layout} {frames : List Frame} {numbers : List DeferredNumber}
    {arguments : List DeferredArguments} {n : Nat}
    (w : Walked s bytes count records ls frames numbers arguments)
    (recipe : EntryRecipe bytes js literal height node (moves.map Move.command))
    (begins : (Command.begin 1 js).Legible) (opens : (Command.jsFrame node literal height).Legible)
    (plan : s.plan? (.jsFrame node literal height) = some ⟨.javaScript, n, height.toNat⟩)
    (length : moves.length = n + height.toNat) : records = [Speculation.entryRecord moves opens] := by
  have complete : (Speculation.entryRecord moves opens).Complete s := by
    refine ⟨?_, (by cases ·), fun _ => rfl⟩
    change s.positions? (.jsFrame node literal height) = some (moves.map Move.position).length
    rw [Scene.positions?_jsFrame, plan, List.length_map, length]
    rfl
  obtain ⟨rest, spelled⟩ := recipe.spelled
  have ints : (Command.jsFrame node literal height :: moves.map Move.command).flatMap Command.ints =
      [Speculation.entryRecord moves opens].flatMap FrameRecord.ints := by
    simp [Speculation.entryRecord, FrameRecord.ints, Command.ints, List.flatMap_map, Move.ints_position]
  rw [List.flatMap_cons, ints] at spelled
  exact (w.records_eq begins spelled rfl (by simpa using complete)).1

end Leaving

/-! ### There and back -/

/-- The frame that a recipe opens for the function has the outline of the interpreted one. -/
theorem Frame.Interprets.plan {s : Scene} {h : Heap} {function : Value} {input : Frame} {node : NodeId}
    {literal height : UInt32} (interpreted : input.Interprets h function)
    (functions : s.heap.SameFunctions h) (callee : s.data.literals[literal.toNat]? = some function) :
    s.plan? (.jsFrame node literal height) = some ⟨.javaScript, input.area, height.toNat⟩ := by
  obtain ⟨shared, found, area⟩ := Option.map_eq_some_iff.mp interpreted.area
  obtain ⟨data, known, rfl⟩ := Option.map_eq_some_iff.mp found
  rw [functions.data] at known
  rw [functions.formals] at area
  simp [callee, known]
  exact area

namespace Engine

variable {e e' : Engine} {r : BailoutRequest} {input : Frame}

theorem beginBailout_fatal (r : BailoutRequest) (input : Frame) : Fatal (beginBailout r input) := ⟨by
  intro e e' f h
  obtain ⟨text, parts⟩ := beginBailout_counted r input e
  rw [parts] at h
  cases found : (e.counted r).codeToLeave? r r.callee with
  | none =>
    rw [found] at h
    cases h
    rfl
  | some code =>
    rw [found] at h
    dsimp only at h
    split at h
    · cases h
    · cases h⟩

/-- Once there is a frame to leave, a bailout fails only for good. -/
theorem deoptimize_settles (top : e.stack.top? = some input)
    (reason : r.reason = .eager ∨ r.reason = .lazy) :
    Settles (fun _ _ => True) (deoptimize r e) := by
  have fatal (code : CodeId) (traced : Bool) : Fatal (do
      let b ← (r.bailout input code traced).rebuildFrames
      let b ← b.materialize
      resume b) :=
    .bind (Bailout.rebuildFrames_fatal _) fun b =>
      .bind b.materialize_fatal fun _ => .bind (.modify _) fun _ => .pure _
  rcases left : deoptimize r e with ⟨f | res, k⟩
  · rw [deoptimize, Computation.bind_ok (topFrame_of_top _ top)] at left
    rcases begun : beginBailout r input e with ⟨g | b, e₁⟩
    · rw [Computation.bind_error begun] at left
      cases left
      exact .failed ((beginBailout_fatal r input).terminal begun)
    · obtain ⟨code, -, rfl, -⟩ := beginBailout_ok begun
      rw [Computation.bind_ok begun, r.rebuild_eq reason] at left
      exact .failed ((fatal ..).terminal left)
  · exact .done trivial

/-- **A bailout at the point of entry leaves the interpreted frame.** -/
theorem deoptimize_restores {function : Value} {optimized : Frame} {code : CodeId} {data : BailoutData}
    {index address : Nat} {entry : BailoutEntry} {js literal height : UInt32} {node : NodeId}
    {moves : List Move} {res : Resumption} (top : e.stack.top? = some optimized)
    (interpreted : input.Interprets e.heap function)
    (entered : EnteredAt e function code data index entry)
    (recipe : EntryRecipe (data.recipes.drop entry.recipe) js literal height node (moves.map Move.command))
    (callee : data.literals[literal.toNat]? = some function)
    (words : input.ownWords = moves.map Move.source) (receives : optimized.Receives input moves)
    (length : moves.length = input.area + height.toNat) (begins : (Command.begin 1 js).Legible)
    (opens : (Command.jsFrame node literal height).Legible)
    (left : deoptimize { reason := .eager, function := some function, entry := index, address } e =
      (.ok res, e')) : ∃ frame, res.frames = [frame] ∧ frame.Restores input := by
  let r : BailoutRequest := { reason := .eager, function := some function, entry := index, address }
  -- The bailout leaves the frame and the code that the replacement has entered.
  obtain ⟨optimized', code', data', entry', a, count, records, ls, d⟩ := deoptimize_departs left (.inl rfl)
  obtain rfl : optimized = optimized' := Option.some.inj (top.symm.trans d.top)
  obtain rfl : code = code' := by
    have same := d.leaves
    rw [codeToLeave?_counted, r.callee_eq rfl (Heap.isSmi_of_function interpreted.area)] at same
    exact Option.some.inj (entered.current.symm.trans same)
  obtain rfl : data = data' := Option.some.inj (entered.known.symm.trans d.known)
  obtain rfl : entry = entry' := Option.some.inj (entered.point.symm.trans d.point)
  have plan : (r.scene e optimized code data).plan? (.jsFrame node literal height) =
      some ⟨.javaScript, input.area, height.toNat⟩ := interpreted.plan (e.counted_sameFunctions r) callee
  obtain rfl := d.walked.entryRecord recipe begins opens plan length
  obtain ⟨frame, one⟩ := List.length_eq_one_iff.mp (d.length.trans d.walked.follows.length.2)
  obtain ⟨f, record, l, -, same, -, rebuilt, filled⟩ := d.frame (i := 0) (by rw [one]; rfl)
  obtain rfl := Option.some.inj same
  have area : f.area = input.area := by
    have planned := rebuilt.plan
    rw [show (entryRecord moves opens).opener = .jsFrame node literal height from rfl, plan] at planned
    rw [rebuilt.area]
    exact (congrArg FramePlan.parameters (Option.some.inj planned)).symm
  obtain ⟨ps, es, rfl, width, down⟩ := Frame.split_ownWords words
  -- No value had to wait, so the frame stays as it was rebuilt.
  obtain rfl : frame = f := filled.eq_of_tagged rebuilt.words fun v hv => by
    rw [rebuilt.values_of_moves receives.held] at hv
    obtain ⟨m, -, rfl⟩ := List.mem_map.mp hv
    exact ⟨m.value, rfl⟩
  exact ⟨frame, one, rebuilt.restores receives callee width area down interpreted.linked⟩

end Engine

/-- **Entering optimized code and leaving it again restores the interpreted frame.** The recipe of the
point at which the code is entered has one move for each word of the frame, and no two of them share a
place. Unless one of the two steps ends the program, the replacement succeeds, and an eager bailout at the
same point leaves one frame, which has the size, the address, and all words but the function's of the
interpreted one. -/
theorem frame_restored {e : Engine} {function : Value} {input : Frame} {code : CodeId} {data : BailoutData}
    {index address : Nat} {entry : BailoutEntry} {js literal height : UInt32} {node : NodeId}
    {moves : List Move} (top : e.stack.top? = some input) (interpreted : input.Interprets e.heap function)
    (entered : EnteredAt e function code data index entry)
    (recipe : EntryRecipe (data.recipes.drop entry.recipe) js literal height node (moves.map Move.command))
    (callee : data.literals[literal.toNat]? = some function)
    (words : input.ownWords = moves.map Move.source) (apart : (moves.map Move.place).Nodup)
    (enters : Survives (Engine.replaceOnStack function e))
    (leaves : Survives (Engine.deoptimize
      { reason := .eager, function := some function, entry := index, address }
      (Engine.replaceOnStack function e).2)) :
    ∃ res k res' k' frame, Engine.replaceOnStack function e = (.ok res, k) ∧
      Engine.deoptimize { reason := .eager, function := some function, entry := index, address } k =
        (.ok res', k') ∧
      res'.frames = [frame] ∧ frame.Restores input := by
  obtain ⟨res, k, replaced, optimized, hk, receives, length, begins, opens⟩ :=
    enters.ok (Engine.replaceOnStack_receives top interpreted entered recipe words apart)
  rw [replaced] at leaves
  have top' : k.stack.top? = some optimized := by
    rw [hk]
    rfl
  obtain ⟨res', k', left, -⟩ := leaves.ok (Engine.deoptimize_settles top' (.inl rfl))
  -- The replacement changed the stack and the log only.
  have interpreted' : input.Interprets k.heap function := by
    rw [hk]
    exact interpreted
  have entered' : EnteredAt k function code data index entry := by
    rw [hk]
    exact { entered with }
  obtain ⟨frame, one, restores⟩ := Engine.deoptimize_restores top' interpreted' entered' recipe callee words
    receives length begins opens left
  exact ⟨res, k, res', k', frame, replaced, left, one, restores⟩

namespace Sample

/-- The recipe by which a loop of `outer` is entered, with three words in the body. -/
def loopRecipe : List Int := [0, 1, 1, 1, 1, 0, 3, 11, -2, 13, 1, 7, 3, 8, 0, 12, 0]

/-- The bailout point at the head of the loop. -/
def loopEntry : BailoutEntry := { node := ⟨1⟩, recipe := 0, argumentsHeight := 0, pc := 12 }

/-- The bailout data of the loop's optimized code. -/
def loopData : BailoutData :=
  { recipes := bytes loopRecipe
    entries := [loopEntry]
    literals := [.object ⟨11⟩]
    osrNode := some ⟨1⟩ }

/-- Builds an engine that interprets a loop of `outer`, which has optimized code by now. -/
def loopSetUp : Engine.Action Unit := do
  let outer ← Engine.onHeap (Heap.newShared "outer" 1 none)
  let (f, _) ← Engine.compileBaseline outer 64 ⟨[(⟨1⟩, ⟨20, .noRegisters⟩)]⟩
  let (code, e) := (← get).addCode (.optimized outer 48 2 loopData)
  let (_, e) := e.installCode f code
  let frame := Frame.ofFunction .javaScript (.object f) 1 3
  let frame := frame.link 0 Stack.base (.tagged .undefined) (.tagged (.object f))
  let frame := (frame.setReceiver (.tagged .undefined)).setParameters [.tagged (.smi 5)]
  let frame ← (liftM (frame.setExpressions
    [.tagged (.object f), .tagged (.smi (-3)), .tagged (.smi 0)]) : Engine.Action Frame)
  set { e with stack := ← e.stack.push frame }

/-- An engine that interprets the loop. -/
def loopEngine : Engine := (loopSetUp (Engine.ofConfig {})).2

/-- The frame of the loop. -/
def loopFrame : Frame := loopEngine.stack.top?.getD default

/-- Where the words of the loop go. -/
def loopMoves : List Move :=
  [⟨.stackSlot (-2), .undefined, .slot (-2), .tagged .undefined, .stackSlot⟩,
   ⟨.uint32StackSlot 1, .smi 5, .slot 1, .int 5, .uint32StackSlot rfl (by decide)⟩,
   ⟨.register 3, .object ⟨11⟩, .register 3, .tagged (.object ⟨11⟩), .register⟩,
   ⟨.int32Register 0, .smi (-3), .register 0, .int (-3), .int32Register rfl⟩,
   ⟨.int32StackSlot 0, .smi 0, .slot 0, .int 0, .int32StackSlot rfl⟩]

/-- The loop of the sample runs in an interpreted frame. -/
theorem loopInterpreted : loopFrame.Interprets loopEngine.heap (.object ⟨11⟩) := by
  constructor <;> decide +kernel

/-- The loop of the sample can be entered. -/
theorem loopEntered : EnteredAt loopEngine (.object ⟨11⟩) ⟨10⟩ loopData 0 loopEntry := by
  constructor <;> decide +kernel

end Sample

/-- A loop with two words in registers and three in slots, three of them untagged, is entered and left
again. -/
theorem frame_restored_loop : ∃ res k res' k' frame,
    Engine.replaceOnStack (.object ⟨11⟩) Sample.loopEngine = (.ok res, k) ∧
    Engine.deoptimize { reason := .eager, function := some (.object ⟨11⟩), entry := 0 } k =
      (.ok res', k') ∧
    res'.frames = [frame] ∧ frame.Restores Sample.loopFrame := by
  have top : Sample.loopEngine.stack.top? = some Sample.loopFrame := by decide +kernel
  have recipe : EntryRecipe (Sample.loopData.recipes.drop Sample.loopEntry.recipe) 1 0 3 ⟨1⟩
      (Sample.loopMoves.map Move.command) :=
    ⟨[], .of_readInts (n := Sample.loopRecipe.length) (by decide +kernel)⟩
  exact frame_restored top Sample.loopInterpreted Sample.loopEntered recipe rfl (by decide +kernel)
    (by decide +kernel) (.of_toOption (by decide +kernel)) (.of_toOption (by decide +kernel))

end Speculation
