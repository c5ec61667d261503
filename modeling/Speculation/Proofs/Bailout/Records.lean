import Speculation.Proofs.Bailout.Rebuilding

/-!
# Records of a recipe

A recipe can be taken apart into records in one way only. A command is as long as its opcode says, so
positions can be told apart (`Position.ints_append_inj`), and a frame command says how many positions
follow it (`Scene.positions?`). `Recipe.WellFormed` says when a recipe is made of proper records. The
records that a walk has read are then these (`Recipe.WellFormed.records_eq`).
-/

namespace Speculation

/-! ### Reading the same bytes twice -/

namespace Recipe.Spells

variable {bs mid rest : List UInt8} {is js : List Int}

/-- Integers that were read are spelled by the bytes. -/
theorem of_readInts {n : Nat} (h : readInts n bs = (some is, rest)) : Spells bs is rest := by
  induction n generalizing bs is with
  | zero =>
    cases h
    exact .nil
  | succ n ih =>
    unfold readInts at h
    rcases first : readInt bs with ⟨i | i, mid⟩
    · rw [first] at h
      cases h
    · rw [first] at h
      rcases later : readInts n mid with ⟨js | js, rest'⟩
      · simp [later] at h
      · simp only [later, Option.map_some] at h
        cases h
        exact .cons first (ih later)

/-- What was read is the start of all that can be read. -/
theorem consume (h : Spells bs is mid) (h' : Spells bs js rest) (short : is.length ≤ js.length) :
    ∃ ks, js = is ++ ks ∧ Spells mid ks rest := by
  induction h generalizing js with
  | nil => exact ⟨js, rfl, h'⟩
  | @cons bs mid' mid i is head tail ih =>
    cases h' with
    | nil => simp at short
    | @cons _ mid'' _ j js head' tail' =>
      rw [head] at head'
      obtain ⟨same, rfl⟩ := Prod.mk.inj head'
      cases same
      obtain ⟨ks, rfl, spelled⟩ := ih tail' (by simpa using short)
      exact ⟨ks, rfl, spelled⟩

/-- A part whose length is known. -/
theorem consume_append {ks : List Int} (h : Spells bs is mid) (h' : Spells bs (js ++ ks) rest)
    (length : is.length = js.length) : is = js ∧ Spells mid ks rest := by
  obtain ⟨ls, same, spelled⟩ := h.consume h' (by simp [length])
  obtain ⟨rfl, rfl⟩ := List.append_inj same length.symm
  exact ⟨rfl, spelled⟩

/-- A single integer. -/
theorem consume_cons {i j : Int} (h : Spells bs [i] mid) (h' : Spells bs (j :: js) rest) :
    i = j ∧ Spells mid js rest := by
  obtain ⟨ks, same, spelled⟩ := h.consume h' (by simp)
  obtain ⟨rfl, rfl⟩ := List.cons.inj same
  exact ⟨rfl, spelled⟩

end Recipe.Spells

/-! ### Commands and positions -/

/-- Lists of the same length can be told apart if their elements can, whatever follows. -/
theorem flatMap_append_inj {α : Type} {P : α → Prop} {g : α → List Int}
    (inj : ∀ {x y xs ys}, P x → P y → g x ++ xs = g y ++ ys → x = y ∧ xs = ys) {xs ys : List α}
    {is js : List Int} (all : ∀ x ∈ xs, P x) (all' : ∀ y ∈ ys, P y) (length : xs.length = ys.length)
    (h : xs.flatMap g ++ is = ys.flatMap g ++ js) : xs = ys ∧ is = js := by
  induction xs generalizing ys with
  | nil =>
    cases List.eq_nil_of_length_eq_zero length.symm
    exact ⟨rfl, h⟩
  | cons x xs ih =>
    obtain ⟨y, ys, rfl⟩ := List.exists_cons_of_length_eq_add_one length.symm
    rw [List.flatMap_cons, List.flatMap_cons, List.append_assoc, List.append_assoc] at h
    obtain ⟨rfl, rest⟩ := inj (all x (.head _)) (all' y (.head _)) h
    obtain ⟨rfl, same⟩ := ih (fun z hz => all z (.tail _ hz)) (fun z hz => all' z (.tail _ hz))
      (by simpa using length) rest
    exact ⟨rfl, same⟩

theorem Opcode.number_inj {o o' : Opcode} (h : (o.number : Int) = o'.number) : o = o' := by
  have same := congrArg ofInt? h
  rw [ofInt?_number, ofInt?_number] at same
  exact Option.some.inj same

section Commands

variable {o o' : Opcode} {is js xs ys : List Int}

/-- A command is as long as its opcode says. -/
theorem command_append_inj (length : is.length = o.arity) (length' : js.length = o'.arity)
    (h : (o.number : Int) :: (is ++ xs) = (o'.number : Int) :: (js ++ ys)) :
    o = o' ∧ is = js ∧ xs = ys := by
  obtain ⟨number, rest⟩ := List.cons.inj h
  obtain rfl := Opcode.number_inj number
  obtain ⟨rfl, rfl⟩ := List.append_inj rest (length.trans length'.symm)
  exact ⟨rfl, rfl, rfl⟩

/-- Commands with marks in front. -/
theorem marked_append_inj {m n : Nat} (command : o ≠ .duplicate) (command' : o' ≠ .duplicate)
    (length : is.length = o.arity) (length' : js.length = o'.arity)
    (h : List.replicate m (Opcode.duplicate.number : Int) ++ (o.number : Int) :: (is ++ xs) =
      List.replicate n (Opcode.duplicate.number : Int) ++ (o'.number : Int) :: (js ++ ys)) :
    m = n ∧ o = o' ∧ is = js ∧ xs = ys := by
  induction m generalizing n with
  | zero =>
    cases n with
    | zero => exact ⟨rfl, command_append_inj length length' h⟩
    | succ n => exact absurd (Opcode.number_inj (List.cons.inj h).1) command
  | succ m ih =>
    cases n with
    | zero => exact absurd (Opcode.number_inj (List.cons.inj h).1).symm command'
    | succ n =>
      obtain ⟨rfl, same⟩ := ih (List.cons.inj h).2
      exact ⟨rfl, same⟩

theorem Position.ints_append (p : Position) (xs : List Int) : p.ints ++ xs =
    List.replicate p.marks (Opcode.duplicate.number : Int) ++ (p.opcode.number : Int) ::
      (p.operands ++ xs) := by
  simp [Position.ints]

/-- A position can be told from the integers that spell it. -/
theorem Position.ints_append_inj {p q : Position} (h : p.ints ++ xs = q.ints ++ ys) :
    p = q ∧ xs = ys := by
  rw [p.ints_append, q.ints_append] at h
  obtain ⟨marks, opcode, operands, rest⟩ :=
    marked_append_inj p.command q.command p.complete q.complete h
  cases p
  cases q
  cases marks
  cases opcode
  cases operands
  exact ⟨rfl, rest⟩

end Commands

/-! ### Records -/

/-- How many positions follow a frame command. -/
def Scene.positions? (s : Scene) (opener : Command) : Option Nat :=
  match opener with
  | .jsFrame .. => (s.plan? opener).map fun p => p.parameters + p.body
  | .argumentsAdaptorFrame _ height | .constructStubFrame _ height => some height.toNat
  | .getterStubFrame _ => some 0
  | .setterStubFrame _ => some 1
  | .compiledStubFrame => some s.code.stubParameters
  | _ => none

namespace Scene

variable (s : Scene) (node : NodeId) (literal height : UInt32)

@[simp] theorem positions?_jsFrame : s.positions? (.jsFrame node literal height) =
    (s.plan? (.jsFrame node literal height)).map fun p => p.parameters + p.body := rfl

@[simp] theorem positions?_argumentsAdaptorFrame :
    s.positions? (.argumentsAdaptorFrame literal height) = some height.toNat := rfl

@[simp] theorem positions?_constructStubFrame :
    s.positions? (.constructStubFrame literal height) = some height.toNat := rfl

@[simp] theorem positions?_getterStubFrame : s.positions? (.getterStubFrame literal) = some 0 := rfl

@[simp] theorem positions?_setterStubFrame : s.positions? (.setterStubFrame literal) = some 1 := rfl

@[simp] theorem positions?_compiledStubFrame :
    s.positions? .compiledStubFrame = some s.code.stubParameters := rfl

end Scene

/-- Whether a command for a receiver stands between a frame command and its positions. -/
def Command.passesReceiver : Command → Bool
  | .getterStubFrame _ | .setterStubFrame _ => true
  | _ => false

theorem Command.passesReceiver_eq (c : Command) : c.passesReceiver =
    (c.opcode == .getterStubFrame || c.opcode == .setterStubFrame) := by
  cases c <;> rfl

theorem Command.adaptor_of_opcode {c : Command} (h : c.opcode = .argumentsAdaptorFrame) :
    ∃ literal height, c = .argumentsAdaptorFrame literal height := by
  cases c with
  | argumentsAdaptorFrame literal height => exact ⟨literal, height, rfl⟩
  | _ => cases h

/-- A record with as many parts as its frame command asks for. -/
structure FrameRecord.Complete (s : Scene) (r : FrameRecord) : Prop where
  positions : s.positions? r.opener = some r.positions.length
  receiver : r.opener.passesReceiver = true → Passed r.passed
  nothing : r.opener.passesReceiver = false → r.passed = []

theorem Layout.length_values (l : Layout) : l.values.length =
    (Slot.placed 0 l.parameters).length + (Slot.placed 0 l.body).length := by
  have shift (below : Nat) (slots : List Slot) :
      (Slot.placed below slots).length = (Slot.placed 0 slots).length := by
    induction slots with
    | nil => rfl
    | cons slot slots ih =>
      cases slot with
      | word w => exact ih
      | value v => simp [Slot.placed, ih]
  rw [values, placed_eq, List.length_map, List.length_append, shift]

/-- The record of a rebuilt frame is complete. -/
theorem Rebuilt.complete {s : Scene} {prev : Option Frame} {r : FrameRecord} {l : Layout} {f : Frame}
    (h : Rebuilt s prev r.opener r.passed r.positions l f) : r.Complete s := by
  obtain ⟨opener, operands, passed, positions, opens⟩ := r
  have plan := h.plan
  have length := h.denoted.length
  rw [Layout.length_values] at length
  have values (vs : List Recovered) : (Slot.placed 0 (vs.map .value)).length = vs.length := by
    rw [← List.length_map (f := Prod.snd), Slot.snd_placed]
  have described : Describes s prev opener passed l := h.described
  -- The kind of frame decides how many positions its record has.
  cases described with
  | javaScript function data =>
    refine ⟨?_, (by cases ·), fun _ => rfl⟩
    simp only [values] at length
    simp only [Scene.positions?_jsFrame, plan, Option.map_some, List.length_map, length]
  | argumentsAdaptor function =>
    refine ⟨?_, (by cases ·), fun _ => rfl⟩
    simp [Slot.placed, values] at plan length
    simp [plan.2, length]
  | construct =>
    refine ⟨?_, (by cases ·), fun _ => rfl⟩
    simp [Slot.placed, values] at plan length
    simp [plan.2, length]
  | getter receiver =>
    refine ⟨?_, fun _ => receiver, (by cases ·)⟩
    simp [Slot.placed] at length
    simp [length]
  | setter receiver =>
    refine ⟨?_, fun _ => receiver, (by cases ·)⟩
    simp [Slot.placed] at length
    simp [← length]
  | compiledStub outermost =>
    refine ⟨?_, (by cases ·), fun _ => rfl⟩
    simp [Slot.placed, values] at plan length
    simp [plan.2, length]

/-- A complete record can be told from the integers that spell it. -/
theorem FrameRecord.ints_append_inj {s : Scene} {r q : FrameRecord} {xs ys : List Int}
    (hr : r.Complete s) (hq : q.Complete s) (h : r.ints ++ xs = q.ints ++ ys) : r = q ∧ xs = ys := by
  obtain ⟨opener, operands, passed, positions, opens⟩ := r
  obtain ⟨opener', operands', passed', positions', opens'⟩ := q
  simp only [ints, List.cons_append, List.append_assoc] at h
  obtain ⟨opcode, rfl, h₁⟩ := command_append_inj (Command.length_of_ofParts? opens)
    (Command.length_of_ofParts? opens') h
  obtain rfl : opener = opener' := by
    rw [opcode] at opens
    exact Option.some.inj (opens.symm.trans opens')
  have passed_eq : passed = passed' ∧
      positions.flatMap Position.ints ++ xs = positions'.flatMap Position.ints ++ ys := by
    cases receiver : opener.passesReceiver with
    | true =>
      obtain ⟨o, is, length, rfl⟩ := hr.receiver receiver
      obtain ⟨o', js, length', rfl⟩ := hq.receiver receiver
      obtain ⟨rfl, rfl, h₂⟩ := command_append_inj length length' h₁
      exact ⟨rfl, h₂⟩
    | false =>
      obtain rfl := hr.nothing receiver
      obtain rfl := hq.nothing receiver
      exact ⟨rfl, h₁⟩
  obtain ⟨rfl, h₂⟩ := passed_eq
  -- The opener decides how many positions follow, so neither record can end inside the other.
  have length : positions.length = positions'.length :=
    Option.some.inj (hr.positions.symm.trans hq.positions)
  obtain ⟨rfl, rest⟩ := @flatMap_append_inj Position (fun _ => True) Position.ints
    (fun _ _ => Position.ints_append_inj) _ _ _ _ (by simp) (by simp) length h₂
  exact ⟨rfl, rest⟩

/-- A frame command says whether its frame is that of a function or adapts arguments. -/
theorem Rebuilt.type_iff {s : Scene} {prev : Option Frame} {opener : Command} {passed : List Int}
    {positions : List Position} {l : Layout} {f : Frame}
    (h : Rebuilt s prev opener passed positions l f) :
    (f.type = .javaScript ↔ opener.opcode = .jsFrame) ∧
      (f.type = .argumentsAdaptor ↔ opener.opcode = .argumentsAdaptorFrame) := by
  have type := congrArg (Option.map FramePlan.type) h.plan
  cases h.described with
  | javaScript function data =>
    simp [function, data] at type
    simp [← type, Command.opcode]
  | _ =>
    simp at type
    simp [← type, Command.opcode]

/-- The frames of functions are those of the records of functions. -/
theorem Follows.functions {s : Scene} {prev : Option Frame} {records : List FrameRecord}
    {ls : List Layout} {fs : List Frame} (h : Follows s prev records ls fs) :
    fs.map (·.type == .javaScript) = records.map (·.opener.opcode == .jsFrame) := by
  induction h with
  | nil => rfl
  | @cons prev r l f rs ls fs head tail ih =>
    have first : (f.type == .javaScript) = (r.opener.opcode == .jsFrame) := by
      rw [Bool.eq_iff_iff, beq_iff_eq, beq_iff_eq]
      exact head.type_iff.1
    rw [List.map_cons, List.map_cons, ih, first]

/-! ### Well-formed recipes -/

/-- The bytes of a recipe are a `begin` command with the right numbers of frames and function frames,
and records in which every position is a value command, also that of an accessor's receiver. The first
value of a frame is not marked as a duplicate, and a function's frame follows right behind an adaptor
frame. -/
structure Recipe.WellFormed (s : Scene) (bytes : List UInt8) (records : List FrameRecord) : Prop where
  spelled : ∃ count js is rest, Command.ofParts? .begin is = some (.begin count js) ∧
    count.toNat = records.length ∧
    js.toNat = records.countP (·.opener.opcode == .jsFrame) ∧
    Spells bytes ((Opcode.begin.number : Int) :: is ++ records.flatMap FrameRecord.ints) rest
  complete : ∀ r ∈ records, r.Complete s
  values : ∀ r ∈ records, ∀ p ∈ r.positions, p.opcode.isValue = true
  receivers : ∀ r ∈ records, r.opener.passesReceiver = true → ∃ (o : Opcode) (is : List Int),
    o.isValue = true ∧ is.length = o.arity ∧ r.passed = (o.number : Int) :: is
  first : ∀ r ∈ records, ∀ p, r.positions.head? = some p → p.marks = 0
  adapted : ∀ (i : Nat) r, records[i]? = some r → r.opener.opcode = .argumentsAdaptorFrame →
    ∃ q, records[i + 1]? = some q ∧ q.opener.opcode = .jsFrame

/-- Each record of a walk has a frame that it describes. -/
theorem Walked.rebuilt {s : Scene} {bytes : List UInt8} {count : UInt32} {records : List FrameRecord}
    {ls : List Layout} {frames : List Frame} {numbers : List DeferredNumber}
    {arguments : List DeferredArguments}
    (w : Walked s bytes count records ls frames numbers arguments) {r : FrameRecord} (hr : r ∈ records) :
    ∃ prev l f, Rebuilt s prev r.opener r.passed r.positions l f := by
  obtain ⟨i, hi⟩ := List.getElem?_of_mem hr
  have inside : i < frames.length := by
    rw [w.follows.length.2]
    exact (List.getElem?_eq_some_iff.mp hi).1
  obtain ⟨r', l, hr', -, rebuilt⟩ := w.follows.rebuilt (List.getElem?_eq_getElem inside)
  obtain rfl : r = r' := Option.some.inj (hi.symm.trans hr')
  exact ⟨_, l, _, rebuilt⟩

/-- A walk has complete records only. -/
theorem Walked.complete {s : Scene} {bytes : List UInt8} {count : UInt32} {records : List FrameRecord}
    {ls : List Layout} {frames : List Frame} {numbers : List DeferredNumber}
    {arguments : List DeferredArguments}
    (w : Walked s bytes count records ls frames numbers arguments) : ∀ r ∈ records, r.Complete s := by
  intro r hr
  obtain ⟨prev, l, f, rebuilt⟩ := w.rebuilt hr
  exact rebuilt.complete

/-- **A walk reads the records of the recipe.** -/
theorem Walked.records_eq {s : Scene} {bytes : List UInt8} {count : UInt32}
    {records records' : List FrameRecord} {ls : List Layout} {frames : List Frame}
    {numbers : List DeferredNumber} {arguments : List DeferredArguments} {count' js : UInt32} {is : List Int}
    {rest : List UInt8} (w : Walked s bytes count records ls frames numbers arguments)
    (parts : Command.ofParts? .begin is = some (.begin count' js))
    (spelled : Recipe.Spells bytes
      ((Opcode.begin.number : Int) :: is ++ records'.flatMap FrameRecord.ints) rest)
    (length : count'.toNat = records'.length) (complete : ∀ r ∈ records', r.Complete s) :
    records = records' ∧ count = count' := by
  obtain ⟨js', is', rest', parts', spelled'⟩ := w.spelled
  -- Both are spelled by the same bytes, so one of them is the start of the other.
  have same : ∃ xs ys, (Opcode.begin.number : Int) :: (is' ++ (records.flatMap FrameRecord.ints ++ xs)) =
      (Opcode.begin.number : Int) :: (is ++ (records'.flatMap FrameRecord.ints ++ ys)) := by
    rcases Nat.le_total _ _ with short | long
    · obtain ⟨ks, same, -⟩ := spelled'.consume spelled short
      exact ⟨ks, [], by simpa using same.symm⟩
    · obtain ⟨ks, same, -⟩ := spelled.consume spelled' long
      exact ⟨[], ks, by simpa using same⟩
  obtain ⟨xs, ys, same⟩ := same
  obtain ⟨-, rfl, same'⟩ := command_append_inj (Command.length_of_ofParts? parts')
    (Command.length_of_ofParts? parts) same
  obtain ⟨rfl, rfl⟩ := Command.begin.inj (Option.some.inj (parts.symm.trans parts'))
  obtain ⟨rfl, -⟩ := flatMap_append_inj FrameRecord.ints_append_inj w.complete complete
    (w.announced.trans length) same'
  exact ⟨rfl, rfl⟩

end Speculation
