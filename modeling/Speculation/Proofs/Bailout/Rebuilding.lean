import Speculation.Engine.Execution
import Speculation.Proofs.Bailout.Layout

/-!
# Rebuilt frames

A recipe is a `begin` command and one record for each frame (`FrameRecord`). `Follows` says what
frames a list of records describes, each below the one before, and `Walked` adds what the frames
cannot hold yet. Each kind of frame has one lemma, which takes its function apart in the order of its
statements and follows the layout through them.

The main statement is `rebuildFrames_follows`: whatever a bailout rebuilds is what the recipe of its
bailout point describes.
-/

namespace Speculation

open Recipe

/-- A new frame is zapped and does not resume anywhere. -/
theorem Frame.make_ok {size area : Nat} {type : FrameType} {function : Option Value} {f : Frame}
    (h : make size type function area = .ok f) :
    f.type = type ∧ f.area = area ∧ f.words = List.replicate size .zap ∧ f.continuation = none := by
  unfold make at h
  split at h
  · cases h
    exact ⟨rfl, rfl, rfl, rfl⟩
  · cases h

/-- The part of a recipe for one frame: a frame command, what is passed over, and the positions of
its values. -/
structure FrameRecord where
  opener : Command
  operands : List Int
  passed : List Int
  positions : List Position
  opens : Command.ofParts? opener.opcode operands = some opener

/-- The integers of a record. -/
def FrameRecord.ints (r : FrameRecord) : List Int :=
  (r.opener.opcode.number : Int) :: r.operands ++ r.passed ++ r.positions.flatMap Position.ints

/-- Frames as records describe them, each below the one before. -/
inductive Follows (s : Scene) :
    Option Frame → List FrameRecord → List Layout → List Frame → Prop
  | nil {prev : Option Frame} : Follows s prev [] [] []
  | cons {prev : Option Frame} {r : FrameRecord} {l : Layout} {f : Frame} {rs : List FrameRecord}
    {ls : List Layout} {fs : List Frame}
    (head : Rebuilt s prev r.opener r.passed r.positions l f) (tail : Follows s (some f) rs ls fs) :
    Follows s prev (r :: rs) (l :: ls) (f :: fs)

/-- The numbers that wait in frames with these layouts, the first of which has index `i`. -/
def Layout.numbersFrom (i : Nat) (ls : List Layout) : List DeferredNumber :=
  (ls.zipIdx i).flatMap fun p => p.1.placed.filterMap (DeferredNumber.of? p.2)

/-- The arguments objects that wait in frames with these layouts, the first of which has
index `i`. -/
def Layout.argumentsFrom (i : Nat) (ls : List Layout) : List DeferredArguments :=
  (ls.zipIdx i).flatMap fun p => p.1.placed.filterMap (DeferredArguments.of? p.2)

/-- What a walk over `bytes` has built: the bytes read as a `begin` command and as many records as it
announces, each record describes one frame, and what a frame cannot hold yet waits. -/
structure Walked (s : Scene) (bytes : List UInt8) (count : UInt32) (records : List FrameRecord)
    (ls : List Layout) (frames : List Frame) (numbers : List DeferredNumber)
    (arguments : List DeferredArguments) : Prop where
  spelled : ∃ js is rest, Command.ofParts? .begin is = some (.begin count js) ∧
    Spells bytes ((Opcode.begin.number : Int) :: is ++ records.flatMap FrameRecord.ints) rest
  announced : records.length = count.toNat
  follows : Follows s none records ls frames
  numbers : numbers = Layout.numbersFrom 0 ls
  arguments : arguments = Layout.argumentsFrom 0 ls
  continuation : ∀ (i : Nat) f, frames[i]? = some f →
    (f.continuation.isSome ↔ i + 1 = count.toNat ∧ s.reason ≠ .debugger)

/-- Each record has one layout and one frame. -/
theorem Follows.length {s : Scene} {prev : Option Frame} {records : List FrameRecord}
    {ls : List Layout} {fs : List Frame} (h : Follows s prev records ls fs) :
    ls.length = records.length ∧ fs.length = records.length := by
  induction h with
  | nil => exact ⟨rfl, rfl⟩
  | cons _ _ ih => simp [ih.1, ih.2]

/-- The frame with an index is rebuilt below the one before it. -/
theorem Follows.rebuilt {s : Scene} {prev : Option Frame} {records : List FrameRecord}
    {ls : List Layout} {fs : List Frame} (h : Follows s prev records ls fs) {i : Nat} {f : Frame}
    (hf : fs[i]? = some f) : ∃ r l, records[i]? = some r ∧ ls[i]? = some l ∧
      Rebuilt s (if i = 0 then prev else fs[i - 1]?) r.opener r.passed r.positions l f := by
  induction h generalizing i with
  | nil => simp at hf
  | @cons prev r l g rs ls fs head tail ih =>
    cases i with
    | zero =>
      cases hf
      exact ⟨r, l, rfl, rfl, head⟩
    | succ i =>
      obtain ⟨r', l', hr, hl, rebuilt⟩ := ih hf
      refine ⟨r', l', hr, hl, ?_⟩
      cases i with
      | zero => exact rebuilt
      | succ i => exact rebuilt

namespace Assembly

/-- Frames were added with these layouts, and what they cannot hold yet was deferred. -/
structure Grows (s : Scene) (count : Nat) (a b : Assembly) (ls : List Layout) (fs : List Frame) :
    Prop where
  frames : b.frames = a.frames ++ fs
  numbers : b.numbers = a.numbers ++ Layout.numbersFrom a.frames.length ls
  arguments : b.arguments = a.arguments ++ Layout.argumentsFrom a.frames.length ls
  continuation : ∀ (j : Nat) f, fs[j]? = some f →
    (f.continuation.isSome ↔ a.frames.length + j + 1 = count ∧ s.reason ≠ .debugger)

theorem Grows.refl {s : Scene} {count : Nat} {a : Assembly} : Grows s count a a [] [] where
  frames := by simp
  numbers := by simp [Layout.numbersFrom]
  arguments := by simp [Layout.argumentsFrom]
  continuation := by simp

theorem Grows.trans {s : Scene} {count : Nat} {a b c : Assembly} {l : Layout} {f : Frame}
    {ls : List Layout} {fs : List Frame} (g : Grows s count a b [l] [f])
    (g' : Grows s count b c ls fs) : Grows s count a c (l :: ls) (f :: fs) where
  frames := by simp [g'.frames, g.frames]
  numbers := by simp [g'.numbers, g.numbers, g.frames, Layout.numbersFrom]
  arguments := by simp [g'.arguments, g.arguments, g.frames, Layout.argumentsFrom]
  continuation j h hj := by
    cases j with
    | zero => exact g.continuation 0 h hj
    | succ j =>
      have shift : a.frames.length + (j + 1) + 1 = b.frames.length + j + 1 := by
        simp [g.frames]
        omega
      rw [shift]
      exact g'.continuation j h hj

variable {s : Scene} {a b t : Assembly} {count : Nat} {r : Unit}

/-- A frame was added for a frame command that has been read. -/
def AddsFor (s : Scene) (count : Nat) (a b : Assembly) (opener : Command) : Prop :=
  ∃ passed positions l f, Adds s count a b opener passed positions l f

/-- A line of the trace, and then a frame is opened. -/
theorem open_lays {text : String} {f : Frame} {m n : Nat} {r' : Unit}
    (said : say s text a = (.ok r, t)) (h : openFrame s f t = (.ok r', b))
    (area : f.area = m) (words : f.words = List.replicate (m + fixedSlots + n) .zap)
    (fresh : f.continuation = none) :
    Lays s a b (f.placeAt (s.ceiling a.frames.getLast? - f.size)).outline [] [] (opened s a m n) := by
  have lays := openFrame_lays h area words fresh
  rw [say_ok said] at lays
  exact ⟨lays.spelled, lays.reads, lays.frames, lays.numbers, lays.arguments, lays.outline, lays.area,
    lays.words, lays.below⟩

theorem placed_opened (s : Scene) (a : Assembly) (m n : Nat) : (opened s a m n).placed = [] := by
  simp [Layout.placed_eq, opened]

/-- The context of a function's frame: that of the caller for the outermost frame, and the
function's own for others. -/
theorem frameContext_ok {w context : Word}
    (h : (if a.frames.length = 0 then callerContext s else pure w) t = (.ok context, b))
    (frames : t.frames = a.frames) :
    context = (if a.frames.getLast?.isNone then (s.caller a.frames.getLast?).context else w) ∧
      t = b := by
  split at h
  · rename_i first
    rw [callerContext_apply, frames] at h
    cases h
    simp [List.eq_nil_of_length_eq_zero first]
  · rename_i later
    cases h
    have : a.frames ≠ [] := fun h => later (by rw [h]; rfl)
    simp [this]

theorem literal_ok {i : Nat} {v : Value}
    (h : (liftM (s.data.literal i) : Step Value) a = (.ok v, b)) :
    s.data.literals[i]? = some v ∧ a = b :=
  ⟨BailoutData.literal_ok (congrArg Prod.fst h), congrArg Prod.snd h⟩

/-- A frame of a function follows from its record. -/
theorem jsFrame_adds {node : NodeId} {literal height : UInt32}
    (h : jsFrame s count node literal.toNat height.toNat a = (.ok r, b)) :
    AddsFor s count a b (.jsFrame node literal height) := by
  obtain ⟨function, t, known, h⟩ := Computation.bind_eq_ok h
  obtain ⟨literal', rfl⟩ := literal_ok known
  cases hd : s.heap.functionData? function with
  | none =>
    rw [hd] at h
    cases h
  | some d =>
    simp only [hd, index, Computation.get_bind, Computation.pure_bind_apply, bind_assoc] at h
    -- The frame is laid from the top down: parameters, the caller's words, context and function,
    -- then the expressions.
    obtain ⟨_, t, said, h⟩ := Computation.bind_eq_ok h
    obtain ⟨_, u, opening, h⟩ := Computation.bind_eq_ok h
    have lays := open_lays said opening rfl rfl rfl
    obtain ⟨_, v, parameters, h⟩ := Computation.bind_eq_ok h
    obtain ⟨ps, vs, hvs, lays⟩ := lays.parameters (placed_opened ..) parameters
      (by simp [opened, Frame.ofFunction])
      (by simp [opened, Layout.length_words, Frame.ofFunction, Frame.size])
    rw [Computation.ite_bind_bind] at h
    obtain ⟨context, w, found, h⟩ := Computation.bind_eq_ok h
    obtain ⟨rfl, rfl⟩ := frameContext_ok found lays.frames
    obtain ⟨_, w, context, h⟩ := Computation.bind_eq_ok h
    obtain ⟨_, x, function', h⟩ := Computation.bind_eq_ok h
    obtain ⟨_, y, body, h⟩ := Computation.bind_eq_ok h
    obtain ⟨qs, ws, hws, lays⟩ := ((lays.putContext context).putFixed function').body [] body rfl
      (Slot.placed_replicate ..) List.length_replicate
    have plan : s.plan? (.jsFrame node literal height) =
        some ⟨.javaScript, (vs.map Slot.value).length, (ws.map Slot.value).length⟩ := by
      simp [literal', hd, hvs, hws, Frame.ofFunction]
    -- The frame is complete here; what remains is where its code resumes.
    cases code : (s.heap.sharedInfo d.shared).code with
    | none =>
      rw [code] at h
      cases h
    | some c =>
      cases point : (s.codeSpace.get c).resume.bind fun t => t.find? node with
      | none =>
        simp only [code, point] at h
        cases h
      | some p =>
        simp only [code, point] at h
        obtain ⟨_, z, resumed, h⟩ := Computation.bind_eq_ok h
        obtain ⟨_, z', closed, h⟩ := Computation.bind_eq_ok h
        obtain ⟨f, adds⟩ := (lays.adjust resumed rfl rfl).close closed rfl plan
          (.javaScript literal' hd) fun _ => rfl
        cases h
        exact ⟨_, _, _, f, adds.spelled, adds.values, adds.rebuilt, adds.frames, adds.numbers,
          adds.arguments, adds.continuation⟩

/-- A line of the trace, and then a new frame is made and opened. -/
theorem make_lays {text : String} {type : FrameType} {function : Option Value} {size m n : Nat}
    {f : Frame} {u : Assembly} {r' : Unit} (said : say s text a = (.ok r, t))
    (made : (liftM (Frame.make size type function m) : Step Frame) t = (.ok f, u))
    (h : openFrame s f u = (.ok r', b)) (parts : size = m + fixedSlots + n) :
    ∃ o, o.type = type ∧ Lays s a b o [] [] (opened s a m n) ∧
      f.size = (opened s a m n).words.length := by
  obtain rfl : t = u := congrArg Prod.snd made
  obtain ⟨type', area, words, fresh⟩ := Frame.make_ok (congrArg Prod.fst made)
  refine ⟨_, type', open_lays said h area (by rw [words, parts]) fresh, ?_⟩
  simp [Frame.size, words, parts, Layout.length_words, opened]

/-- An adaptor frame follows from its record. -/
theorem adaptorFrame_adds {literal height : UInt32}
    (h : adaptorFrame s count literal.toNat height.toNat a = (.ok r, b)) :
    AddsFor s count a b (.argumentsAdaptorFrame literal height) := by
  obtain ⟨function, t, known, h⟩ := Computation.bind_eq_ok h
  obtain ⟨literal', rfl⟩ := literal_ok known
  clear known
  split at h
  · cases h
  · obtain ⟨_, t, said, h⟩ := Computation.bind_eq_ok h
    obtain ⟨f, u, made, h⟩ := Computation.bind_eq_ok h
    obtain ⟨_, v, opening, h⟩ := Computation.bind_eq_ok h
    obtain ⟨o, type, lays, size⟩ := make_lays said made opening rfl
    obtain ⟨_, w, parameters, h⟩ := Computation.bind_eq_ok h
    obtain ⟨ps, vs, hvs, lays⟩ := lays.parameters (placed_opened ..) parameters
      List.length_replicate size
    obtain ⟨_, x, context, h⟩ := Computation.bind_eq_ok h
    obtain ⟨_, y, function', h⟩ := Computation.bind_eq_ok h
    obtain ⟨_, z, number, h⟩ := Computation.bind_eq_ok h
    replace lays := ((lays.putFixed context).putFixed function').put [] [] number rfl rfl
    obtain ⟨_, z', resumed, closed⟩ := Computation.bind_eq_ok h
    have plan : s.plan? (.argumentsAdaptorFrame literal height) =
        some ⟨.argumentsAdaptor, (vs.map Slot.value).length, 1⟩ := by simp [hvs]
    obtain ⟨f, adds⟩ := (lays.adjust resumed rfl rfl).close closed type plan
      (.argumentsAdaptor literal') fun h => by cases h
    exact ⟨_, _, _, f, adds⟩

theorem receiver_ok {f : Frame} {w x : Word} {below : List Word} (h : f.receiver = .ok w)
    (down : f.down = x :: below) : w = x := by
  have last : f.slot below.length = .ok x := Frame.slot_of_down (show f.down = [] ++ x :: below from down)
  have size : f.size - 1 = below.length := by
    rw [← f.length_down, down, List.length_cons, Nat.add_sub_cancel]
  rw [Frame.receiver, size, last] at h
  exact (Except.ok.inj h).symm

/-- The frame of a construct stub follows from its record. -/
theorem constructFrame_adds {literal height : UInt32}
    (h : constructFrame s count literal.toNat height.toNat a = (.ok r, b)) :
    AddsFor s count a b (.constructStubFrame literal height) := by
  obtain ⟨function, t, known, h⟩ := Computation.bind_eq_ok h
  obtain ⟨-, rfl⟩ := literal_ok known
  clear known
  split at h
  · cases h
  · rename_i positive
    obtain ⟨_, t, said, h⟩ := Computation.bind_eq_ok h
    obtain ⟨f, u, made, h⟩ := Computation.bind_eq_ok h
    obtain ⟨_, v, opening, h⟩ := Computation.bind_eq_ok h
    obtain ⟨o, type, lays, size⟩ := make_lays said made opening rfl
    obtain ⟨_, w, parameters, h⟩ := Computation.bind_eq_ok h
    obtain ⟨ps, vs, hvs, lays⟩ := lays.parameters (placed_opened ..) parameters
      List.length_replicate size
    -- The height is positive, so the first parameter is there, and it is the receiver that the
    -- lowest slot repeats.
    obtain ⟨receiver, vs, rfl⟩ := List.exists_cons_of_length_pos (l := vs) (by omega)
    rw [Computation.bind_ok (callerContext_apply ..), lays.frames] at h
    obtain ⟨_, x, context, h⟩ := Computation.bind_eq_ok h
    obtain ⟨_, y, marker, h⟩ := Computation.bind_eq_ok h
    obtain ⟨_, z, number, h⟩ := Computation.bind_eq_ok h
    replace lays := ((lays.putContext context).putFixed marker).put [] [.word .zap] number rfl rfl
    rw [Computation.get_bind] at h
    obtain ⟨word, z₁, first, h⟩ := Computation.bind_eq_ok h
    obtain rfl := receiver_ok (congrArg Prod.fst first) lays.words
    obtain rfl : z = z₁ := congrArg Prod.snd first
    obtain ⟨_, z₂, lowest, h⟩ := Computation.bind_eq_ok h
    replace lays := lays.put [_] [] lowest rfl rfl
    obtain ⟨_, z', resumed, closed⟩ := Computation.bind_eq_ok h
    have plan : s.plan? (.constructStubFrame literal height) =
        some ⟨.construct, ((receiver :: vs).map Slot.value).length, 2⟩ := by
      rw [List.length_map, hvs]
      rfl
    obtain ⟨f, adds⟩ := (lays.adjust resumed rfl rfl).close closed type plan .construct
      fun h => by cases h
    exact ⟨_, _, _, f, adds⟩

/-- A command that is passed over. -/
theorem Lays.pass {outline : Outline} {l : Layout} {o : Opcode} {c : Assembly}
    (lays : Lays s a b outline [] [] l) (opcode : read Cursor.nextOpcode b = (.ok o, t))
    (operands : read (Cursor.skip o.arity) t = (.ok r, c)) :
    ∃ is, Passed is ∧ Lays s a c outline is [] l := by
  obtain ⟨opcode, ht⟩ := read_ok opcode
  obtain ⟨operands, hc⟩ := read_ok operands
  obtain ⟨is, length, rest⟩ := Cursor.skip_ok operands
  have spelled := lays.spelled.append ((Cursor.nextOpcode_ok opcode).append rest)
  refine ⟨(o.number : Int) :: is, ⟨o, is, length, rfl⟩, ?_⟩
  rw [ht] at hc
  rw [hc]
  exact ⟨by simpa using spelled, lays.reads, lays.frames, lays.numbers, lays.arguments, lays.outline,
    lays.area, lays.words, lays.below⟩

/-- The frame of an accessor stub follows from its record. -/
theorem accessorFrame_adds {literal : UInt32} {setter : Bool}
    (h : accessorFrame s count literal.toNat setter a = (.ok r, b)) :
    AddsFor s count a b (if setter then .setterStubFrame literal else .getterStubFrame literal) := by
  obtain ⟨function, t, known, h⟩ := Computation.bind_eq_ok h
  obtain ⟨-, rfl⟩ := literal_ok known
  clear known
  obtain ⟨_, t, said, h⟩ := Computation.bind_eq_ok h
  obtain ⟨f, u, made, h⟩ := Computation.bind_eq_ok h
  obtain ⟨_, v, opening, h⟩ := Computation.bind_eq_ok h
  -- A getter's frame has one word below the fixed slots and a setter's two.
  have parts : fixedSlots + 1 + setter.toNat = 0 + fixedSlots + (setter.toNat + 1) := by omega
  obtain ⟨o, type, lays, -⟩ := make_lays said made opening parts
  rw [Computation.bind_ok (callerContext_apply ..), lays.frames] at h
  obtain ⟨_, x, context, h⟩ := Computation.bind_eq_ok h
  obtain ⟨_, y, marker, h⟩ := Computation.bind_eq_ok h
  obtain ⟨_, z, code, h⟩ := Computation.bind_eq_ok h
  replace lays := ((lays.putContext context).putFixed marker).put []
    (List.replicate setter.toNat (.word .zap)) code rfl List.length_replicate.symm
  obtain ⟨_, z₁, opcode, h⟩ := Computation.bind_eq_ok h
  obtain ⟨_, z₂, operands, h⟩ := Computation.bind_eq_ok h
  obtain ⟨is, receiver, lays⟩ := lays.pass opcode operands
  -- Only a setter has a value to rebuild, and that one word is a body of length one.
  cases setter with
  | false =>
    obtain ⟨_, z', resumed, closed⟩ := Computation.bind_eq_ok h
    obtain ⟨f, adds⟩ := (lays.adjust resumed rfl rfl).close closed type rfl (.getter receiver)
      fun h => by cases h
    exact ⟨_, _, _, f, adds⟩
  | true =>
    obtain ⟨_, z₃, value, h⟩ := Computation.bind_eq_ok h
    have one : rebuildWords s 1 1 z₂ = (.ok (), z₃) := by
      rw [rebuildWords, Computation.bind_ok value]
      rfl
    obtain ⟨ps, vs, hvs, lays⟩ := lays.body [.word (.code Builtins.standard.setterStub)] one rfl rfl rfl
    obtain ⟨v, rfl⟩ := List.length_eq_one_iff.mp hvs
    obtain ⟨_, z', resumed, closed⟩ := Computation.bind_eq_ok h
    obtain ⟨f, adds⟩ := (lays.adjust resumed rfl rfl).close closed type rfl (.setter receiver)
      fun h => by cases h
    exact ⟨_, _, _, f, adds⟩

/-- The frame of a compiled stub follows from its record. -/
theorem stubFrame_adds (h : stubFrame s count a = (.ok r, b)) :
    AddsFor s count a b .compiledStubFrame := by
  simp only [stubFrame, index, Computation.get_bind, Computation.pure_bind_apply, bind_assoc] at h
  -- A compiled stub's frame is the outermost one or the recipe is refused.
  split at h
  · rename_i first
    have outermost : a.frames.getLast? = none := by simp [List.eq_nil_of_length_eq_zero first]
    obtain ⟨_, t, said, h⟩ := Computation.bind_eq_ok h
    obtain ⟨f, u, made, h⟩ := Computation.bind_eq_ok h
    obtain ⟨_, v, opening, h⟩ := Computation.bind_eq_ok h
    have parts : fixedSlots + s.code.stubParameters = 0 + fixedSlots + s.code.stubParameters := by
      omega
    obtain ⟨o, type, lays, -⟩ := make_lays said made opening parts
    rw [Computation.bind_ok (callerContext_apply ..), lays.frames] at h
    obtain ⟨_, x, context, h⟩ := Computation.bind_eq_ok h
    obtain ⟨_, y, marker, h⟩ := Computation.bind_eq_ok h
    obtain ⟨_, z, body, h⟩ := Computation.bind_eq_ok h
    obtain ⟨ps, vs, hvs, lays⟩ := ((lays.putContext context).putFixed marker).body [] body rfl
      (Slot.placed_replicate ..) List.length_replicate
    obtain ⟨_, z', resumed, closed⟩ := Computation.bind_eq_ok h
    have plan : s.plan? .compiledStubFrame =
        some ⟨.stubFailureTrampoline, 0, (vs.map Slot.value).length⟩ := by
      rw [List.length_map, hvs]
      rfl
    obtain ⟨f, adds⟩ := (lays.adjust resumed rfl rfl).close closed type plan
      (.compiledStub outermost) fun h => by cases h
    exact ⟨_, _, _, f, adds⟩
  · cases h

/-! ### All frames -/

/-- The frame of a frame command that has been read. -/
theorem rebuildFrame_adds {c : Command} {u : Assembly} (h : nextFrame s count a = (.ok r, b))
    (command : read Cursor.nextCommand a = (.ok c, u)) : AddsFor s count u b c := by
  rw [nextFrame, Computation.bind_ok command] at h
  cases c with
  | jsFrame node literal height => exact jsFrame_adds h
  | argumentsAdaptorFrame literal height => exact adaptorFrame_adds h
  | constructStubFrame literal height => exact constructFrame_adds h
  | getterStubFrame literal => exact @accessorFrame_adds _ _ _ _ _ _ false h
  | setterStubFrame literal => exact @accessorFrame_adds _ _ _ _ _ _ true h
  | compiledStubFrame => exact stubFrame_adds h
  | _ => cases h

/-- One more frame. -/
theorem nextFrame_adds (h : nextFrame s count a = (.ok r, b)) : ∃ (record : FrameRecord) (l : Layout)
    (f : Frame), Spells a.cursor.rest record.ints b.cursor.rest ∧
      (∀ p ∈ record.positions, p.opcode.isValue = true) ∧
      Rebuilt s a.frames.getLast? record.opener record.passed record.positions l f ∧
      Grows s count a b [l] [f] := by
  obtain ⟨c, u, command, -⟩ := Computation.bind_eq_ok h
  obtain ⟨passed, positions, l, f, adds⟩ := rebuildFrame_adds h command
  obtain ⟨command, hu⟩ := read_ok command
  obtain ⟨is, opens, first⟩ := Cursor.nextCommand_ok command
  have frames : u.frames = a.frames := by rw [hu]
  have numbers : u.numbers = a.numbers := by rw [hu]
  have arguments : u.arguments = a.arguments := by rw [hu]
  refine ⟨⟨c, is, passed, positions, opens⟩, l, f, ?_, adds.values, frames ▸ adds.rebuilt, ?_⟩
  · simpa [FrameRecord.ints] using first.append adds.spelled
  · refine ⟨frames ▸ adds.frames, ?_, ?_, ?_⟩
    · rw [adds.numbers, numbers, frames]
      simp [Layout.numbersFrom]
    · rw [adds.arguments, arguments, frames]
      simp [Layout.argumentsFrom]
    · intro j g hg
      obtain ⟨rfl, rfl⟩ : j = 0 ∧ f = g := by simpa [List.getElem?_singleton] using hg
      rw [adds.continuation, Resumes, frames, Nat.add_zero]

/-- The frames of a walk, one after the other. -/
theorem nextFrames_adds {n : Nat} (h : nextFrames s count n a = (.ok r, b)) :
    ∃ (records : List FrameRecord) (ls : List Layout) (fs : List Frame), records.length = n ∧
      Spells a.cursor.rest (records.flatMap FrameRecord.ints) b.cursor.rest ∧
      (∀ r ∈ records, ∀ p ∈ r.positions, p.opcode.isValue = true) ∧
      Follows s a.frames.getLast? records ls fs ∧ Grows s count a b ls fs := by
  induction n generalizing a with
  | zero =>
    cases h
    exact ⟨[], [], [], rfl, .nil, by simp, .nil, .refl⟩
  | succ n ih =>
    obtain ⟨_, t, first, h⟩ := Computation.bind_eq_ok h
    obtain ⟨record, l, f, spelled, values, rebuilt, grows⟩ := nextFrame_adds first
    obtain ⟨records, ls, fs, length, spelled', values', follows, grows'⟩ := ih h
    have last : t.frames.getLast? = some f := by simp [grows.frames]
    refine ⟨record :: records, l :: ls, f :: fs, by simp [length], ?_, ?_, ?_, grows.trans grows'⟩
    · rw [List.flatMap_cons]
      exact spelled.append spelled'
    · exact List.forall_mem_cons.mpr ⟨values, values'⟩
    · exact .cons rebuilt (last ▸ follows)

/-- A whole walk: what it has built, and what it has read of the recipe. -/
theorem run_reads {cursor : Cursor} {n : Nat} (h : run s { cursor } = (.ok n, b)) :
    ∃ (count js : UInt32) (is : List Int) (records : List FrameRecord) (ls : List Layout),
      n = count.toNat ∧ Command.ofParts? .begin is = some (.begin count js) ∧
      Spells cursor.rest ((Opcode.begin.number : Int) :: is ++ records.flatMap FrameRecord.ints)
        b.cursor.rest ∧
      (∀ r ∈ records, ∀ p ∈ r.positions, p.opcode.isValue = true) ∧
      Walked s cursor.rest count records ls b.frames b.numbers b.arguments := by
  obtain ⟨c, t, command, h⟩ := Computation.bind_eq_ok h
  obtain ⟨command, ht⟩ := read_ok command
  obtain ⟨is, parts, first⟩ := Cursor.nextCommand_ok command
  cases c with
  | begin count js =>
    obtain ⟨_, u, built, h⟩ := Computation.bind_eq_ok h
    obtain ⟨records, ls, fs, length, spelled, values, follows, grows⟩ := nextFrames_adds built
    obtain ⟨rfl, rfl⟩ := Computation.pure_eq_ok h
    rw [ht] at follows grows
    obtain rfl : u.frames = fs := grows.frames
    have read := first.append spelled
    refine ⟨count, js, is, records, ls, rfl, parts, read, values, ⟨js, is, _, parts, read⟩, length,
      follows, grows.numbers, grows.arguments, fun i f hf => ?_⟩
    rw [grows.continuation i f hf, List.length_nil, Nat.zero_add]
  | _ => cases h

/-- All frames follow from the records that the recipe spells. -/
theorem run_walked {cursor : Cursor} {n : Nat} (h : run s { cursor } = (.ok n, b)) :
    ∃ (count : UInt32) (records : List FrameRecord) (ls : List Layout), n = count.toNat ∧
      Walked s cursor.rest count records ls b.frames b.numbers b.arguments := by
  obtain ⟨count, js, is, records, ls, hn, -, -, -, walked⟩ := run_reads h
  exact ⟨count, records, ls, hn, walked⟩

end Assembly

/-! ### Bailouts -/

/-- What the walk of a bailout reads. -/
def Bailout.scene (b : Bailout) (e : Engine) (data : BailoutData) : Scene :=
  { heap := e.heap, codeSpace := e.codeSpace, reason := b.reason, code := e.codeSpace.get b.code
    data, input := b.input, traced := b.traced }

theorem Code.bailoutData_ok {c : Code} {data : BailoutData} (h : c.bailoutData = .ok data) :
    c.bailouts = some data := by
  unfold bailoutData at h
  split at h
  · cases h
    assumption
  · cases h

theorem BailoutData.entry_ok {data : BailoutData} {i : Nat} {entry : BailoutEntry}
    (h : data.entry i = .ok entry) : data.entries[i]? = some entry := by
  unfold BailoutData.entry at h
  split at h
  · cases h
    assumption
  · cases h

theorem Bailout.say_ok {b : Bailout} {channel : Channel} {text : String} {e e' : Engine} {r : Unit}
    (h : b.say channel text e = (.ok r, e')) : e' = { e with trace := e'.trace } := by
  unfold say at h
  split at h
  all_goals
    cases h
    rfl

/-- What rebuilding frames does: it follows the recipe of the bailout point, and changes nothing but
the trace. -/
theorem Bailout.rebuildFrames_ok {b b' : Bailout} {e e' : Engine}
    (h : b.rebuildFrames e = (.ok b', e')) : ∃ (data : BailoutData) (entry : BailoutEntry)
      (n : Nat) (a : Assembly), (e.codeSpace.get b.code).bailouts = some data ∧
      data.entries[b.entry]? = some entry ∧
      Assembly.run (b.scene e data) { cursor := .start data.recipes entry.recipe } = (.ok n, a) ∧
      b' = { b with frames := a.frames, frameCount := n, jsFrames := a.jsFrames, numbers := a.numbers,
                    arguments := a.arguments } ∧
      e' = { e with trace := e'.trace } := by
  rw [rebuildFrames, Computation.get_bind] at h
  obtain ⟨data, e₁, known, h⟩ := Computation.bind_eq_ok h
  obtain rfl : e = e₁ := congrArg Prod.snd known
  obtain ⟨entry, e₁, found, h⟩ := Computation.bind_eq_ok h
  obtain rfl : e = e₁ := congrArg Prod.snd found
  obtain ⟨_, e₁, said, h⟩ := Computation.bind_eq_ok h
  have quiet := say_ok said
  extract_lets scene at h
  rcases run : Assembly.run (b.scene e data) { cursor := .start data.recipes entry.recipe } with
    ⟨counted, a⟩
  rw [show scene = b.scene e data from rfl, run] at h
  dsimp only at h
  rw [Computation.modify_bind] at h
  obtain ⟨n, e₂, ok, h⟩ := Computation.bind_eq_ok h
  obtain rfl : counted = .ok n := congrArg Prod.fst ok
  obtain rfl : e₁.logAll .bailout a.trace = e₂ := congrArg Prod.snd ok
  refine ⟨data, entry, n, a, Code.bailoutData_ok (congrArg Prod.fst known),
    BailoutData.entry_ok (congrArg Prod.fst found), run, ?_⟩
  -- Only the last line of the log depends on whether there is a frame.
  cases last : a.frames.getLast? with
  | none =>
    rw [last] at h
    cases h
    exact ⟨rfl, by rw [quiet]; rfl⟩
  | some f =>
    rw [last] at h
    obtain ⟨_, e₃, ended, h⟩ := Computation.bind_eq_ok h
    cases h
    exact ⟨rfl, by rw [say_ok ended, quiet]; rfl⟩

/-- **Rebuilt frames are those that the recipe describes.** The recipe of the bailout point is a `begin`
command and as many records as it announces. There is one frame for each record, in order, and each
has the type, the size and the words that its record and the frame before it determine (`Rebuilt`);
a value stands for what the nearest command at or before its position denotes that is not marked as
a duplicate (`Denoted`), and numbers and arguments objects that cannot stand in a word yet are
deferred. -/
theorem rebuildFrames_follows {b b' : Bailout} {e e' : Engine}
    (h : b.rebuildFrames e = (.ok b', e')) : ∃ (data : BailoutData) (entry : BailoutEntry)
      (count : UInt32) (records : List FrameRecord) (ls : List Layout),
      (e.codeSpace.get b.code).bailouts = some data ∧ data.entries[b.entry]? = some entry ∧
      Walked (b.scene e data) (data.recipes.drop entry.recipe) count records ls b'.frames b'.numbers
        b'.arguments ∧
      b'.frameCount = count.toNat ∧ b'.frames.length = count.toNat := by
  obtain ⟨data, entry, n, a, known, found, run, rfl, -⟩ := Bailout.rebuildFrames_ok h
  obtain ⟨count, records, ls, rfl, walked⟩ := Assembly.run_walked run
  refine ⟨data, entry, count, records, ls, known, found, walked, rfl, ?_⟩
  rw [walked.follows.length.2, walked.announced]

namespace Sample

/-- The bytes of small integers, one for each. -/
def bytes (is : List Int) : List UInt8 := is.map fun i => UInt8.ofNat (2 * zigzag i)

/-- The recipe of a call of `inner` that was inlined into `outer`, with one argument too many. -/
def recipe : List Int :=
  [0, 3, 2,
   -- The body of `outer` has a double, and the same double again.
   1, 1, 0, 2, 11, -2, 11, -1, 10, 0, 17, 17, 7, 0,
   -- An integer and a literal are passed to `inner`.
   5, 1, 3, 11, 0, 12, 1, 15, 0,
   -- The body of `inner` has its arguments object.
   1, 2, 1, 1, 11, 0, 12, 1, 16, 1, 0, 1]

/-- Builds an engine that is stopped in the optimized code of `outer`. -/
def setUp : Engine.Action Unit := do
  let outer ← Engine.onHeap (Heap.newShared "outer" 1 none)
  let inner ← Engine.onHeap (Heap.newShared "inner" 1 none)
  let (f, _) ← Engine.compileBaseline outer 64 ⟨[(⟨1⟩, ⟨20, .noRegisters⟩)]⟩
  let (g, _) ← Engine.compileBaseline inner 64 ⟨[(⟨2⟩, ⟨30, .tosRegister⟩)]⟩
  let data : BailoutData :=
    { recipes := bytes recipe
      entries := [{ node := ⟨1⟩, recipe := 0, argumentsHeight := 0, pc := 12 }]
      literals := [.object f, .object g] }
  let (code, e) := (← get).addCode (.optimized outer 48 2 data)
  let (_, e) := e.installCode f code
  let frame := Frame.ofFunction .optimized (.object f) 1 2
  let frame := frame.link 0 Stack.base (.tagged .undefined) (.tagged (.object f))
  let frame := (frame.setReceiver (.tagged .undefined)).setParameters [.tagged (.smi 5)]
  let frame ← (liftM (frame.setExpressions [.tagged .null, .int (2 ^ 31)]) : Engine.Action Frame)
  let registers ← (liftM (frame.registers.setDouble 0 ⟨0x3FE0000000000000⟩) :
    Engine.Action RegisterFile)
  let pc := (e.codeSpace.get code).address 12
  set { e with stack := ← e.stack.push { frame with registers, pc } }

/-- An engine that is stopped in the optimized code of `outer`. -/
def engine : Engine := (setUp (Engine.ofConfig {})).2

/-- A bailout of `outer`. -/
def request : BailoutRequest := { reason := .eager, function := some (.object ⟨11⟩) }

/-- The bailout once it has begun. -/
def bailout : Bailout :=
  { reason := .eager, function := request.function, code := ⟨11⟩, entry := 0
    input := engine.stack.top?.getD default, traced := false }

end Sample

/-- Two functions and an adaptor frame, four numbers and an arguments object that wait. -/
theorem rebuildFrames_follows_inlined : ∃ (b' : Bailout) (e' : Engine) (data : BailoutData)
    (count : UInt32) (records : List FrameRecord) (ls : List Layout),
    Sample.bailout.rebuildFrames Sample.engine = (.ok b', e') ∧
    Walked (Sample.bailout.scene Sample.engine data) (Sample.bytes Sample.recipe) count records ls
      b'.frames b'.numbers b'.arguments ∧
    b'.frames.map (·.type) = [.javaScript, .argumentsAdaptor, .javaScript] ∧
    b'.numbers.length = 4 ∧ b'.arguments.length = 1 := by
  have built : (Sample.bailout.rebuildFrames Sample.engine).1.toOption.map
      (fun b => (b.frames.map (·.type), b.numbers.length, b.arguments.length)) =
        some ([.javaScript, .argumentsAdaptor, .javaScript], 4, 1) := by decide +kernel
  obtain ⟨b', ok, same⟩ := Option.map_eq_some_iff.mp built
  obtain ⟨types, numbers, arguments⟩ := by simpa only [Prod.mk.injEq] using same
  have rebuilt := Computation.eq_ok_of_toOption ok
  obtain ⟨data, entry, count, records, ls, known, found, walked, -⟩ := rebuildFrames_follows rebuilt
  have place : (Sample.engine.codeSpace.get Sample.bailout.code).bailouts.map
      (fun d => d.recipes.drop ((d.entries[0]?.map (·.recipe)).getD 0)) =
        some (Sample.bytes Sample.recipe) := by decide +kernel
  have start : data.recipes.drop entry.recipe = Sample.bytes Sample.recipe := by
    have here : data.entries[0]? = some entry := found
    simpa [known, here] using place
  exact ⟨b', _, data, count, records, ls, rebuilt, start ▸ walked, types, numbers, arguments⟩

end Speculation
