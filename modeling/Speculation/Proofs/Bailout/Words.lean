import Speculation.Proofs.Bailout.Denotation

/-!
# Filling a frame with words

The walk builds one frame at a time. `Fills` says what a step does: which integers of the recipe it
reads, which positions these are and which values they stand for, which values it defers, and which
words it writes. Words are listed from the top of the frame down (`Frame.down`), in the order in which
the recipe gives them. Steps compose (`Fills.trans`).

A run of value commands fills consecutive words (`rebuildWords_fills`).
-/

namespace Speculation

/-! ### Words from the top down -/

namespace Frame

/-- The words of a frame, from the highest offset down. -/
def down (f : Frame) : List Word := f.words.reverse

theorem length_down (f : Frame) : f.down.length = f.size := List.length_reverse

/-- Words counted from above are those counted from below. -/
theorem down_getElem? (f : Frame) {o : Nat} (h : o < f.size) :
    f.down[f.size - 1 - o]? = f.words[o]? := by
  unfold size at h
  rw [down, size, List.getElem?_reverse (by omega)]
  congr 1
  omega

theorem words_of_down {f : Frame} {above below : List Word} {x : Word}
    (h : f.down = above ++ x :: below) : f.words = below.reverse ++ x :: above.reverse := by
  rw [← List.reverse_reverse f.words]
  change f.down.reverse = _
  rw [h]
  simp

/-- A slot is known by the words above and below it. -/
theorem slot_of_down {f : Frame} {above below : List Word} {x : Word}
    (h : f.down = above ++ x :: below) : f.slot below.length = .ok x := by
  have found : f.words[below.length]? = some x := by
    rw [words_of_down h, List.getElem?_append_right (by simp), List.length_reverse, Nat.sub_self]
    rfl
  rw [slot, found]

/-- A write exchanges one word. -/
theorem down_write {f : Frame} {above below : List Word} {x : Word} (w : Word)
    (h : f.down = above ++ x :: below) :
    (f.write below.length w).down = above ++ w :: below := by
  have set : f.words.set below.length w = below.reverse ++ w :: above.reverse := by
    have length : below.reverse.length = below.length := List.length_reverse
    rw [words_of_down h, ← length, List.set_append_right _ _ (Nat.le_refl _), Nat.sub_self]
    rfl
  rw [down, words_write, set]
  simp

end Frame

/-- What is settled about a frame when it is opened. -/
structure Outline where
  type : FrameType
  function : Option Value
  area : Nat
  size : Nat
  top : Nat
  fp : Nat
  continuation : Option Nat

/-- The address of the word that holds the caller's frame pointer. -/
def Outline.link (o : Outline) : Nat := o.top + (o.size - o.area - 1 - FixedSlot.callerFp.depth)

def Frame.outline (f : Frame) : Outline :=
  ⟨f.type, f.function, f.area, f.size, f.top, f.fp, f.continuation⟩

theorem Frame.outline_write (f : Frame) (offset : Nat) (w : Word) :
    (f.write offset w).outline = f.outline := by
  simp only [outline, size_write]
  rfl

/-- What a word of a rebuilt frame is. -/
inductive Slot where
  /-- A word that the walk knows. -/
  | word (w : Word)
  /-- A value that the recipe describes. -/
  | value (v : Recovered)

namespace Slot

/-- The word that is written. -/
def content : Slot → Word
  | word w => w
  | value v => .tagged v.placeholder

/-- The values among slots, with their offsets if `below` words are below. -/
def placed (below : Nat) : List Slot → List (Nat × Recovered)
  | [] => []
  | word _ :: slots => placed below slots
  | value v :: slots => (below + slots.length, v) :: placed below slots

theorem placed_append (below : Nat) (slots slots' : List Slot) :
    placed below (slots ++ slots') =
      placed (below + slots'.length) slots ++ placed below slots' := by
  induction slots with
  | nil => rfl
  | cons slot slots ih =>
    cases slot with
    | word w => exact ih
    | value v =>
      simp only [List.cons_append, placed, ih, List.length_append]
      congr 2
      omega

@[simp] theorem placed_replicate (below n : Nat) (w : Word) :
    placed below (List.replicate n (.word w)) = [] := by
  induction n with
  | zero => rfl
  | succ n ih => exact ih

/-- Placing values forgets none. -/
theorem snd_placed (below : Nat) (vs : List Recovered) :
    (placed below (vs.map value)).map Prod.snd = vs := by
  induction vs with
  | nil => rfl
  | cons v vs ih => simp [placed, ih]

end Slot

/-- The number that waits for a box, if a value is one. -/
def DeferredNumber.of? (frame : Nat) : Nat × Recovered → Option DeferredNumber
  | (offset, .number d) => some ⟨frame, offset, d⟩
  | _ => none

/-- The arguments that wait to be allocated, if a value is that. -/
def DeferredArguments.of? (frame : Nat) : Nat × Recovered → Option DeferredArguments
  | (offset, .arguments vs) => some ⟨frame, offset, vs⟩
  | _ => none

/-! ### Steps -/

/-- What a step of the walk reads and defers. -/
structure Effect where
  ints : List Int := []
  positions : List Position := []
  values : List Recovered := []
  placed : List (Nat × Recovered) := []

/-- One effect after the other. -/
def Effect.append (e e' : Effect) : Effect :=
  ⟨e.ints ++ e'.ints, e.positions ++ e'.positions, e.values ++ e'.values, e.placed ++ e'.placed⟩

open Recipe

namespace Assembly

variable {s : Scene} {a b c : Assembly} {e e' : Effect} {above below old mid new : List Word}
  {w x : Word} {offset : Nat} {v : Recovered}

/-- A step that turns the words `old` of the current frame into `new`. -/
structure Fills (s : Scene) (a b : Assembly) (e : Effect) (old new : List Word) : Prop where
  spelled : Spells a.cursor.rest e.ints b.cursor.rest
  reads : Reads s a.last e.positions e.values b.last
  frames : b.frames = a.frames
  numbers : b.numbers = a.numbers ++ e.placed.filterMap (DeferredNumber.of? a.frames.length)
  arguments : b.arguments = a.arguments ++ e.placed.filterMap (DeferredArguments.of? a.frames.length)
  outline : b.current.outline = a.current.outline
  down : a.current.down = old → b.current.down = new

theorem Fills.trans (f : Fills s a b e old mid) (f' : Fills s b c e' mid new) :
    Fills s a c (e.append e') old new where
  spelled := f.spelled.append f'.spelled
  reads := f.reads.append f'.reads
  frames := f'.frames.trans f.frames
  numbers := by simp [f'.numbers, f.numbers, f.frames, Effect.append]
  arguments := by simp [f'.arguments, f.arguments, f.frames, Effect.append]
  outline := f'.outline.trans f.outline
  down h := f'.down (f.down h)

/-- A line of the trace changes nothing else. -/
theorem say_ok {text : String} {r : Unit} (h : say s text a = (.ok r, b)) :
    b = { a with trace := b.trace } := by
  unfold say at h
  split at h
  all_goals
    cases h
    rfl

/-- Reading from the recipe. -/
theorem read_ok {α : Type} {r : Cursor.Reader α} {y : α} (h : read r a = (.ok y, b)) :
    r a.cursor = (.ok y, b.cursor) ∧ b = { a with cursor := b.cursor } := by
  rcases hr : r a.cursor with ⟨z, cursor⟩
  simp only [read, hr] at h
  cases h
  exact ⟨rfl, rfl⟩

/-- A write that succeeds writes to the current frame. -/
theorem put_ok {r : Unit} (h : put offset w a = (.ok r, b)) :
    b = { a with current := a.current.write offset w } := by
  simp only [put, Computation.get_bind] at h
  obtain ⟨f, t, hf, h⟩ := Computation.bind_eq_ok h
  have set : a.current.setSlot offset w = .ok f := congrArg Prod.fst hf
  have same : a = t := congrArg Prod.snd hf
  unfold Frame.setSlot at set
  split at set
  · cases set
    cases h
    rw [same]
  · cases set

/-- A word is written between those above and those below. -/
theorem put_fills {r : Unit} (h : put offset w a = (.ok r, b)) (at' : offset = below.length) :
    Fills s a b {} (above ++ x :: below) (above ++ w :: below) := by
  rw [put_ok h, at']
  exact ⟨.nil, .nil, rfl, by simp, by simp, Frame.outline_write .., Frame.down_write w⟩

/-- A fixed word is written at its distance from the parameter area. -/
theorem putFixed_fills {slot : FixedSlot} {r : Unit} (h : putFixed slot w a = (.ok r, b))
    (depth : above.length = a.current.area + slot.depth) :
    Fills s a b {} (above ++ x :: below) (above ++ w :: below) := by
  simp only [putFixed, Computation.get_bind] at h
  rw [put_ok h]
  refine ⟨.nil, .nil, rfl, by simp, by simp, Frame.outline_write .., fun hd => ?_⟩
  have at' : a.current.fixedOffset slot = below.length := by
    have size := a.current.length_down
    rw [hd, List.length_append, List.length_cons] at size
    unfold Frame.fixedOffset
    omega
  rw [at']
  exact Frame.down_write w hd

/-- A change of the current frame that leaves its words. -/
theorem adjust_fills {f : Frame → Frame} {r : Unit} (h : adjust f a = (.ok r, b))
    (outline : (f a.current).outline = a.current.outline)
    (words : (f a.current).words = a.current.words) (old : List Word) : Fills s a b {} old old := by
  cases h
  refine ⟨.nil, .nil, rfl, by simp, by simp, outline, fun hd => ?_⟩
  rw [← hd, Frame.down, Frame.down, words]

/-! ### Values -/

/-- Placing a value writes its placeholder and adds the record that it needs. -/
theorem place_ok {source : String} {r : Unit} (h : place s offset v source a = (.ok r, b)) :
    b = { a with
      current := a.current.write offset (.tagged v.placeholder)
      numbers := a.numbers ++ [(offset, v)].filterMap (DeferredNumber.of? a.frames.length)
      arguments := a.arguments ++ [(offset, v)].filterMap (DeferredArguments.of? a.frames.length)
      trace := b.trace } := by
  simp only [place, index, Computation.get_bind, Computation.pure_bind_apply, bind_assoc] at h
  obtain ⟨_, t, said, h⟩ := Computation.bind_eq_ok h
  obtain ⟨_, u, written, h⟩ := Computation.bind_eq_ok h
  rw [put_ok written, say_ok said] at h
  cases v <;> cases h <;> simp [DeferredNumber.of?, DeferredArguments.of?]

/-- The marks in front of a command. -/
theorem passMarks_ok {n : Nat} {o o' : Opcode} {d d' : Cursor}
    (h : passMarks n o d = (.ok o', d')) : ∃ is, Spells d.rest is d'.rest ∧
      ((o ≠ .duplicate ∧ o' = o ∧ is = []) ∨
        (o = .duplicate ∧ o' ≠ .duplicate ∧
          ∃ m, is = List.replicate m (Opcode.duplicate.number : Int) ++ [(o'.number : Int)]) ∨
        n ≤ is.length) := by
  induction n generalizing o d with
  | zero =>
    cases h
    exact ⟨[], .nil, .inr (.inr (Nat.le_refl 0))⟩
  | succ n ih =>
    unfold passMarks at h
    split at h
    · rename_i ho
      obtain ⟨p, d₁, hp, h⟩ := Computation.bind_eq_ok h
      obtain ⟨is, spelled, rest⟩ := ih h
      refine ⟨_, (Cursor.nextOpcode_ok hp).append spelled, .inr ?_⟩
      rcases rest with ⟨hp', rfl, rfl⟩ | ⟨rfl, hp', m, rfl⟩ | long
      · exact .inl ⟨ho, hp', 0, rfl⟩
      · exact .inl ⟨ho, hp', m + 1, rfl⟩
      · exact .inr (by simp; omega)
    · cases h
      exact ⟨[], .nil, .inl ⟨‹_›, rfl, rfl⟩⟩

/-- Behind a mark there is a value command, which is not used. -/
theorem passDuplicate_ok {frame : Nat} {d d' : Cursor} {r : Unit}
    (h : passDuplicate frame d = (.ok r, d')) : ∃ (p : Position) (is : List Int),
      p.marks ≠ 0 ∧ p.opcode.isValue = true ∧ p.ints = (Opcode.duplicate.number : Int) :: is ∧
      Spells d.rest is d'.rest := by
  simp only [passDuplicate, Computation.get_bind] at h
  obtain ⟨o, d₁, passed, h⟩ := Computation.bind_eq_ok h
  obtain ⟨is, spelled, rest⟩ := passMarks_ok passed
  -- There are not as many marks as bytes.
  have short := spelled.length_add_le
  rcases rest with ⟨no, -, -⟩ | ⟨-, ho, m, rfl⟩ | long
  · exact absurd rfl no
  · split at h
    · cases h
    · rename_i placed
      obtain ⟨js, length, skipped⟩ := Cursor.skip_ok h
      have value : o.isValue = true := by
        simp only [Bool.or_eq_true, decide_eq_true_eq, not_or, Bool.not_eq_true] at placed
        exact o.isValue_iff.mpr ⟨ho, placed.2, placed.1⟩
      refine ⟨⟨m + 1, o, js, ho, length⟩, _, Nat.succ_ne_zero m, value, ?_, spelled.append skipped⟩
      simp [Position.ints, List.replicate_succ]
  · omega

/-- Placing the value of a position that was read. -/
theorem position_fills {p : Position} (spelled : Spells a.cursor.rest p.ints b.cursor.rest)
    (reads : Reads s a.last [p] [v] b.last) (at' : offset = below.length)
    (hb : b = { a with
      cursor := b.cursor
      last := b.last
      current := a.current.write offset (.tagged v.placeholder)
      numbers := a.numbers ++ [(offset, v)].filterMap (DeferredNumber.of? a.frames.length)
      arguments := a.arguments ++ [(offset, v)].filterMap (DeferredArguments.of? a.frames.length)
      trace := b.trace }) :
    Fills s a b ⟨p.ints, [p], [v], [(offset, v)]⟩ (above ++ x :: below)
      (above ++ (Slot.value v).content :: below) := by
  refine ⟨spelled, reads, by rw [hb], by rw [hb], by rw [hb], ?_, fun hd => ?_⟩
  · rw [hb]
    exact Frame.outline_write ..
  rw [hb, at']
  exact Frame.down_write _ hd

/-- A word that the recipe describes by its next position. -/
theorem rebuildWord_fills (above below : List Word) (x : Word) {r : Unit}
    (h : rebuildWord s offset a = (.ok r, b)) (at' : offset = below.length) :
    ∃ (p : Position) (v : Recovered), Fills s a b ⟨p.ints, [p], [v], [(offset, v)]⟩ (above ++ x :: below)
        (above ++ (Slot.value v).content :: below) := by
  simp only [rebuildWord, index, Computation.get_bind, Computation.pure_bind_apply, bind_assoc] at h
  obtain ⟨o, t, opcode, h⟩ := Computation.bind_eq_ok h
  obtain ⟨opcode, ht⟩ := read_ok opcode
  have first := Cursor.nextOpcode_ok opcode
  split at h
  · rename_i ho
    -- A run of duplicates passes on the last value, which has to be there.
    obtain ⟨_, u, passed, h⟩ := Computation.bind_eq_ok h
    obtain ⟨passed, hu⟩ := read_ok passed
    obtain ⟨p, is, marked, value, ints, rest⟩ := passDuplicate_ok passed
    have last : u.last = a.last := by rw [hu, ht]
    simp only [Computation.get_bind, last] at h
    cases hl : a.last with
    | none =>
      rw [hl] at h
      cases h
    | some v =>
      rw [hl] at h
      have hb := place_ok h
      rw [hu, ht] at hb
      refine ⟨p, v, position_fills ?_ ?_ at' (by rw [hb])⟩
      · rw [ints, hb]
        rw [ho] at first
        exact first.append rest
      · rw [hb, hl]
        exact .again marked value .nil
  · rename_i ho
    obtain ⟨c, u, operands, h⟩ := Computation.bind_eq_ok h
    obtain ⟨operands, hu⟩ := read_ok operands
    obtain ⟨is, parts, rest⟩ := Cursor.operandsOf_ok operands
    obtain ⟨v, t', recovered, h⟩ := Computation.bind_eq_ok h
    -- Any other command gives a value of its own.
    have denotes := Command.denotes_of_recover (congrArg Prod.fst recovered)
    have same : u = t' := congrArg Prod.snd recovered
    obtain ⟨_, w, done, h⟩ := Computation.bind_eq_ok h
    have hw := place_ok done
    rw [← same, hu, ht] at hw
    cases h
    let p : Position := ⟨0, o, is, ho, Command.length_of_ofParts? parts⟩
    refine ⟨p, v, position_fills ?_ (.own ⟨rfl, c, parts, denotes⟩ .nil) at' (by rw [hw])⟩
    rw [hw]
    exact first.append rest

/-- A run of words that the recipe describes. -/
theorem rebuildWords_fills (above below : List Word) {n : Nat} {unwritten : List Word} {r : Unit}
    (h : rebuildWords s n offset a = (.ok r, b)) (length : unwritten.length = n)
    (at' : offset = n + below.length) : ∃ (ps : List Position) (vs : List Recovered),
      vs.length = n ∧
      Fills s a b ⟨ps.flatMap Position.ints, ps, vs, Slot.placed below.length (vs.map .value)⟩
        (above ++ unwritten ++ below) (above ++ (vs.map .value).map Slot.content ++ below) := by
  induction n generalizing a offset above unwritten with
  | zero =>
    cases h
    cases List.eq_nil_of_length_eq_zero length
    exact ⟨[], [], rfl, .nil, .nil, rfl, by simp [Slot.placed], by simp [Slot.placed], rfl, by simp⟩
  | succ n ih =>
    obtain ⟨_, t, first, h⟩ := Computation.bind_eq_ok h
    obtain ⟨x, unwritten, rfl⟩ := List.exists_cons_of_length_eq_add_one length
    have length' : unwritten.length = n := by simpa using length
    obtain ⟨p, v, fills⟩ := rebuildWord_fills above (unwritten ++ below) x first (by simp; omega)
    obtain ⟨ps, vs, hvs, rest⟩ := ih (above ++ [(Slot.value v).content]) h length' (by omega)
    refine ⟨p :: ps, v :: vs, by simp [hvs], ?_⟩
    have here : offset - 1 = n + below.length := by omega
    simp only [List.append_assoc, List.singleton_append] at rest
    rw [here] at fills
    simpa [Effect.append, Slot.placed, hvs, length', Nat.add_comm] using fills.trans rest

end Assembly

end Speculation
