import Speculation.Proofs.Bailout.Records
import Speculation.Proofs.Bailout.Replacement
import Speculation.Proofs.Double.Integers
import Speculation.Proofs.Recipe.RoundTrip

/-!
# Moving words into optimized code

A replacement takes the words of the interpreted frame from the top down, and puts each of them where
the next command of the recipe says. A `Move` is one such step whose word can be taken back out: a
tagged value stays as it is, and a small integer may become an untagged one.

Places do not overlap (`Frame.offset_inj`), so a word stays where it was put as long as no other move has
the same place. `run_holds` says so for a whole replacement: unless it fails for good, the new frame has
every word at its place, and the fixed part of the interpreted frame.
-/

namespace Speculation

open Recipe

/-! ### Places -/

/-- A place for a word in a frame of optimized code. -/
inductive Place where
  | register (number : Nat)
  | slot (index : Int)
  | fixed (slot : FixedSlot)
deriving DecidableEq

namespace Frame

/-- The word at a place. -/
def held? (f : Frame) : Place → Option Word
  | .register r => f.registers.words[r]?
  | .slot k => f.wordAt? k
  | .fixed slot => f.words[f.fixedOffset slot]?

/-- What a place holds is a matter of words, area and registers. -/
theorem held?_congr {f g : Frame} (words : g.words = f.words) (area : g.area = f.area)
    (registers : g.registers = f.registers) (p : Place) : g.held? p = f.held? p := by
  have size : g.size = f.size := congrArg List.length words
  cases p with
  | register r => rw [held?, held?, registers]
  | slot k => simp only [held?, wordAt?, size, area, words]
  | fixed slot => simp only [held?, fixedOffset, size, area, words]

/-- The offset of a place in the frame, which may lie outside. -/
def offset? (f : Frame) : Place → Option Int
  | .register _ => none
  | .slot k => some (rawOffset f.size f.area k)
  | .fixed slot => some (f.fixedOffset slot)

/-- Slot indices pass over the fixed part. -/
theorem offset_inj {f : Frame} {p q : Place} {o : Int} (hp : f.offset? p = some o)
    (hq : f.offset? q = some o) : p = q := by
  have fits : f.area + fixedSlots ≤ f.size := f.fits
  unfold fixedSlots at fits
  -- Slots of negative index lie above the fixed part and the others below it.
  cases p with
  | register r => cases hp
  | slot i =>
    have hi := Option.some.inj hp
    cases q with
    | register r => cases hq
    | slot j =>
      have hj := Option.some.inj hq
      unfold rawOffset fixedSlots at hi hj
      congr 1
      split at hi <;> split at hj <;> omega
    | fixed t =>
      have ht := Option.some.inj hq
      have := t.depth_lt
      unfold rawOffset fixedSlots at *
      unfold fixedOffset at ht
      split at hi <;> omega
  | fixed s =>
    have hs := Option.some.inj hp
    have := s.depth_lt
    cases q with
    | register r => cases hq
    | slot j =>
      have hj := Option.some.inj hq
      unfold rawOffset fixedSlots at *
      unfold fixedOffset at hs
      split at hj <;> omega
    | fixed t =>
      have ht := Option.some.inj hq
      have := t.depth_lt
      unfold fixedOffset fixedSlots at *
      have depth : s.depth = t.depth := by omega
      congr 1
      revert depth
      cases s <;> cases t <;> decide

/-- The word at an offset. -/
theorem held?_of_offset {f : Frame} {p : Place} {o : Nat} (hp : f.offset? p = some (o : Int)) :
    f.held? p = f.words[o]? := by
  cases p with
  | register r => cases hp
  | slot k =>
    have raw := Option.some.inj hp
    simp [held?, wordAt?, raw]
  | fixed slot =>
    have offset : f.fixedOffset slot = o := Int.ofNat.inj (Option.some.inj hp)
    rw [held?, offset]

/-- Only the word at the offset is written. -/
theorem held?_write_ne {f : Frame} {p q : Place} {o : Nat} (hp : f.offset? p = some (o : Int))
    (other : q ≠ p) (w : Word) : (f.write o w).held? q = f.held? q := by
  have size : (f.write o w).size = f.size := f.size_write o w
  cases q with
  | register r => rfl
  | slot k =>
    have away : rawOffset f.size f.area k ≠ o := fun same =>
      other (offset_inj (congrArg some same) hp)
    simp only [held?, wordAt?, size, area_write, words_write]
    split
    · exact List.getElem?_set_ne (by omega)
    · rfl
  | fixed slot =>
    have away : o ≠ f.fixedOffset slot := fun same =>
      other (offset_inj (congrArg (fun n : Nat => some (n : Int)) same.symm) hp)
    have offset : (f.write o w).fixedOffset slot = f.fixedOffset slot := by
      rw [fixedOffset, size]
      rfl
    rw [held?, held?, offset, words_write, List.getElem?_set_ne away]

/-- `g` is `f` with words written at places. -/
structure Writes (f g : Frame) (ws : List (Place × Word)) : Prop where
  outline : g.outline = f.outline
  written : ∀ p w, (p, w) ∈ ws → g.held? p = some w
  kept : ∀ p, p ∉ ws.map Prod.fst → g.held? p = f.held? p

namespace Writes

variable {f g k : Frame} {ws ws' : List (Place × Word)}

theorem nil (f : Frame) : Writes f f [] := ⟨rfl, by simp, fun _ _ => rfl⟩

/-- A word is not overwritten at another place. -/
theorem append (h : Writes f g ws) (h' : Writes g k ws')
    (apart : ∀ p ∈ ws.map Prod.fst, p ∉ ws'.map Prod.fst) : Writes f k (ws ++ ws') where
  outline := h'.outline.trans h.outline
  written p w hp := by
    rcases List.mem_append.mp hp with first | second
    · rw [h'.kept p (apart p (List.mem_map_of_mem first)), h.written p w first]
    · exact h'.written p w second
  kept p hp := by
    rw [List.map_append, List.mem_append, not_or] at hp
    rw [h'.kept p hp.2, h.kept p hp.1]

/-- A word that is written inside the frame. -/
theorem at_offset {p : Place} {o : Nat} (hp : f.offset? p = some (o : Int)) (inside : o < f.size)
    (w : Word) : Writes f (f.write o w) [(p, w)] where
  outline := f.outline_write o w
  written q x hq := by
    obtain ⟨rfl, rfl⟩ := Prod.mk.inj (List.mem_singleton.mp hq)
    have same : (f.write o x).offset? q = f.offset? q := by
      cases q <;> simp [offset?, fixedOffset]
    rw [held?_of_offset (same.trans hp), words_write]
    exact List.getElem?_set_self inside
  kept q hq := held?_write_ne hp (by simpa using hq) w

theorem register {r : Nat} {w : Word} {registers : RegisterFile}
    (set : f.registers.setWord r w = .ok registers) :
    Writes f { f with registers } [(.register r, w)] := by
  unfold RegisterFile.setWord at set
  split at set
  · rename_i inside
    cases set
    refine ⟨rfl, fun p x hp => ?_, fun p hp => ?_⟩
    · obtain ⟨rfl, rfl⟩ := Prod.mk.inj (List.mem_singleton.mp hp)
      exact List.getElem?_set_self inside
    · cases p with
      | register q =>
        have other : r ≠ q := fun same => hp (by simp [same])
        exact List.getElem?_set_ne other
      | slot k => rfl
      | fixed slot => rfl
  · cases set

end Writes

end Frame

/-! ### Moves -/

/-- A command that moves a value, the place it names, and the word that stands there for the value:
the value itself, or the integer that it is. -/
inductive Carries : Command → Value → Place → Word → Prop
  | register {r : UInt32} {v : Value} : Carries (.register r) v (.register r.toNat) (.tagged v)
  | stackSlot {k : Int32} {v : Value} : Carries (.stackSlot k) v (.slot k.toInt) (.tagged v)
  | int32Register {r : UInt32} {i : Int} (small : Value.fitsSmi i = true) :
    Carries (.int32Register r) (.smi i) (.register r.toNat) (.int i)
  | int32StackSlot {k : Int32} {i : Int} (small : Value.fitsSmi i = true) :
    Carries (.int32StackSlot k) (.smi i) (.slot k.toInt) (.int i)
  | uint32Register {r : UInt32} {i : Int} (small : Value.fitsSmi i = true) (natural : 0 ≤ i) :
    Carries (.uint32Register r) (.smi i) (.register r.toNat) (.int i)
  | uint32StackSlot {k : Int32} {i : Int} (small : Value.fitsSmi i = true) (natural : 0 ≤ i) :
    Carries (.uint32StackSlot k) (.smi i) (.slot k.toInt) (.int i)

/-- A value that a command moves. -/
structure Move where
  command : Command
  value : Value
  place : Place
  word : Word
  carries : Carries command value place word

namespace Carries

variable {c : Command} {v : Value} {p : Place} {w : Word}

theorem opcode_ne (h : Carries c v p w) : c.opcode ≠ .duplicate := by
  cases h <;> simp [Command.opcode]

/-- A small integer is a signed word. -/
theorem toInt32?_smi {h : Heap} {i : Int} (small : Value.fitsSmi i = true) :
    h.toInt32? (.smi i) = some i := by
  have := Value.bounds_of_fitsSmi small
  exact if_pos (by omega)

/-- A small integer that is not negative is an unsigned word. -/
theorem toUint32?_smi {h : Heap} {i : Int} (small : Value.fitsSmi i = true) (natural : 0 ≤ i) :
    h.toUint32? (.smi i) = some i := by
  have := Value.bounds_of_fitsSmi small
  exact if_pos (by omega)

theorem place_ne (h : Carries c v p w) (slot : FixedSlot) : p ≠ .fixed slot := by
  cases h <;> simp

/-- The value converts. -/
theorem convert (h : Carries c v p w) (s : Scene) (slot : Nat) :
    Replacement.convert s slot c v = pure (some w) := by
  cases h with
  | register | stackSlot => rfl
  | int32Register small | int32StackSlot small => simp [Replacement.convert, toInt32?_smi small]
  | uint32Register small natural | uint32StackSlot small natural =>
    simp [Replacement.convert, toUint32?_smi small natural]

theorem setSlot_writes {f g : Frame} {k : Int} {o : Nat} (found : f.offsetOfIndex k = .ok o)
    (set : f.setSlot o w = .ok g) : f.Writes g [(.slot k, w)] := by
  simp only [Frame.offsetOfIndex] at found
  split at found
  · rename_i range
    cases found
    unfold Frame.setSlot at set
    split at set
    · rename_i inside
      cases set
      refine .at_offset ?_ inside w
      rw [Int.toNat_of_nonneg range.1]
      rfl
    · cases set
  · cases found

/-- The word is put at the place. -/
theorem store {f g : Frame} (h : Carries c v p w) (stored : Replacement.store f c w = .ok g) :
    f.Writes g [(p, w)] := by
  cases h with
  | register | int32Register | uint32Register =>
    obtain ⟨registers, set, done⟩ := Computation.except_bind_eq_ok stored
    cases done
    exact .register set
  | stackSlot | int32StackSlot | uint32StackSlot =>
    obtain ⟨o, found, set⟩ := Computation.except_bind_eq_ok stored
    exact setSlot_writes found set

/-- A small integer is made of the bits that stand for it. -/
theorem smi_of_int32 {i : Int} {x : Recovered} (small : Value.fitsSmi i = true)
    (h : x.IsInteger (i.bmod (2 ^ 32))) : x = .tagged (.smi i) := by
  have := Value.bounds_of_fitsSmi small
  rw [Int.bmod_eq_of_le (by omega) (by omega), Recovered.IsInteger, if_pos (by omega)] at h
  exact h

/-- A small integer comes back from an unsigned word as itself. -/
theorem smi_of_uint32 {i : Int} {x : Recovered} (small : Value.fitsSmi i = true) (natural : 0 ≤ i)
    (h : x.IsInteger (i % 2 ^ 32)) : x = .tagged (.smi i) := by
  have := Value.bounds_of_fitsSmi small
  rw [Int.emod_eq_of_lt natural (by omega), Recovered.IsInteger, if_pos (by omega)] at h
  exact h

/-- **The command takes the value back out**, as long as the word is at its place. -/
theorem denotes {s : Scene} {x : Recovered} (h : Carries c v p w) (held : s.input.held? p = some w)
    (denotes : Denotes s c x) : x = .tagged v := by
  have read {y : Word} (at' : s.input.held? p = some y) : w = y := Option.some.inj (held.symm.trans at')
  cases h with
  | register =>
    cases denotes with
    | register at' =>
      cases read at'
      rfl
  | stackSlot =>
    cases denotes with
    | stackSlot at' =>
      cases read at'
      rfl
  | int32Register small =>
    cases denotes with
    | int32Register at' integer =>
      cases read at'
      exact smi_of_int32 small integer
  | int32StackSlot small =>
    cases denotes with
    | int32StackSlot at' integer =>
      cases read at'
      exact smi_of_int32 small integer
  | uint32Register small natural =>
    cases denotes with
    | uint32Register at' integer =>
      cases read at'
      exact smi_of_uint32 small natural integer
  | uint32StackSlot small natural =>
    cases denotes with
    | uint32StackSlot at' integer =>
      cases read at'
      exact smi_of_uint32 small natural integer

end Carries

/-! ### Commands that are spelled out -/

namespace Command

/-- The integers of a command in a recipe. -/
def ints (c : Command) : List Int := (c.opcode.number : Int) :: c.operands

/-- A command that can be read from its integers; a count that is too large cannot. -/
def Legible (c : Command) : Prop := ofParts? c.opcode c.operands = some c

theorem unsigned?_signedWord_eq {w x : UInt32} (h : unsigned? (signedWord w) = some x) : x = w := by
  by_cases small : w.toNat < 2 ^ 31
  · rw [unsigned?_signedWord small] at h
    exact (Option.some.inj h).symm
  · have negative : signedWord w < 0 := by
      rw [signedWord, if_neg small]
      have := w.toNat_lt
      omega
    rw [unsigned?, if_neg (by omega)] at h
    cases h

/-- A command that was read is the one that was spelled. -/
theorem eq_of_ofParts?_operands {c k : Command} (h : ofParts? c.opcode c.operands = some k) : k = c := by
  cases c <;> simp [opcode, operands, ofParts?, Option.bind_eq_some_iff] at h
  case jsFrame node l n =>
    obtain ⟨_, literal, _, height, rfl⟩ := h
    rw [unsigned?_signedWord_eq literal, unsigned?_signedWord_eq height]
  all_goals grind -ring -linarith [unsigned?_signedWord_eq]

end Command

section Reading

variable {c d : Cursor} {k k' : Command} {xs : List Int} {rest : List UInt8}

/-- The operands of a command are read as they are spelled, if they make a command. -/
theorem Cursor.operandsOf_spelled (h : operandsOf k'.opcode c = (.ok k, d))
    (spelled : Spells c.rest (k'.operands ++ xs) rest) :
    k = k' ∧ k'.Legible ∧ Spells d.rest xs rest := by
  obtain ⟨is, parts, read⟩ := operandsOf_ok h
  have length : is.length = k'.operands.length := by
    rw [Command.length_of_ofParts? parts, Command.length_operands]
  obtain ⟨rfl, behind⟩ := read.consume_append spelled length
  obtain rfl := Command.eq_of_ofParts?_operands parts
  exact ⟨rfl, parts, behind⟩

/-- Reading a command that is spelled there gives this command. -/
theorem Cursor.nextCommand_spelled (h : nextCommand c = (.ok k, d))
    (spelled : Spells c.rest (k'.ints ++ xs) rest) :
    k = k' ∧ k'.Legible ∧ Spells d.rest xs rest := by
  obtain ⟨o, e, opcode, h⟩ := Computation.bind_eq_ok h
  obtain ⟨same, spelled'⟩ := (nextOpcode_ok opcode).consume_cons spelled
  obtain rfl := Opcode.number_inj same
  exact operandsOf_spelled h spelled'

/-- A command without marks is the next place. -/
theorem Replacement.nextPlace_spelled (h : nextPlace c = (.ok k, d))
    (spelled : Spells c.rest (k'.ints ++ xs) rest) (own : k'.opcode ≠ .duplicate) :
    k = k' ∧ Spells d.rest xs rest := by
  simp only [nextPlace, Computation.get_bind] at h
  obtain ⟨o, e, passed, h⟩ := Computation.bind_eq_ok h
  obtain ⟨is, read, marks⟩ := Assembly.passMarks_ok passed
  have short := read.length_add_le
  rcases marks with ⟨no, -, -⟩ | ⟨-, -, m, rfl⟩ | long
  · exact absurd rfl no
  · -- The first integer is the opcode, so it is no mark.
    cases m with
    | zero =>
      obtain ⟨same, spelled'⟩ := read.consume_cons spelled
      obtain rfl := Opcode.number_inj same
      obtain ⟨same, -, behind⟩ := Cursor.operandsOf_spelled h spelled'
      exact ⟨same, behind⟩
    | succ m =>
      cases read with
      | cons head tail =>
        obtain ⟨same, -⟩ := (Spells.cons head .nil).consume_cons spelled
        exact absurd (Opcode.number_inj same).symm own
  · omega

/-- The head of a recipe with one frame. -/
theorem Replacement.expectedHeight_spelled {node node' : NodeId} {n : Nat} {js literal height : UInt32}
    (h : expectedHeight node c = (.ok n, d))
    (spelled : Spells c.rest ((Command.begin 1 js).ints ++
      ((Command.jsFrame node' literal height).ints ++ xs)) rest) :
    n = height.toNat ∧ (Command.begin 1 js).Legible ∧ (Command.jsFrame node' literal height).Legible ∧
      Spells d.rest xs rest := by
  obtain ⟨first, e, read, h⟩ := Computation.bind_eq_ok h
  obtain ⟨rfl, begins, spelled'⟩ := Cursor.nextCommand_spelled read spelled
  obtain ⟨second, e', read', h⟩ := Computation.bind_eq_ok h
  obtain ⟨rfl, opens, spelled''⟩ := Cursor.nextCommand_spelled read' spelled'
  dsimp only at h
  split at h
  · cases h
    exact ⟨rfl, begins, opens, spelled''⟩
  · cases h

end Reading

/-! ### Steps that may fail for good -/

/-- A result that is a terminal fault, or of which `P` holds. -/
inductive Settles {σ α : Type} (P : α → σ → Prop) : Except Fault α × σ → Prop
  | failed {f : Fault} {t : σ} (terminal : f.isTerminal = true) : Settles P (.error f, t)
  | done {x : α} {t : σ} (holds : P x t) : Settles P (.ok x, t)

namespace Settles

variable {σ α β : Type} {P : α → σ → Prop} {Q : β → σ → Prop} {m : ExceptT Fault (StateM σ) α}
  {f : α → ExceptT Fault (StateM σ) β} {s : σ}

theorem of_fatal (fatal : Fatal m) (ok : ∀ {x t}, m s = (.ok x, t) → P x t) : Settles P (m s) := by
  rcases h : m s with ⟨g | x, t⟩
  · exact .failed (fatal.terminal h)
  · exact .done (ok h)

theorem bind (first : Settles P (m s)) (rest : ∀ {x t}, P x t → Settles Q (f x t)) :
    Settles Q ((m >>= f) s) := by
  rcases h : m s with ⟨g | x, t⟩
  · rw [h] at first
    rw [Computation.bind_error h]
    cases first with
    | failed terminal => exact .failed terminal
  · rw [h] at first
    rw [Computation.bind_ok h]
    cases first with
    | done holds => exact rest holds

theorem imp {R : α → σ → Prop} {r : Except Fault α × σ} (h : Settles P r)
    (weaker : ∀ {x t}, P x t → R x t) : Settles R r := by
  cases h with
  | failed terminal => exact .failed terminal
  | done holds => exact .done (weaker holds)

end Settles

/-! ### Whole replacements -/

/-- The interpreted word that is moved. -/
def Move.source (m : Move) : Word := .tagged m.value

/-- What is written in the new frame. -/
def Move.target (m : Move) : Place × Word := (m.place, m.word)

/-- The fixed part of a frame, as words at places. -/
def Frame.fixedPart (f : Frame) (slots : List FixedSlot) : List (Place × Word) :=
  slots.map fun slot => (.fixed slot, f.fixed slot)

theorem FixedSlot.mem_all (slot : FixedSlot) : slot ∈ all := by
  cases slot <;> decide

theorem Move.places_eq (ms : List Move) : (ms.map target).map Prod.fst = ms.map place := by
  rw [List.map_map]
  rfl

/-- No move has a place in the fixed part. -/
theorem Move.place_notMem (m : Move) (f : Frame) (slots : List FixedSlot) :
    m.place ∉ (f.fixedPart slots).map Prod.fst := by
  have free : ∀ slot, m.place ≠ .fixed slot := m.carries.place_ne
  simpa [Frame.fixedPart] using fun slot _ => (free slot).symm

theorem Frame.Writes.congr {f g g' : Frame} {ws : List (Place × Word)} (h : f.Writes g ws)
    (outline : g'.outline = g.outline) (held : ∀ p, g'.held? p = g.held? p) : f.Writes g' ws where
  outline := outline.trans h.outline
  written p w hp := (held p).trans (h.written p w hp)
  kept p hp := (held p).trans (h.kept p hp)

namespace Replacement

variable {s : Scene} {a : Replacement} {xs : List Int} {rest : List UInt8} {offset : Nat}

theorem say_apply (s : Scene) (text : String) (a : Replacement) :
    ∃ trace, say s text a = (.ok (), { a with trace }) := by
  unfold say
  split
  · exact ⟨_, rfl⟩
  · exact ⟨a.trace, rfl⟩

theorem nextPlace_fatal : Fatal nextPlace :=
  .bind .get fun _ => .bind (Assembly.passMarks_fatal ..) fun o => Cursor.operandsOf_fatal o

/-- Reading a command moves the cursor and nothing else. -/
theorem read_settles {α : Type} {r : Cursor.Reader α} {P : α → Cursor → Prop}
    (h : Settles P (r a.cursor)) :
    Settles (fun x b => P x b.cursor ∧ b = { a with cursor := b.cursor }) (read r a) := by
  rcases ran : r a.cursor with ⟨f | x, cursor⟩
  · rw [ran] at h
    rw [read, ran]
    cases h with
    | failed terminal => exact .failed terminal
  · rw [ran] at h
    rw [read, ran]
    cases h with
    | done holds => exact .done ⟨holds, rfl⟩

/-- One word is moved. -/
theorem moveWord_settles (m : Move) (found : s.input.slot offset = .ok m.source)
    (spelled : Spells a.cursor.rest (m.command.ints ++ xs) rest) :
    Settles (fun _ b => a.output.Writes b.output [m.target] ∧ Spells b.cursor.rest xs rest)
      (moveWord s offset a) := by
  rw [moveWord, found, Computation.liftM_ok_bind]
  refine .bind (read_settles (.of_fatal nextPlace_fatal fun read =>
    nextPlace_spelled read spelled m.carries.opcode_ne)) ?_
  rintro _ b ⟨⟨rfl, spelled'⟩, hb⟩
  rw [m.carries.convert, Computation.pure_bind_apply]
  dsimp only
  rw [Computation.get_bind]
  refine .bind (.of_fatal (.lift (store_fatal ..)) id) ?_
  intro f t stored
  obtain rfl : b = t := congrArg Prod.snd stored
  have writes := m.carries.store (congrArg Prod.fst stored)
  have output : b.output = a.output := by rw [hb]
  rw [output] at writes
  rw [Computation.modify_bind]
  obtain ⟨trace, said⟩ := say_apply s _ { b with output := f }
  rw [said]
  exact .done ⟨writes, spelled'⟩

/-- Words are moved one after the other, each to a place of its own. -/
theorem moveWords_settles {ms : List Move} (above below : List Word)
    (down : s.input.down = above ++ ms.map Move.source ++ below)
    (at' : offset = ms.length + below.length) (apart : (ms.map Move.place).Nodup)
    (spelled : Spells a.cursor.rest (ms.flatMap (fun m => m.command.ints) ++ xs) rest) :
    Settles (fun _ b => a.output.Writes b.output (ms.map Move.target) ∧ Spells b.cursor.rest xs rest)
      (moveWords s ms.length offset a) := by
  -- The words that are done go over to `above`; those below the run stay where they are.
  induction ms generalizing a offset above with
  | nil => exact .done ⟨.nil _, spelled⟩
  | cons m ms ih =>
    rw [List.map_cons, List.nodup_cons] at apart
    rw [List.flatMap_cons, List.append_assoc] at spelled
    have here : offset - 1 = (ms.map Move.source ++ below).length := by
      rw [at', List.length_append, List.length_map, List.length_cons]
      omega
    have found : s.input.slot (offset - 1) = .ok m.source := by
      rw [here]
      exact Frame.slot_of_down (by simpa using down)
    refine .bind (moveWord_settles m found spelled) ?_
    rintro _ b ⟨first, spelled'⟩
    refine (ih (above ++ [m.source]) (by simpa using down) ?_ apart.2 spelled').imp ?_
    · rw [here, List.length_append, List.length_map]
    · rintro _ c ⟨later, spelled''⟩
      refine ⟨first.append later ?_, spelled''⟩
      rw [Move.places_eq]
      intro p hp
      obtain rfl : p = m.place := List.mem_singleton.mp hp
      exact apart.1

/-- A word of the fixed part is copied. -/
theorem copyFixed_settles (area : a.output.area = s.input.area) (slot : FixedSlot) :
    Settles (fun _ b => a.output.Writes b.output (s.input.fixedPart [slot]) ∧ b.cursor = a.cursor)
      (copyFixed s slot a) := by
  have inside := a.output.fixedOffset_lt_size slot
  have set : a.output.setSlot (a.output.fixedOffset slot) (s.input.fixed slot) =
      .ok (a.output.write (a.output.fixedOffset slot) (s.input.fixed slot)) := if_pos inside
  have found : s.input.slot (s.input.size - a.output.area - 1 - slot.depth) =
      .ok (s.input.fixed slot) := by
    rw [area]
    exact s.input.slot_fixed slot
  rw [copyFixed, Computation.get_bind]
  dsimp only
  rw [found, Computation.liftM_ok_bind, Computation.get_bind, Computation.get_bind, set,
    Computation.liftM_ok_bind, Computation.modify_bind]
  obtain ⟨trace, said⟩ := say_apply s _ _
  rw [said]
  have writes : a.output.Writes (a.output.write (a.output.fixedOffset slot) (s.input.fixed slot))
      (s.input.fixedPart [slot]) := .at_offset rfl inside _
  refine .done ⟨?_, rfl⟩
  dsimp only
  split
  · exact writes.congr rfl (Frame.held?_congr rfl rfl rfl)
  · exact writes

/-- The fixed part is copied slot by slot. -/
theorem copyFixedPart_settles {slots : List FixedSlot} (area : a.output.area = s.input.area)
    (apart : slots.Nodup) :
    Settles (fun _ b => a.output.Writes b.output (s.input.fixedPart slots) ∧ b.cursor = a.cursor)
      (copyFixedPart s slots a) := by
  induction slots generalizing a with
  | nil => exact .done ⟨.nil _, rfl⟩
  | cons slot slots ih =>
    rw [List.nodup_cons] at apart
    refine .bind (copyFixed_settles area slot) ?_
    rintro _ b ⟨first, cursor⟩
    have area' : b.output.area = s.input.area := (congrArg Outline.area first.outline).trans area
    refine (ih area' apart.2).imp ?_
    rintro _ c ⟨later, cursor'⟩
    refine ⟨first.append later ?_, cursor'.trans cursor⟩
    intro p hp
    obtain rfl : p = .fixed slot := by simpa [Frame.fixedPart] using hp
    simpa [Frame.fixedPart] using apart.1

/-- **A replacement puts every word where it belongs.** The new frame has the interpreted words at the
places of their moves, if no two moves have the same place, and the fixed part as it was. -/
theorem run_holds {ps es : List Move} {fixed : List Word} {name : String} {node : NodeId}
    {entry : BailoutEntry} (down : s.input.down = ps.map Move.source ++ fixed ++ es.map Move.source)
    (length : fixed.length = fixedSlots) (area : s.input.area = ps.length)
    (area' : a.output.area = ps.length) (apart : ((ps ++ es).map Move.place).Nodup)
    (spelled : Spells a.cursor.rest ((ps ++ es).flatMap (fun m => m.command.ints) ++ xs) rest) :
    Settles (fun f _ => f.area = ps.length ∧ f.size = a.output.size ∧
        (∀ m ∈ ps ++ es, f.held? m.place = some m.word) ∧
        ∀ slot, f.held? (.fixed slot) = some (s.input.fixed slot))
      (run s name node entry es.length a) := by
  have size : s.input.size = ps.length + (fixedSlots + es.length) := by
    rw [← s.input.length_down, down]
    simp [length]
  rw [List.map_append, List.nodup_append] at apart
  obtain ⟨apartParameters, apartExpressions, apart⟩ := apart
  rw [List.flatMap_append, List.append_assoc] at spelled
  rw [run, Computation.get_bind, Computation.get_bind]
  dsimp only
  obtain ⟨trace, said⟩ := say_apply s _ a
  rw [Computation.bind_ok said, area']
  refine .bind (moveWords_settles [] (fixed ++ es.map Move.source) (by simpa using down)
    (by simp [size, length]) apartParameters spelled) ?_
  rintro _ b ⟨parameters, spelled'⟩
  have areaOfInput : b.output.area = s.input.area :=
    (congrArg Outline.area parameters.outline).trans (area'.trans area.symm)
  refine .bind (copyFixedPart_settles areaOfInput (by decide)) ?_
  rintro _ c ⟨fixedPart, cursor⟩
  rw [← cursor] at spelled'
  refine .bind (moveWords_settles (ps.map Move.source ++ fixed) [] (by simpa using down)
    (by simp only [size, List.length_nil]; omega) apartExpressions spelled') ?_
  rintro _ d ⟨expressions, -⟩
  -- Parameters, fixed part and expressions have places of their own.
  have upper := parameters.append fixedPart (by
    rw [Move.places_eq]
    intro p hp
    obtain ⟨m, -, rfl⟩ := List.mem_map.mp hp
    exact m.place_notMem _ _)
  have writes := upper.append expressions (by
    rw [List.map_append, Move.places_eq, Move.places_eq]
    intro p hp hp'
    obtain ⟨m, -, rfl⟩ := List.mem_map.mp hp'
    rcases List.mem_append.mp hp with first | second
    · exact apart _ first _ hp' rfl
    · exact m.place_notMem _ _ second)
  -- What is left is to place the frame, for which there may be no room.
  split
  · rw [Computation.get_bind]
    obtain ⟨trace, said⟩ := say_apply s _ d
    rw [Computation.bind_ok said]
    refine .done ⟨(congrArg Outline.area writes.outline).trans area',
      congrArg Outline.size writes.outline, ?_, ?_⟩
    · intro m hm
      refine (Frame.held?_congr rfl rfl rfl _).trans (writes.written m.place m.word ?_)
      rw [List.mem_append, List.mem_append]
      rcases List.mem_append.mp hm with parameter | expression
      · exact .inl (.inl (List.mem_map_of_mem parameter))
      · exact .inr (List.mem_map_of_mem expression)
    · intro slot
      refine (Frame.held?_congr rfl rfl rfl _).trans (writes.written (.fixed slot) _ ?_)
      rw [List.mem_append, List.mem_append]
      exact .inl (.inr (List.mem_map_of_mem slot.mem_all))
  · exact .failed rfl

end Replacement

end Speculation
