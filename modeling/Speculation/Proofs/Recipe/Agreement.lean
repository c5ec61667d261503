import Speculation.Proofs.Recipe.RoundTrip

/-!
# Two readers of recipes

Recipes are read in two ways: `Recipe.decode` checks a whole byte stream and reports what is wrong
with it, while a `Cursor` trusts its bytes, and a flaw is a violation. `Cursor.readAll` is the loop
that reads commands through a cursor as long as bytes are left. Both accept the same streams
(`readAll_decode`):

* commands that decode are what the loop reads, and it ends at the last byte;
* where decoding fails the loop ends in a violation, at the byte that the error names and after the
  commands that the bytes before it decode to.

A cursor notices a missing operand at the operand, not at the start of its command. In this one
respect the violation says more than the error (`Malformed.Accuses`).
-/

namespace Speculation

namespace Recipe

/-- The violations by which a cursor reports a malformed command. -/
inductive Malformed.Accuses : Malformed → Violation → Prop
  | truncatedInteger (o : Nat) : Accuses (.truncatedInteger o) (.truncatedRecipe o)
  | unknownOpcode (v : Int) (o : Nat) : Accuses (.unknownOpcode v o) (.unknownOpcode v)
  /-- The operand that is missing comes after the start of the command. -/
  | missingOperands (c : Opcode) {o p : Nat} (behind : o < p) :
      Accuses (.missingOperands c o) (.truncatedRecipe p)
  | invalidOperands (c : Opcode) (o : Nat) (is : List Int) :
      Accuses (.invalidOperands c o is) (.malformedOperands is c)

/-- A failure is reported where the command begins. -/
theorem offset_of_readCommand {offset : Nat} {bs : List UInt8} {e : Malformed}
    (h : readCommand offset bs = .error e) : e.offset = offset := by
  simp only [readCommand] at h
  repeat' split at h
  all_goals cases h
  all_goals rfl

end Recipe

namespace Cursor

open Speculation.Computation Recipe

variable {c d : Cursor}

/-! ### One command -/

theorem advanceTo_advanceTo (c : Cursor) {mid rest : List UInt8}
    (h : mid.length ≤ c.rest.length) (h' : rest.length ≤ mid.length) :
    (c.advanceTo mid).advanceTo rest = c.advanceTo rest := by
  simp only [advanceTo, Cursor.mk.injEq, and_true]
  omega

/-- The cursor reads what the stream has next. -/
theorem next_eq (c : Cursor) : next c =
    match readInt c.rest with
    | (some i, rest) => (.ok i, c.advanceTo rest)
    | (none, rest) => (.error (.violated (.truncatedRecipe c.offset)), c.advanceTo rest) := by
  simp only [next, get_bind, tryNext, set_bind]
  rcases readInt c.rest with ⟨_ | i, rest⟩ <;> rfl

theorem nextInts_of_some {n : Nat} {is : List Int} {rest : List UInt8}
    (h : readInts n c.rest = (some is, rest)) : nextInts n c = (.ok is, c.advanceTo rest) := by
  induction n generalizing c is with
  | zero =>
    cases h
    simp [nextInts, advanceTo]
  | succ n ih =>
    rw [readInts] at h
    rcases first : readInt c.rest with ⟨_ | i, mid⟩
    · simp only [first] at h
      cases h
    · simp only [first, Prod.mk.injEq, Option.map_eq_some_iff] at h
      obtain ⟨⟨js, hjs, rfl⟩, hrest⟩ := h
      have head : next c = (.ok i, c.advanceTo mid) := by rw [next_eq, first]
      have tail : nextInts n (c.advanceTo mid) = (.ok js, (c.advanceTo mid).advanceTo rest) :=
        ih (Prod.ext hjs hrest)
      have shorter : mid.length ≤ c.rest.length := by
        simpa only [first] using length_readInt_le c.rest
      have shorter' : rest.length ≤ mid.length := by
        simpa only [hrest] using length_readInts_le n mid
      rw [nextInts, bind_ok head, bind_ok tail, advanceTo_advanceTo c shorter shorter']
      rfl

theorem nextInts_of_none {n : Nat} (h : (readInts n c.rest).1 = none) :
    ∃ o d, c.offset ≤ o ∧ nextInts n c = (.error (.violated (.truncatedRecipe o)), d) := by
  induction n generalizing c with
  | zero => cases h
  | succ n ih =>
    rw [readInts] at h
    rcases first : readInt c.rest with ⟨_ | i, mid⟩
    · refine ⟨c.offset, c.advanceTo mid, Nat.le_refl _, ?_⟩
      rw [nextInts]
      exact bind_error (by rw [next_eq, first])
    · simp only [first, Option.map_eq_none_iff] at h
      obtain ⟨o, d, later, failed⟩ := ih (c := c.advanceTo mid) h
      refine ⟨o, d, Nat.le_trans (Nat.le_add_right ..) later, ?_⟩
      have head : next c = (.ok i, c.advanceTo mid) := by rw [next_eq, first]
      rw [nextInts, bind_ok head]
      exact bind_error failed

/-- The cursor takes the next integer for an opcode. -/
theorem nextOpcode_of_some {i : Int} {rest : List UInt8} (h : readInt c.rest = (some i, rest)) :
    nextOpcode c = match Opcode.ofInt? i with
      | some o => (.ok o, c.advanceTo rest)
      | none => (.error (.violated (.unknownOpcode i)), c.advanceTo rest) := by
  have head : next c = (.ok i, c.advanceTo rest) := by rw [next_eq, h]
  rw [nextOpcode, bind_ok head]
  cases Opcode.ofInt? i <;> rfl

/-- A command that can be read is the next command. -/
theorem nextCommand_of_ok {k : Command} {rest : List UInt8}
    (h : readCommand c.offset c.rest = .ok (k, rest)) :
    nextCommand c = (.ok k, c.advanceTo rest) := by
  obtain ⟨i, mid, o, is, hi, ho, his, hk⟩ := readCommand_eq_ok.1 h
  have opcode : nextOpcode c = (.ok o, c.advanceTo mid) := by rw [nextOpcode_of_some hi, ho]
  have operands : nextInts o.arity (c.advanceTo mid) =
      (.ok is, (c.advanceTo mid).advanceTo rest) := nextInts_of_some his
  have shorter : mid.length ≤ c.rest.length := by
    simpa only [hi] using length_readInt_le c.rest
  have shorter' : rest.length ≤ mid.length := by
    simpa only [his] using length_readInts_le o.arity mid
  rw [nextCommand, bind_ok opcode, operandsOf, bind_ok operands, hk,
    advanceTo_advanceTo c shorter shorter']
  rfl

/-- A malformed command is a violation. -/
theorem nextCommand_of_error {e : Malformed} (h : readCommand c.offset c.rest = .error e) :
    ∃ v d, e.Accuses v ∧ nextCommand c = (.error (.violated v), d) := by
  rw [readCommand] at h
  rcases hi : readInt c.rest with ⟨_ | i, mid⟩
  · simp only [hi] at h
    cases h
    have head : next c = (.error (.violated (.truncatedRecipe c.offset)), c.advanceTo mid) := by
      rw [next_eq, hi]
    exact ⟨_, _, .truncatedInteger c.offset, bind_error (bind_error head)⟩
  have opcode := nextOpcode_of_some hi
  simp only [hi] at h
  cases ho : Opcode.ofInt? i with
  | none =>
    simp only [ho] at h opcode
    cases h
    exact ⟨_, _, .unknownOpcode i c.offset, bind_error opcode⟩
  | some o =>
    simp only [ho] at h opcode
    rcases his : readInts o.arity mid with ⟨_ | is, rest⟩
    · simp only [his] at h
      cases h
      obtain ⟨p, d, later, failed⟩ := nextInts_of_none (c := c.advanceTo mid) (n := o.arity)
        (congrArg Prod.fst his)
      have behind : c.offset < p := by
        -- The opcode took at least one byte.
        have shorter : mid.length < c.rest.length := by
          simpa only [hi] using length_readInt_lt (congrArg Prod.fst hi)
        simp only [advanceTo] at later
        omega
      refine ⟨_, d, .missingOperands o behind, ?_⟩
      rw [nextCommand, bind_ok opcode]
      exact bind_error failed
    · simp only [his] at h
      have operands : nextInts o.arity (c.advanceTo mid) =
          (.ok is, (c.advanceTo mid).advanceTo rest) := nextInts_of_some his
      cases hk : Command.ofParts? o is with
      | some k =>
        simp only [hk] at h
        cases h
      | none =>
        simp only [hk] at h
        cases h
        refine ⟨_, (c.advanceTo mid).advanceTo rest, .invalidOperands o c.offset is, ?_⟩
        rw [nextCommand, bind_ok opcode, operandsOf, bind_ok operands, hk]
        rfl

/-- A command that was read takes at least one byte. -/
theorem length_nextCommand_lt {k : Command} (h : nextCommand c = (.ok k, d)) :
    d.rest.length < c.rest.length := by
  obtain ⟨is, -, spelled⟩ := nextCommand_ok h
  have := spelled.length_add_le
  rw [List.length_cons] at this
  omega

/-! ### All commands -/

/-- How a loop over commands ends: the commands that it has read, where it stands, which is before
the command that failed if one did, and the fault of that command. -/
structure Reading where
  commands : List Command
  stop : Cursor
  fault : Option Fault

/-- Reads commands as long as bytes are left. -/
def readAll (c : Cursor) : Reading :=
  if c.hasNext then
    match _h : nextCommand c with
    | (.ok k, d) =>
      let r := readAll d
      { r with commands := k :: r.commands }
    | (.error f, _) => { commands := [], stop := c, fault := some f }
  else { commands := [], stop := c, fault := none }
termination_by c.rest.length
decreasing_by exact length_nextCommand_lt _h

theorem readAll_of_not_hasNext (h : c.rest = []) : c.readAll = ⟨[], c, none⟩ := by
  rw [readAll, if_neg (by simp [hasNext, h])]

theorem readAll_of_error {f : Fault} (more : c.rest ≠ []) (h : nextCommand c = (.error f, d)) :
    c.readAll = ⟨[], c, some f⟩ := by
  rw [readAll, if_pos (by simpa [hasNext] using more)]
  split
  · rename_i he
    rw [he] at h
    cases h
  · rename_i he
    rw [he] at h
    cases h
    rfl

theorem readAll_of_ok {k : Command} (h : nextCommand c = (.ok k, d)) :
    c.readAll = { d.readAll with commands := k :: d.readAll.commands } := by
  have more : c.rest ≠ [] := by
    intro e
    have := length_nextCommand_lt h
    rw [e] at this
    exact absurd this (by simp)
  rw [readAll, if_pos (by simpa [hasNext] using more)]
  split
  · rename_i he
    rw [he] at h
    cases h
    rfl
  · rename_i he
    rw [he] at h
    cases h

/-- The loop follows `decodeFrom` command by command. -/
theorem readAll_decodeFrom (offset : Nat) (bs : List UInt8) :
    match decodeFrom offset bs with
    | .ok cs => readAll ⟨offset, bs⟩ = ⟨cs, ⟨offset + bs.length, []⟩, none⟩
    | .error e => ∃ p rest v, bs = p ++ rest ∧ e.offset = offset + p.length ∧ e.Accuses v ∧
        decodeFrom offset p = .ok (readAll ⟨offset, bs⟩).commands ∧
        (readAll ⟨offset, bs⟩).stop = ⟨e.offset, rest⟩ ∧
        (readAll ⟨offset, bs⟩).fault = some (.violated v) := by
  -- By induction along the decoder: nothing left, a command that fails, or one command and the
  -- rest.
  refine decodeFrom_induction (P := fun offset bs => match decodeFrom offset bs with
    | .ok cs => readAll ⟨offset, bs⟩ = ⟨cs, ⟨offset + bs.length, []⟩, none⟩
    | .error e => ∃ p rest v, bs = p ++ rest ∧ e.offset = offset + p.length ∧ e.Accuses v ∧
        decodeFrom offset p = .ok (readAll ⟨offset, bs⟩).commands ∧
        (readAll ⟨offset, bs⟩).stop = ⟨e.offset, rest⟩ ∧
        (readAll ⟨offset, bs⟩).fault = some (.violated v))
    (fun offset => ?_) (fun offset bs e more he => ?_) (fun offset p k rest hk ih => ?_) offset bs
  · rw [decodeFrom_nil]
    exact readAll_of_not_hasNext rfl
  · obtain ⟨v, d, accuses, failed⟩ := nextCommand_of_error (c := ⟨offset, bs⟩) he
    rw [decodeFrom_of_error more he, readAll_of_error more failed]
    have start := offset_of_readCommand he
    exact ⟨[], bs, v, rfl, start, accuses, decodeFrom_nil offset, by rw [start], rfl⟩
  · have read : nextCommand ⟨offset, p ++ rest⟩ = (.ok k, ⟨offset + p.length, rest⟩) := by
      rw [nextCommand_of_ok (c := ⟨offset, p ++ rest⟩) (hk rest)]
      simp [advanceTo]
    rw [decodeFrom_of_ok (hk rest), readAll_of_ok read]
    cases tail : decodeFrom (offset + p.length) rest with
    | ok cs =>
      rw [tail] at ih
      simp only [Except.map, ih, List.length_append, Nat.add_assoc]
    | error e =>
      rw [tail] at ih
      obtain ⟨q, rest', v, rfl, start, accuses, before, stop, fault⟩ := ih
      refine ⟨p ++ q, rest', v, by simp, by simp [start, Nat.add_assoc], accuses, ?_, stop, fault⟩
      rw [decodeFrom_of_ok (hk q), before]
      rfl

/-- There are at most as many commands as bytes. -/
theorem length_commands_readAll (c : Cursor) : c.readAll.commands.length ≤ c.rest.length := by
  induction hn : c.rest.length using Nat.strongRecOn generalizing c with
  | ind n ih =>
    by_cases more : c.rest = []
    · rw [readAll_of_not_hasNext more]
      exact Nat.zero_le n
    · rcases h : nextCommand c with ⟨f | k, d⟩
      · rw [readAll_of_error more h]
        exact Nat.zero_le n
      · have shorter := length_nextCommand_lt h
        have := ih _ (hn ▸ shorter) d rfl
        rw [readAll_of_ok h, List.length_cons]
        omega

/-- **A cursor reads the streams that decode, and fails on the others.** Reading commands as long as
bytes are left gives the commands that the bytes decode to, and ends behind the last byte, if and
only if they decode. If they do not, it ends in the violation that answers to the error, before the
command that the error names, and after the commands that the bytes in front of that decode to. The
loop runs at most once for each byte. -/
theorem readAll_decode (bytes : List UInt8) :
    let r := (start bytes 0).readAll
    (∀ cs, decode bytes = .ok cs ↔ r = ⟨cs, ⟨bytes.length, []⟩, none⟩) ∧
      (∀ e, decode bytes = .error e → decode (bytes.take e.offset) = .ok r.commands ∧
        r.stop = start bytes e.offset ∧ ∃ v, e.Accuses v ∧ r.fault = some (.violated v)) ∧
      r.commands.length ≤ bytes.length := by
  intro r
  have same : readAll ⟨0, bytes⟩ = r := rfl
  have spec := readAll_decodeFrom 0 bytes
  rw [← decode, same] at spec
  refine ⟨fun cs => ?_, fun e he => ?_, length_commands_readAll (start bytes 0)⟩
  · cases h : decode bytes with
    | ok ds =>
      rw [h] at spec
      rw [spec]
      simp
    | error e =>
      rw [h] at spec
      obtain ⟨p, rest, v, -, -, -, -, -, fault⟩ := spec
      refine ⟨fun e => (by cases e), fun e => ?_⟩
      rw [e] at fault
      cases fault
  · rw [he] at spec
    obtain ⟨p, rest, v, rfl, start, accuses, before, stop, fault⟩ := spec
    rw [Nat.zero_add] at start
    refine ⟨?_, ?_, v, accuses, fault⟩
    · rw [start, List.take_left]
      exact before
    · rw [stop, start, Cursor.start, List.drop_left]

end Cursor

end Speculation
