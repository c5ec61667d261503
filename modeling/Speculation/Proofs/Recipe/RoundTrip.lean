import Speculation.Proofs.Recipe.Reading

/-!
# Decoding undoes encoding

What a reader of recipes makes of a byte stream is decided by the bytes that it consumes: it reads
the same from them **whatever follows**. This is `readGroups_local`, and each reader above it
inherits the property, up to `decode_append`: bytes that decode on their own decode to the same
commands in front of any other bytes. Errors name the byte at which a command starts, so what
stands in front moves them (`Malformed.shift`).

Writing, on the other side, is inverted by reading as long as an integer fits 32 bits, which is why
the counts of a command have to stay below `2 ^ 31` (`Command.Writable`). The node of a frame is
exempt: it is written as a signed word and read back as an unsigned one.

Together they give `decode_encode_append`.
-/

namespace Speculation

/-! ### Words as integers -/

@[simp] theorem unsignedWord_signedWord (w : UInt32) : unsignedWord (signedWord w) = w := by
  have bound := w.toNat_lt
  have residue : signedWord w % 2 ^ 32 = w.toNat := by
    unfold signedWord
    split <;> omega
  change UInt32.ofNat (signedWord w % 2 ^ 32).toNat = w
  rw [residue, Int.toNat_natCast, UInt32.ofNat_toNat]

theorem unsigned?_signedWord {w : UInt32} (h : w.toNat < 2 ^ 31) :
    unsigned? (signedWord w) = some w := by
  have value : signedWord w = w.toNat := if_pos h
  rw [value, unsigned?, if_pos (by omega), Int.toNat_natCast, UInt32.ofNat_toNat]

theorem fitsInt32_signedWord (w : UInt32) : Recipe.fitsInt32 (signedWord w) := by
  have bound := w.toNat_lt
  unfold signedWord
  split <;> exact decide_eq_true (by omega)

theorem fitsInt32_toInt (i : Int32) : Recipe.fitsInt32 i.toInt := by
  have lower := i.le_toInt
  have upper := i.toInt_lt
  exact decide_eq_true (by omega)

namespace Command

/-! ### Commands that can be written -/

/-- The operands of a command that count something or number a register or literal. -/
def counts : Command → List UInt32
  | begin a b => [a, b]
  | jsFrame _ l h | constructStubFrame l h | argumentsAdaptorFrame l h => [l, h]
  | getterStubFrame l | setterStubFrame l | literal l => [l]
  | register r | int32Register r | uint32Register r | doubleRegister r => [r]
  | argumentsObject _ _ n => [n]
  | compiledStubFrame | stackSlot _ | int32StackSlot _ | uint32StackSlot _ | doubleStackSlot _
  | duplicate => []

/-- A command whose counts are not negative as signed words. -/
def Writable (c : Command) : Prop := ∀ w ∈ c.counts, w.toNat < 2 ^ 31

instance (c : Command) : Decidable c.Writable :=
  List.decidableBAll (fun w : UInt32 => w.toNat < 2 ^ 31) c.counts

/-- Operands and opcode determine a command that can be written. -/
theorem ofParts?_operands {c : Command} (h : c.Writable) :
    ofParts? c.opcode c.operands = some c := by
  cases c <;> simp_all [Writable, counts, opcode, operands, ofParts?, unsigned?_signedWord]

theorem fitsInt32_of_mem_operands (c : Command) :
    ∀ i ∈ c.operands, Recipe.fitsInt32 i := by
  cases c <;> simp [operands, fitsInt32_signedWord, fitsInt32_toInt]
  case argumentsObject known _ _ => cases known <;> rfl

end Command

namespace Recipe

/-! ### Readers look at what they consume -/

/-- A number is read from the groups that make it up. -/
theorem readGroups_local {fuel : Nat} {bs rest : List UInt8} {n : Nat}
    (h : readGroups fuel bs = (some n, rest)) :
    ∃ p, bs = p ++ rest ∧ ∀ rest', readGroups fuel (p ++ rest') = (some n, rest') := by
  induction fuel generalizing bs n with
  | zero => cases h
  | succ fuel ih =>
    cases bs with
    | nil => cases h
    | cons b bs =>
      by_cases last : b.toNat % 2 = 0
      · simp only [readGroups, last, if_true, Prod.mk.injEq, Option.some.injEq] at h
        obtain ⟨rfl, rfl⟩ := h
        exact ⟨[b], rfl, fun rest' => by simp [readGroups, last]⟩
      · simp only [readGroups, last, if_false, Prod.mk.injEq, Option.map_eq_some_iff] at h
        obtain ⟨⟨high, hhigh, rfl⟩, hrest⟩ := h
        obtain ⟨p, rfl, again⟩ := ih (Prod.ext hhigh hrest)
        exact ⟨b :: p, rfl, fun rest' => by simp [readGroups, last, again]⟩

/-- Reading an integer depends on its own bytes only. -/
theorem readInt_local {bs rest : List UInt8} {i : Int} (h : readInt bs = (some i, rest)) :
    ∃ p, bs = p ++ rest ∧ ∀ rest', readInt (p ++ rest') = (some i, rest') := by
  simp only [readInt, Prod.mk.injEq, Option.filter_eq_some_iff, Option.map_eq_some_iff] at h
  obtain ⟨⟨⟨n, hn, rfl⟩, fits⟩, hrest⟩ := h
  obtain ⟨p, hp, again⟩ := readGroups_local (Prod.ext hn hrest)
  exact ⟨p, hp, fun rest' => by simp [readInt, again, fits]⟩

/-- So does reading several. -/
theorem readInts_local {n : Nat} {bs rest : List UInt8} {is : List Int}
    (h : readInts n bs = (some is, rest)) :
    ∃ p, bs = p ++ rest ∧ ∀ rest', readInts n (p ++ rest') = (some is, rest') := by
  induction n generalizing bs is with
  | zero =>
    cases h
    exact ⟨[], rfl, fun _ => rfl⟩
  | succ n ih =>
    rw [readInts] at h
    rcases first : readInt bs with ⟨_ | i, mid⟩
    · simp only [first] at h
      cases h
    · simp only [first, Prod.mk.injEq, Option.map_eq_some_iff] at h
      obtain ⟨⟨js, hjs, rfl⟩, hrest⟩ := h
      obtain ⟨p, rfl, head⟩ := readInt_local first
      obtain ⟨q, rfl, tail⟩ := ih (Prod.ext hjs hrest)
      refine ⟨p ++ q, by simp, fun rest' => ?_⟩
      rw [readInts, List.append_assoc, head]
      simp only [tail, Option.map_some]

/-- What a successful reader of commands has read. -/
theorem readCommand_eq_ok {offset : Nat} {bs rest : List UInt8} {c : Command} :
    readCommand offset bs = .ok (c, rest) ↔ ∃ i mid o is, readInt bs = (some i, mid) ∧
      Opcode.ofInt? i = some o ∧ readInts o.arity mid = (some is, rest) ∧
      Command.ofParts? o is = some c := by
  constructor
  · intro h
    rw [readCommand] at h
    split at h
    · cases h
    · rename_i i mid hi
      split at h
      · cases h
      · rename_i o ho
        split at h
        · cases h
        · rename_i is rest' his
          split at h
          · cases h
          · cases h
            exact ⟨i, mid, o, is, hi, ho, his, ‹_›⟩
  · rintro ⟨i, mid, o, is, hi, ho, his, hc⟩
    simp only [readCommand, hi, ho, his, hc]

/-- So does reading a command. -/
theorem readCommand_local {offset : Nat} {bs rest : List UInt8} {c : Command}
    (h : readCommand offset bs = .ok (c, rest)) :
    ∃ p, bs = p ++ rest ∧ ∀ rest', readCommand offset (p ++ rest') = .ok (c, rest') := by
  obtain ⟨i, mid, o, is, hi, ho, his, hc⟩ := readCommand_eq_ok.1 h
  obtain ⟨p, rfl, head⟩ := readInt_local hi
  obtain ⟨q, rfl, tail⟩ := readInts_local his
  refine ⟨p ++ q, by simp, fun rest' => readCommand_eq_ok.2 ?_⟩
  exact ⟨i, q ++ rest', o, is, by rw [List.append_assoc, head], ho, tail rest', hc⟩

/-! ### Where a malformed command starts -/

/-- The byte at which a malformed command starts. -/
def Malformed.offset : Malformed → Nat
  | truncatedInteger o | unknownOpcode _ o | missingOperands _ o | invalidOperands _ o _ => o

/-- An error in bytes that have `k` more bytes in front of them. -/
def Malformed.shift (k : Nat) : Malformed → Malformed
  | truncatedInteger o => truncatedInteger (k + o)
  | unknownOpcode v o => unknownOpcode v (k + o)
  | missingOperands c o => missingOperands c (k + o)
  | invalidOperands c o is => invalidOperands c (k + o) is

/-- Where a command stands matters to reports only. -/
theorem readCommand_shift (k offset : Nat) (bs : List UInt8) :
    readCommand (k + offset) bs = (readCommand offset bs).mapError (·.shift k) := by
  simp only [readCommand]
  repeat' split
  all_goals rfl

theorem decodeFrom_nil (offset : Nat) : decodeFrom offset [] = .ok [] := by
  rw [decodeFrom]
  rfl

theorem decodeFrom_of_error {offset : Nat} {bs : List UInt8} {e : Malformed} (more : bs ≠ [])
    (h : readCommand offset bs = .error e) : decodeFrom offset bs = .error e := by
  rw [decodeFrom, if_neg (by simpa using more)]
  split
  · rename_i e' he
    rw [he] at h
    exact congrArg Except.error (Except.error.inj h)
  · rename_i he
    rw [he] at h
    cases h

theorem decodeFrom_of_ok {offset : Nat} {p rest : List UInt8} {c : Command}
    (h : readCommand offset (p ++ rest) = .ok (c, rest)) :
    decodeFrom offset (p ++ rest) = (decodeFrom (offset + p.length) rest).map (c :: ·) := by
  have more : (p ++ rest).isEmpty = false := by
    have := length_readCommand_lt h
    rw [List.isEmpty_eq_false_iff]
    rintro e
    rw [e] at this
    exact absurd this (by simp)
  have length : (p ++ rest).length - rest.length = p.length := by simp
  rw [decodeFrom, if_neg (by simp [more])]
  split
  · rename_i he
    rw [he] at h
    cases h
  · rename_i he
    rw [he] at h
    cases h
    rw [length]
    cases decodeFrom (offset + p.length) rest <;> rfl

/-- A byte stream is empty, or its first command is malformed, or a command is followed by a
shorter stream. -/
theorem decodeFrom_induction {P : Nat → List UInt8 → Prop} (nil : ∀ offset, P offset [])
    (error : ∀ offset bs e, bs ≠ [] → readCommand offset bs = .error e → P offset bs)
    (command : ∀ offset p c rest, (∀ rest', readCommand offset (p ++ rest') = .ok (c, rest')) →
      P (offset + p.length) rest → P offset (p ++ rest)) (offset : Nat) (bs : List UInt8) :
    P offset bs := by
  induction hn : bs.length using Nat.strongRecOn generalizing offset bs with
  | ind n ih =>
    by_cases more : bs = []
    · rw [more]
      exact nil offset
    · cases h : readCommand offset bs with
      | error e => exact error offset bs e more h
      | ok r =>
        obtain ⟨c, rest⟩ := r
        have shorter := length_readCommand_lt h
        obtain ⟨p, rfl, again⟩ := readCommand_local h
        exact command offset p c rest again (ih _ (hn ▸ shorter) _ rest rfl)

/-- Where a recipe stands matters to reports only. -/
theorem decodeFrom_shift (k offset : Nat) (bs : List UInt8) :
    decodeFrom (k + offset) bs = (decodeFrom offset bs).mapError (·.shift k) := by
  refine decodeFrom_induction
    (P := fun offset bs => decodeFrom (k + offset) bs = (decodeFrom offset bs).mapError (·.shift k))
    (fun offset => ?_) (fun offset bs e more h => ?_) (fun offset p c rest h ih => ?_) offset bs
  · rw [decodeFrom_nil, decodeFrom_nil]
    rfl
  · rw [decodeFrom_of_error more h,
      decodeFrom_of_error more (e := e.shift k) (by rw [readCommand_shift, h]; rfl)]
    rfl
  · rw [decodeFrom_of_ok (h rest), decodeFrom_of_ok (by rw [readCommand_shift, h]; rfl),
      Nat.add_assoc, ih]
    cases decodeFrom (offset + p.length) rest <;> rfl

/-- Bytes that decode on their own decode to the same commands in front of other bytes. -/
theorem decodeFrom_append {offset : Nat} {bs : List UInt8} {cs : List Command}
    (h : decodeFrom offset bs = .ok cs) (rest : List UInt8) :
    decodeFrom offset (bs ++ rest) = (decodeFrom (offset + bs.length) rest).map (cs ++ ·) := by
  -- By induction along the decoder. A command is read alike whatever follows it.
  revert cs
  refine decodeFrom_induction
    (P := fun offset bs => ∀ {cs}, decodeFrom offset bs = .ok cs → decodeFrom offset (bs ++ rest) =
      (decodeFrom (offset + bs.length) rest).map (cs ++ ·))
    (fun offset cs h => ?_) (fun offset bs e more he cs h => ?_)
    (fun offset p c tail hp ih cs h => ?_) offset bs
  · rw [decodeFrom_nil] at h
    cases h
    cases e : decodeFrom offset rest <;> simp [e, Except.map]
  · rw [decodeFrom_of_error more he] at h
    cases h
  · rw [decodeFrom_of_ok (hp tail)] at h
    cases ht : decodeFrom (offset + p.length) tail with
    | error e =>
      rw [ht] at h
      cases h
    | ok ds =>
      rw [ht] at h
      cases h
      rw [List.append_assoc, decodeFrom_of_ok (hp (tail ++ rest)), ih ht, List.length_append,
        ← Nat.add_assoc]
      cases decodeFrom (offset + p.length + tail.length) rest <;> rfl

/-- A recipe is decoded up to its end, and then what follows it. -/
theorem decode_append {bs : List UInt8} {cs : List Command} (h : decode bs = .ok cs)
    (rest : List UInt8) : decode (bs ++ rest) =
      ((decode rest).mapError (·.shift bs.length)).map (cs ++ ·) := by
  rw [decode, decodeFrom_append h, Nat.zero_add, decode, ← decodeFrom_shift, Nat.add_zero]

/-! ### What is written is read -/

/-- The sign comes back. -/
theorem unzigzag_zigzag (i : Int) : unzigzag (zigzag i) = i := by
  unfold unzigzag zigzag
  split <;> split <;> omega

/-- A signed word needs five groups at most. -/
theorem zigzag_lt {i : Int} (h : fitsInt32 i) : zigzag i < 128 ^ maxGroups := by
  simp only [fitsInt32, decide_eq_true_eq] at h
  have bound : 128 ^ maxGroups = 34359738368 := by decide
  unfold zigzag
  split <;> omega

theorem toNat_ofNat_byte {n : Nat} (h : n < 256) : (UInt8.ofNat n).toNat = n := by
  rw [UInt8.toNat_ofNat', Nat.mod_eq_of_lt h]

/-- Seven bits a group. -/
theorem readGroups_writeGroups {fuel n : Nat} (h : n < 128 ^ (fuel + 1)) (rest : List UInt8) :
    readGroups (fuel + 1) (writeGroups n ++ rest) = (some n, rest) := by
  induction fuel generalizing n with
  | zero =>
    have small : n < 128 := by simpa using h
    rw [writeGroups, if_pos small, List.singleton_append, readGroups,
      toNat_ofNat_byte (by omega), if_pos (by omega), Nat.mul_div_cancel_left n (by omega)]
  | succ fuel ih =>
    rw [writeGroups]
    split
    · rw [List.singleton_append, readGroups, toNat_ofNat_byte (by omega), if_pos (by omega),
        Nat.mul_div_cancel_left n (by omega)]
    · have high : n / 128 < 128 ^ (fuel + 1) := by
        rw [Nat.div_lt_iff_lt_mul (by omega), ← Nat.pow_succ]
        exact h
      have value : (2 * (n % 128) + 1) / 2 + 128 * (n / 128) = n := by omega
      rw [List.cons_append, readGroups, toNat_ofNat_byte (by omega), if_neg (by omega), ih high]
      simp only [Option.map_some, value]

/-- An integer that was written is read back, whatever follows. -/
theorem readInt_writeInt {i : Int} (h : fitsInt32 i) (rest : List UInt8) :
    readInt (writeInt i ++ rest) = (some i, rest) := by
  rw [readInt, writeInt, show maxGroups = 4 + 1 from rfl,
    readGroups_writeGroups (zigzag_lt h) rest]
  simp only [Option.map_some, unzigzag_zigzag, Option.filter_some, h, if_true]

theorem readInts_writeInts {is : List Int} (h : ∀ i ∈ is, fitsInt32 i) (rest : List UInt8) :
    readInts is.length (is.flatMap writeInt ++ rest) = (some is, rest) := by
  induction is with
  | nil => rfl
  | cons i is ih =>
    rw [List.forall_mem_cons] at h
    rw [List.length_cons, readInts, List.flatMap_cons, List.append_assoc, readInt_writeInt h.1]
    simp only [ih h.2, Option.map_some]

theorem fitsInt32_number (o : Opcode) : fitsInt32 o.number := by
  cases o <;> rfl

/-- A command that was written is read back, whatever follows. -/
theorem readCommand_writeCommand {c : Command} (h : c.Writable) (offset : Nat)
    (rest : List UInt8) : readCommand offset (writeCommand c ++ rest) = .ok (c, rest) := by
  refine readCommand_eq_ok.2
    ⟨c.opcode.number, c.operands.flatMap writeInt ++ rest, c.opcode, c.operands, ?_, ?_, ?_, ?_⟩
  · rw [writeCommand, List.append_assoc, readInt_writeInt (fitsInt32_number c.opcode)]
  · exact Opcode.ofInt?_number c.opcode
  · rw [← Command.length_operands]
    exact readInts_writeInts c.fitsInt32_of_mem_operands rest
  · exact Command.ofParts?_operands h

/-- A recipe that was written is decoded to its commands. -/
theorem decodeFrom_encode {cs : List Command} (h : ∀ c ∈ cs, c.Writable) (offset : Nat) :
    decodeFrom offset (encode cs) = .ok cs := by
  induction cs generalizing offset with
  | nil => exact decodeFrom_nil offset
  | cons c cs ih =>
    rw [List.forall_mem_cons] at h
    rw [encode, List.flatMap_cons,
      decodeFrom_of_ok (readCommand_writeCommand h.1 offset (cs.flatMap writeCommand))]
    change (decodeFrom _ (encode cs)).map (c :: ·) = .ok (c :: cs)
    rw [ih h.2]
    rfl

/-- **Decoding undoes encoding, whatever follows.** Commands that can be written are read back from
their bytes, and what stands behind them is read as if it stood alone. -/
theorem decode_encode_append {cs : List Command} (writable : ∀ c ∈ cs, c.Writable)
    (rest : List UInt8) : decode (encode cs) = .ok cs ∧
      ∀ all, decode (encode cs ++ rest) = .ok all ↔
        ∃ ds, decode rest = .ok ds ∧ all = cs ++ ds := by
  have alone : decode (encode cs) = .ok cs := decodeFrom_encode writable 0
  refine ⟨alone, fun all => ?_⟩
  rw [decode_append alone]
  cases decode rest with
  | error e =>
    change Except.error (e.shift _) = _ ↔ _
    simp
  | ok ds =>
    change Except.ok (cs ++ ds) = _ ↔ _
    simp only [Except.ok.injEq, exists_eq_left']
    exact eq_comm

/-- The extremes of every kind of operand, and a suffix that is no list of commands. -/
theorem decode_encode_append_extreme :
    let cs : List Command := [.jsFrame ⟨4294967295⟩ 2147483647 0, .stackSlot (-2147483648),
      .argumentsObject true 2147483647 2147483647]
    (∀ c ∈ cs, c.Writable) ∧ decode (encode cs) = .ok cs ∧
      ∀ all, decode (encode cs ++ [255]) ≠ .ok all := by
  intro cs
  have writable : ∀ c ∈ cs, c.Writable := by decide
  have suffix : ∀ ds, decode [255] ≠ .ok ds := by
    have error : readCommand 0 [255] = .error (.truncatedInteger 0) := rfl
    intro ds
    rw [decode, decodeFrom_of_error (by simp) error]
    simp
  obtain ⟨alone, behind⟩ := decode_encode_append writable [255]
  refine ⟨writable, alone, fun all h => ?_⟩
  obtain ⟨ds, hds, -⟩ := (behind all).1 h
  exact suffix ds hds

end Recipe

end Speculation
