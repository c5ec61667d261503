import Speculation.Proofs.Recipe.RoundTrip

/-!
# One form for every recipe

Reading is more generous than writing: a number may be padded with empty groups, zero may carry a
sign, and any integer but zero sets the flag of an arguments object. Whatever was read can be written,
since what is read fits the words of a command (`Command.writable_of_ofParts?`), and writing it takes
no more bytes than reading it did. Three comparisons carry this:

* a number that was read from `k` bytes is below `128 ^ k`, so its groups fit `k` bytes;
* an integer is written from a number that is no greater than the one it was read from;
* the operands of a command are the integers it was read from, but for the flag, which is written as
  one byte.

So `encode` after `decode` sends each stream to one that reads the same, is no longer, and is sent to
itself (`reencode_canonical`).
-/

namespace Speculation

/-! ### Integers as words -/

/-- A signed word comes back from an unsigned one. -/
theorem signedWord_unsignedWord {i : Int} (h : Recipe.fitsInt32 i) :
    signedWord (unsignedWord i) = i := by
  have range := of_decide_eq_true h
  have residue : (unsignedWord i).toNat = (i % 2 ^ 32).toNat := by
    have below : (i % 2 ^ 32).toNat < 2 ^ 32 := by omega
    exact UInt32.toNat_ofNat_of_lt' below
  unfold signedWord
  rw [residue]
  split <;> omega

theorem toNat_of_unsigned? {i : Int} {w : UInt32} (h : unsigned? i = some w) : (w.toNat : Int) = i := by
  unfold unsigned? at h
  split at h
  · rename_i range
    have below : i.toNat < 2 ^ 32 := by omega
    have value : w.toNat = i.toNat := by
      rw [← Option.some.inj h]
      exact UInt32.toNat_ofNat_of_lt' below
    omega
  · cases h

/-- A count that was read from a signed word is small enough to be written as one. -/
theorem toNat_lt_of_unsigned? {i : Int} {w : UInt32} (h : unsigned? i = some w)
    (fits : Recipe.fitsInt32 i) : w.toNat < 2 ^ 31 := by
  have range := of_decide_eq_true fits
  have value := toNat_of_unsigned? h
  omega

theorem signedWord_of_unsigned? {i : Int} {w : UInt32} (h : unsigned? i = some w)
    (fits : Recipe.fitsInt32 i) : signedWord w = i := by
  rw [signedWord, if_pos (toNat_lt_of_unsigned? h fits), toNat_of_unsigned? h]

theorem toInt_ofInt_of_fits {i : Int} (h : Recipe.fitsInt32 i) : (Int32.ofInt i).toInt = i := by
  have range := of_decide_eq_true h
  exact Int32.toInt_ofInt_of_le (by omega) (by omega)

namespace Command

variable {o : Opcode} {is : List Int} {c : Command}

/-- Counts that were read from signed words can be written as signed words. -/
theorem writable_of_ofParts? (parts : ofParts? o is = some c)
    (fits : is.all Recipe.fitsInt32) : c.Writable := by
  unfold ofParts? at parts
  split at parts
  all_goals simp only [Option.bind_eq_bind, Option.bind_eq_some_iff, Option.pure_def,
    Option.some.injEq, reduceCtorEq] at parts
  all_goals grind -ring -linarith [Writable, counts, toNat_lt_of_unsigned?]

/-- The operands that are written for operands that were read: the flag of an arguments object is
written as zero or one. -/
def writtenOperands : Opcode → List Int → List Int
  | .argumentsObject, k :: is => (if k = 0 then 0 else 1) :: is
  | _, is => is

/-- A command that was decoded has the operands that are written for it. -/
theorem operands_of_ofParts? (parts : ofParts? o is = some c)
    (fits : is.all Recipe.fitsInt32) : c.operands = writtenOperands o is := by
  unfold ofParts? at parts
  split at parts
  all_goals simp only [Option.bind_eq_bind, Option.bind_eq_some_iff, Option.pure_def,
    Option.some.injEq, reduceCtorEq] at parts
  all_goals
    grind -ring -linarith [operands, writtenOperands, signedWord_of_unsigned?, signedWord_unsignedWord,
      toInt_ofInt_of_fits]

end Command

namespace Recipe

/-! ### Numbers -/

/-- A number below `128 ^ k` is written in `k` bytes. -/
theorem length_writeGroups_le {k n : Nat} (h : n < 128 ^ (k + 1)) :
    (writeGroups n).length ≤ k + 1 := by
  induction k generalizing n with
  | zero =>
    rw [writeGroups, if_pos (by simpa using h)]
    simp
  | succ k ih =>
    rw [writeGroups]
    split
    · simp
    · have high : n / 128 < 128 ^ (k + 1) := by
        rw [Nat.div_lt_iff_lt_mul (by omega), ← Nat.pow_succ]
        exact h
      have := ih high
      simp only [List.length_cons]
      omega

theorem length_writeGroups_pos (n : Nat) : 0 < (writeGroups n).length := by
  rw [writeGroups]
  split <;> simp

/-- Each byte adds seven bits to the number that is read. -/
theorem readGroups_lt {fuel n : Nat} {bs rest : List UInt8}
    (h : readGroups fuel bs = (some n, rest)) :
    ∃ k, bs.length = rest.length + (k + 1) ∧ n < 128 ^ (k + 1) := by
  induction fuel generalizing bs n with
  | zero => cases h
  | succ fuel ih =>
    cases bs with
    | nil => cases h
    | cons b bs =>
      have byte : b.toNat / 2 < 128 := by
        have := b.toNat_lt
        omega
      by_cases last : b.toNat % 2 = 0
      · simp only [readGroups, last, if_true, Prod.mk.injEq, Option.some.injEq] at h
        obtain ⟨rfl, rfl⟩ := h
        exact ⟨0, rfl, by simpa using byte⟩
      · simp only [readGroups, last, if_false, Prod.mk.injEq, Option.map_eq_some_iff] at h
        obtain ⟨⟨high, hhigh, rfl⟩, hrest⟩ := h
        obtain ⟨k, length, below⟩ := ih (Prod.ext hhigh hrest)
        refine ⟨k + 1, by simp [length]; omega, ?_⟩
        rw [Nat.pow_succ]
        omega

/-! ### Integers -/

/-- A sign on zero is dropped, and everything else is kept. -/
theorem zigzag_unzigzag_le (n : Nat) : zigzag (unzigzag n) ≤ n := by
  unfold zigzag unzigzag
  split <;> split <;> omega

section Integers

variable {bs rest : List UInt8} {i : Int} {n : Nat} {is : List Int}

theorem fits_of_readInt (h : readInt bs = (some i, rest)) : fitsInt32 i := by
  have read := congrArg Prod.fst h
  simp only [readInt, Option.filter_eq_some_iff] at read
  exact read.2

/-- Writing an integer takes no more bytes than reading it did. -/
theorem length_writeInt_le (h : readInt bs = (some i, rest)) :
    (writeInt i).length + rest.length ≤ bs.length := by
  simp only [readInt, Prod.mk.injEq, Option.filter_eq_some_iff, Option.map_eq_some_iff] at h
  obtain ⟨⟨⟨n, hn, rfl⟩, -⟩, hrest⟩ := h
  obtain ⟨k, length, below⟩ := readGroups_lt (Prod.ext hn hrest)
  have short := length_writeGroups_le (Nat.lt_of_le_of_lt (zigzag_unzigzag_le n) below)
  unfold writeInt
  omega

/-- Integers that were read are not longer when they are written again. -/
theorem length_writeInts_le (h : readInts n bs = (some is, rest)) :
    is.all fitsInt32 ∧ (is.flatMap writeInt).length + rest.length ≤ bs.length := by
  induction n generalizing bs is with
  | zero =>
    cases h
    exact ⟨rfl, by simp⟩
  | succ n ih =>
    rw [readInts] at h
    rcases first : readInt bs with ⟨_ | i, mid⟩
    · simp only [first] at h
      cases h
    · simp only [first, Prod.mk.injEq, Option.map_eq_some_iff] at h
      obtain ⟨⟨js, hjs, rfl⟩, hrest⟩ := h
      have head := length_writeInt_le first
      obtain ⟨fits, tail⟩ := ih (Prod.ext hjs hrest)
      refine ⟨by simp [fits, fits_of_readInt first], ?_⟩
      rw [List.flatMap_cons, List.length_append]
      omega

/-- The flag of an arguments object is written as one byte. -/
theorem length_writtenOperands_le (o : Opcode) (is : List Int) :
    ((Command.writtenOperands o is).flatMap writeInt).length ≤ (is.flatMap writeInt).length := by
  have flag (k : Int) : (writeInt (if k = 0 then 0 else 1)).length ≤ (writeInt k).length := by
    have one : (writeInt (if k = 0 then 0 else 1)).length = 1 := by
      split <;> simp [writeInt, zigzag, writeGroups]
    have := length_writeGroups_pos (zigzag k)
    rw [one]
    exact this
  unfold Command.writtenOperands
  split
  · rename_i k js
    have := flag k
    rw [List.flatMap_cons, List.flatMap_cons, List.length_append, List.length_append]
    omega
  · exact Nat.le_refl _

end Integers

/-! ### Commands -/

/-- A command that was read can be written, in no more bytes. -/
theorem length_writeCommand_le {offset : Nat} {bs rest : List UInt8} {c : Command}
    (h : readCommand offset bs = .ok (c, rest)) :
    c.Writable ∧ (writeCommand c).length + rest.length ≤ bs.length := by
  obtain ⟨i, mid, o, is, hi, ho, his, hc⟩ := readCommand_eq_ok.1 h
  obtain ⟨fits, operands⟩ := length_writeInts_le his
  refine ⟨Command.writable_of_ofParts? hc fits, ?_⟩
  have opcode := length_writeInt_le hi
  have written := length_writtenOperands_le o is
  rw [writeCommand, Command.opcode_of_ofParts? hc, Command.operands_of_ofParts? hc fits,
    ← Opcode.eq_number_of_ofInt? ho, List.length_append]
  omega

/-- Commands that were read can be written, in no more bytes. -/
theorem length_encode_le {offset : Nat} {bs : List UInt8} {cs : List Command}
    (h : decodeFrom offset bs = .ok cs) :
    (∀ c ∈ cs, c.Writable) ∧ (encode cs).length ≤ bs.length := by
  -- By induction along the decoder: each command is written in no more bytes than it was read
  -- from.
  revert cs
  refine decodeFrom_induction
    (P := fun offset bs => ∀ {cs}, decodeFrom offset bs = .ok cs →
      (∀ c ∈ cs, c.Writable) ∧ (encode cs).length ≤ bs.length)
    (fun offset cs h => ?_) (fun offset bs e more he cs h => ?_)
    (fun offset p c rest hp ih cs h => ?_) offset bs
  · rw [decodeFrom_nil] at h
    cases h
    exact ⟨by simp, by simp [encode]⟩
  · rw [decodeFrom_of_error more he] at h
    cases h
  · rw [decodeFrom_of_ok (hp rest)] at h
    cases tail : decodeFrom (offset + p.length) rest with
    | error e =>
      rw [tail] at h
      cases h
    | ok ds =>
      rw [tail] at h
      cases h
      obtain ⟨writable, shorter⟩ := ih tail
      obtain ⟨head, short⟩ := length_writeCommand_le (hp rest)
      refine ⟨List.forall_mem_cons.2 ⟨head, writable⟩, ?_⟩
      have parts : encode (c :: ds) = writeCommand c ++ encode ds := rfl
      rw [parts, List.length_append]
      omega

/-- **Encoding what was decoded gives the one form of a recipe.** It reads as the same commands and is
no longer than what was decoded, however that was written, and it is its own form. -/
theorem reencode_canonical {bs : List UInt8} {cs : List Command} (h : decode bs = .ok cs) :
    decode (encode cs) = .ok cs ∧ (encode cs).length ≤ bs.length ∧
      (decode (encode cs)).map encode = .ok (encode cs) := by
  obtain ⟨writable, short⟩ := length_encode_le h
  have same : decode (encode cs) = .ok cs := decodeFrom_encode writable 0
  refine ⟨same, short, ?_⟩
  rw [same]
  rfl

/-- An opcode with a padding group, a flag of five and a zero with a sign: five bytes become four. -/
theorem reencode_canonical_padded :
    let bs : List UInt8 := [65, 0, 20, 2, 8]
    let cs : List Command := [.argumentsObject true 0 2]
    decode bs = .ok cs ∧ encode cs = [64, 4, 0, 8] ∧ decode (encode cs) = .ok cs ∧
      (encode cs).length < bs.length ∧ (decode (encode cs)).map encode = .ok (encode cs) := by
  intro bs cs
  have first : readCommand 0 (bs ++ []) = .ok (.argumentsObject true 0 2, []) := rfl
  have read : decode bs = .ok cs := by
    have whole := decodeFrom_of_ok first
    rwa [List.append_nil, decodeFrom_nil] at whole
  obtain ⟨same, -, again⟩ := reencode_canonical read
  exact ⟨read, by decide +kernel, same, by decide +kernel, again⟩

end Recipe

end Speculation
