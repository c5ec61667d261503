import Speculation.Proofs.Recipe.RoundTrip

/-!
# Recipes that are cut off

A recipe may be cut between any two bytes: in front of a command, behind its opcode, between two
operands or within a number. A cut in front of a command leaves a shorter recipe, and **no other cut
does** (`truncation_detected`).

The reason is that readers look only at what they consume. If the first part of some bytes could be
read as operands, the whole would be read as the same operands with something left over, but writing
leaves nothing over (`readInts_cut`). The opcode itself is a single byte, so that a cut within a command
is always reported as missing operands, at the byte where the command starts.
-/

namespace Speculation

namespace Recipe

/-! ### Bytes that are cut off -/

section Cut

variable {p q : List UInt8}

/-- The first part of what was written for some integers does not read as so many integers. -/
theorem readInts_cut {is : List Int} (fits : ∀ i ∈ is, fitsInt32 i)
    (split : is.flatMap writeInt = p ++ q) (more : q ≠ []) : (readInts is.length p).1 = none := by
  rcases read : readInts is.length p with ⟨_ | js, rest⟩
  · rfl
  · exfalso
    obtain ⟨consumed, rfl, again⟩ := readInts_local read
    have whole := readInts_writeInts fits []
    rw [List.append_nil, split, List.append_assoc, again] at whole
    have nothing : rest ++ q = [] := congrArg Prod.snd whole
    exact more (List.append_eq_nil_iff.mp nothing).2

/-- An opcode takes one byte. -/
theorem writeInt_opcode (o : Opcode) : ∃ b, writeInt o.number = [b] := by
  cases o <;> exact ⟨_, by rw [writeInt, writeGroups, if_pos (by decide)]⟩

/-- A command of which a part is missing lacks operands. -/
theorem readCommand_cut {c : Command} (split : writeCommand c = p ++ q) (started : p ≠ [])
    (more : q ≠ []) (offset : Nat) :
    readCommand offset p = .error (.missingOperands c.opcode offset) := by
  obtain ⟨b, opcode⟩ := writeInt_opcode c.opcode
  obtain ⟨first, operands, rfl⟩ := List.exists_cons_of_ne_nil started
  rw [writeCommand, opcode, List.singleton_append, List.cons_append, List.cons.injEq] at split
  obtain ⟨rfl, split⟩ := split
  have read : readInt (b :: operands) = (some (c.opcode.number : Int), operands) := by
    rw [← List.singleton_append, ← opcode]
    exact readInt_writeInt (fitsInt32_number c.opcode) operands
  have missing := readInts_cut c.fitsInt32_of_mem_operands split more
  rw [Command.length_operands] at missing
  rcases rest : readInts c.opcode.arity operands with ⟨_ | js, left⟩
  · simp only [readCommand, read, Opcode.ofInt?_number, rest]
  · rw [rest] at missing
    cases missing

end Cut

/-! ### Commands in the stream -/

@[simp] theorem encode_append (cs ds : List Command) : encode (cs ++ ds) = encode cs ++ encode ds :=
  List.flatMap_append

@[simp] theorem encode_singleton (c : Command) : encode [c] = writeCommand c :=
  List.flatMap_singleton ..

/-- Each byte of a stream belongs to one of its commands. -/
theorem exists_command_at {cs : List Command} {k : Nat} (inside : k < (encode cs).length) :
    ∃ ds c es, cs = ds ++ c :: es ∧ (encode ds).length ≤ k ∧
      k < (encode ds).length + (writeCommand c).length := by
  induction cs generalizing k with
  | nil => simp [encode] at inside
  | cons c cs ih =>
    by_cases first : k < (writeCommand c).length
    · exact ⟨[], c, cs, rfl, by simp [encode], by simpa [encode] using first⟩
    · have length : (encode (c :: cs)).length = (writeCommand c).length + (encode cs).length := by
        simp [encode]
      obtain ⟨ds, d, es, rfl, lower, upper⟩ := ih (k := k - (writeCommand c).length) (by omega)
      have head : (encode (c :: ds)).length = (writeCommand c).length + (encode ds).length := by
        simp [encode]
      exact ⟨c :: ds, d, es, rfl, by omega, by omega⟩

/-- Only the empty stream holds no command. -/
theorem eq_nil_of_decode {bs : List UInt8} (h : decode bs = .ok []) : bs = [] := by
  by_cases more : bs = []
  · exact more
  rw [decode] at h
  rcases read : readCommand 0 bs with e | ⟨c, rest⟩
  · rw [decodeFrom_of_error more read] at h
    cases h
  · obtain ⟨p, rfl, again⟩ := readCommand_local read
    rw [decodeFrom_of_ok (again rest)] at h
    cases tail : decodeFrom (0 + p.length) rest <;> rw [tail] at h <;> cases h

/-- What is behind a stream that decodes on its own holds the other commands. -/
theorem exists_decode_of_append {bs rest : List UInt8} {ds cs : List Command}
    (first : decode bs = .ok ds) (whole : decode (bs ++ rest) = .ok cs) :
    ∃ es, decode rest = .ok es ∧ cs = ds ++ es := by
  rw [decode_append first] at whole
  cases tail : decode rest with
  | error e =>
    rw [tail] at whole
    cases whole
  | ok es =>
    rw [tail] at whole
    cases whole
    exact ⟨es, rfl, rfl⟩

/-! ### Cuts -/

/-- A cut that leaves a recipe is in front of a command. -/
theorem prefix_of_decode_take {cs ds : List Command} (writable : ∀ c ∈ cs, c.Writable) {k : Nat}
    (inside : k ≤ (encode cs).length) (h : decode ((encode cs).take k) = .ok ds) :
    ds <+: cs ∧ (encode ds).length = k := by
  have whole : decode ((encode cs).take k ++ (encode cs).drop k) = .ok cs := by
    rw [List.take_append_drop]
    exact decodeFrom_encode writable 0
  obtain ⟨es, -, rfl⟩ := exists_decode_of_append h whole
  refine ⟨List.prefix_append ds es, ?_⟩
  have alone : decode (encode ds) = .ok ds :=
    decodeFrom_encode (fun c hc => writable c (List.mem_append_left es hc)) 0
  have size : ((encode (ds ++ es)).take k).length = k := List.length_take_of_le inside
  -- Of two streams that read as the same commands and start alike, none is longer.
  have same {bs rest : List UInt8} (first : decode bs = .ok ds)
      (longer : decode (bs ++ rest) = .ok ds) : rest = [] := by
    obtain ⟨fs, tail, e⟩ := exists_decode_of_append first longer
    obtain rfl : fs = [] := by simpa using e
    exact eq_nil_of_decode tail
  have start : encode ds <+: encode (ds ++ es) := by simp
  rcases Nat.le_total k (encode ds).length with short | long
  · obtain ⟨rest, e⟩ := List.prefix_of_prefix_length_le (List.take_prefix k _) start (by omega)
    obtain rfl := same h (e ▸ alone)
    rw [← e, List.append_nil, size]
  · obtain ⟨rest, e⟩ := List.prefix_of_prefix_length_le start (List.take_prefix k _) (by omega)
    obtain rfl := same alone (e ▸ h)
    rw [← size, ← e, List.append_nil]

/-- A cut within a command is reported where the command starts. -/
theorem decode_take_within {ds es : List Command} {c : Command} {k : Nat}
    (writable : ∀ d ∈ ds, d.Writable) (lower : (encode ds).length < k)
    (upper : k < (encode ds).length + (writeCommand c).length) :
    decode ((encode (ds ++ c :: es)).take k) =
      .error (.missingOperands c.opcode (encode ds).length) := by
  -- The cut leaves every command before `c` whole.
  have parts : (encode (ds ++ c :: es)).take k =
      encode ds ++ (writeCommand c).take (k - (encode ds).length) := by
    have bytes : encode (ds ++ c :: es) = encode ds ++ (writeCommand c ++ encode es) := by
      rw [encode_append]
      rfl
    rw [bytes, List.take_append, List.take_of_length_le (by omega),
      List.take_append_of_le_length (by omega)]
  have cut : readCommand 0 ((writeCommand c).take (k - (encode ds).length)) =
      .error (.missingOperands c.opcode 0) := by
    refine readCommand_cut (List.take_append_drop _ _).symm ?_ ?_ 0
    · rw [← List.length_pos_iff, List.length_take]
      omega
    · rw [← List.length_pos_iff, List.length_drop]
      omega
  have nonempty : (writeCommand c).take (k - (encode ds).length) ≠ [] := by
    rw [← List.length_pos_iff, List.length_take]
    omega
  rw [parts, decode_append (decodeFrom_encode writable 0), decode, decodeFrom_of_error nonempty cut]
  rfl

/-- **Every truncation is detected.** What is left of a recipe after a cut decodes exactly if the cut
is in front of a command, and then to the commands before it. After any other cut the bytes are
malformed: the command in which the cut falls lacks operands, and the error names its opcode and the
byte where it starts. -/
theorem truncation_detected {cs : List Command} (writable : ∀ c ∈ cs, c.Writable) {k : Nat}
    (cut : k < (encode cs).length) :
    (∀ ds, decode ((encode cs).take k) = .ok ds ↔ ds <+: cs ∧ (encode ds).length = k) ∧
      ((∀ ds, ds <+: cs → (encode ds).length ≠ k) → ∃ ds c, ds ++ [c] <+: cs ∧
        (encode ds).length < k ∧ k < (encode (ds ++ [c])).length ∧
        decode ((encode cs).take k) = .error (.missingOperands c.opcode (encode ds).length)) := by
  refine ⟨fun ds => ⟨prefix_of_decode_take writable (Nat.le_of_lt cut), ?_⟩, fun within => ?_⟩
  · rintro ⟨⟨es, rfl⟩, rfl⟩
    rw [encode_append, List.take_left]
    exact decodeFrom_encode (fun c hc => writable c (List.mem_append_left es hc)) 0
  · obtain ⟨ds, c, es, rfl, lower, upper⟩ := exists_command_at cut
    have start : ds <+: ds ++ c :: es := List.prefix_append ds (c :: es)
    have lower : (encode ds).length < k := Nat.lt_of_le_of_ne lower (within ds start)
    refine ⟨ds, c, ⟨es, by simp⟩, lower, by simpa using upper, ?_⟩
    exact decode_take_within (fun d hd => writable d (List.mem_append_left _ hd)) lower upper

/-- A cut within the number of the second command, and one behind it. -/
theorem truncation_detected_literal :
    let cs : List Command := [.duplicate, .literal 5000, .jsFrame ⟨4294967295⟩ 0 2]
    (∀ c ∈ cs, c.Writable) ∧ encode cs = [68, 60, 33, 156, 4, 6, 0, 8] ∧
      (∃ opcode offset, decode [68, 60, 33] = .error (.missingOperands opcode offset)) ∧
      decode [68, 60, 33, 156] = .ok [.duplicate, .literal 5000] := by
  intro cs
  have writable : ∀ c ∈ cs, c.Writable := by decide
  have bytes : encode cs = [68, 60, 33, 156, 4, 6, 0, 8] := by decide +kernel
  have inside := truncation_detected writable (k := 3) (by decide +kernel)
  have behind := truncation_detected writable (k := 4) (by decide +kernel)
  rw [bytes] at inside behind
  refine ⟨writable, bytes, ?_, (behind.1 _).2 ⟨by decide, by decide +kernel⟩⟩
  have within : ∀ ds, ds <+: cs → (encode ds).length ≠ 3 := by
    have each : ∀ n ≤ cs.length, (encode (cs.take n)).length ≠ 3 := by decide +kernel
    intro ds start
    rw [List.prefix_iff_eq_take.mp start]
    exact each ds.length start.length_le
  obtain ⟨ds, c, -, -, -, missing⟩ := inside.2 within
  exact ⟨c.opcode, (encode ds).length, missing⟩

end Recipe

end Speculation
