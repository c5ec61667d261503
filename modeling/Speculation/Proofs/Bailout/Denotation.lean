import Speculation.Bailout.Assembly
import Speculation.Proofs.Recipe.Reading

/-!
# What value commands stand for

`Denotes` says without reference to the walk which value a command stands for in a bailout: the
tagged value, integer or double at a place of the optimized frame, a literal, or arguments. Every
command that the walk recovers a value for denotes it (`Command.denotes_of_recover`).

In a record of a recipe, a position may be marked as a duplicate. Then it stands for the value of the
nearest position before it that is not marked (`Denoted`). The walk finds this value by keeping the
one before (`Reads`), which comes to the same (`Reads.denoted`).
-/

namespace Speculation

/-- The word that a slot index addresses. -/
def Frame.wordAt? (f : Frame) (index : Int) : Option Word :=
  let o := rawOffset f.size f.area index
  if 0 ≤ o then f.words[o.toNat]? else none

/-- The value of an integer: a small one if it fits into 31 bits, otherwise a number. -/
def Recovered.IsInteger (i : Int) (v : Recovered) : Prop :=
  if -2 ^ 30 ≤ i ∧ i < 2 ^ 30 then v = .tagged (.smi i) else v = .number (Double.ofInt i)

/-- What a value command stands for. -/
inductive Denotes (s : Scene) : Command → Recovered → Prop
  | register {r : UInt32} {v : Value} (at' : s.input.registers.words[r.toNat]? = some (.tagged v)) :
    Denotes s (.register r) (.tagged v)
  | int32Register {r : UInt32} {i : Int} {v : Recovered}
    (at' : s.input.registers.words[r.toNat]? = some (.int i))
    (integer : v.IsInteger (i.bmod (2 ^ 32))) : Denotes s (.int32Register r) v
  | uint32Register {r : UInt32} {i : Int} {v : Recovered}
    (at' : s.input.registers.words[r.toNat]? = some (.int i))
    (integer : v.IsInteger (i % 2 ^ 32)) : Denotes s (.uint32Register r) v
  | doubleRegister {r : UInt32} {d : Double} (at' : s.input.registers.doubles[r.toNat]? = some d) :
    Denotes s (.doubleRegister r) (.number d)
  | stackSlot {k : Int32} {v : Value} (at' : s.input.wordAt? k.toInt = some (.tagged v)) :
    Denotes s (.stackSlot k) (.tagged v)
  | int32StackSlot {k : Int32} {i : Int} {v : Recovered}
    (at' : s.input.wordAt? k.toInt = some (.int i)) (integer : v.IsInteger (i.bmod (2 ^ 32))) :
    Denotes s (.int32StackSlot k) v
  | uint32StackSlot {k : Int32} {i : Int} {v : Recovered}
    (at' : s.input.wordAt? k.toInt = some (.int i)) (integer : v.IsInteger (i % 2 ^ 32)) :
    Denotes s (.uint32StackSlot k) v
  | doubleStackSlot {k : Int32} {d : Double} (at' : s.input.wordAt? k.toInt = some (.double d)) :
    Denotes s (.doubleStackSlot k) (.number d)
  | literal {i : UInt32} {v : Value} (at' : s.data.literals[i.toNat]? = some v) :
    Denotes s (.literal i) (.tagged v)
  /-- Index and length count the receiver, which is no argument. -/
  | arguments {k : Int32} {n : UInt32} {vs : List Value} (length : vs.length = n.toNat - 1)
    (at' : ∀ (j : Nat) v, vs[j]? = some v →
      s.input.wordAt? ((k.toInt + 1 + j).bmod (2 ^ 32)) = some (.tagged v)) :
    Denotes s (.argumentsObject true k n) (.arguments vs)
  | unknownArguments {k : Int32} {n : UInt32} : Denotes s (.argumentsObject false k n)
    (.arguments (List.replicate (n.toNat - 1) .hole))

/-! ### Integers -/

/-- Reading a word as signed is the balanced remainder. -/
theorem wrapInt32_eq_bmod (i : Int) : wrapInt32 i = i.bmod (2 ^ 32) := by
  have same : i.emod (2 ^ 32) = i % 2 ^ 32 := rfl
  have half : (((2 ^ 32 : Nat) : Int) + 1) / 2 = 2 ^ 31 := by decide
  simp only [wrapInt32, Int.bmod, same, half]
  rfl

/-- Reading a word as unsigned is the remainder. -/
theorem wrapUint32_eq_emod (i : Int) : (wrapUint32 i : Int) = i % 2 ^ 32 :=
  Int.toNat_of_nonneg (Int.emod_nonneg i (by decide))

/-- An integer is recovered as itself, in a small integer or in a number that waits. -/
theorem Recovered.isInteger_ofInt (i : Int) : (Recovered.ofInt i).IsInteger i := by
  unfold IsInteger ofInt Value.smi? Value.fitsSmi Value.smiMin Value.smiMax
  split
  · rename_i small
    rw [if_pos (by simp only [decide_eq_true_eq]; omega)]
  · rename_i large
    rw [if_neg (by simp only [decide_eq_true_eq]; omega)]

theorem Recovered.isInteger_int32 (i : Int) :
    (Recovered.ofInt (wrapInt32 i)).IsInteger (i.bmod (2 ^ 32)) := by
  rw [wrapInt32_eq_bmod]
  exact isInteger_ofInt _

theorem Recovered.isInteger_uint32 (i : Int) :
    (Recovered.ofInt (wrapUint32 i)).IsInteger (i % 2 ^ 32) := by
  rw [wrapUint32_eq_emod]
  exact isInteger_ofInt _

/-! ### Places of the optimized frame -/

section Places

variable {input : Frame} {c : Command} {w : Word}

theorem RegisterFile.word_ok {r : RegisterFile} {i : Nat} (h : r.word i = .ok w) :
    r.words[i]? = some w := by
  unfold word at h
  split at h
  · cases h
    assumption
  · cases h

theorem RegisterFile.double_ok {r : RegisterFile} {i : Nat} {d : Double} (h : r.double i = .ok d) :
    r.doubles[i]? = some d := by
  unfold double at h
  split at h
  · cases h
    assumption
  · cases h

theorem Frame.slot_ok {o : Nat} (h : input.slot o = .ok w) : input.words[o]? = some w := by
  unfold slot at h
  split at h
  · cases h
    assumption
  · cases h

theorem BailoutData.literal_ok {d : BailoutData} {i : Nat} {v : Value} (h : d.literal i = .ok v) :
    d.literals[i]? = some v := by
  unfold literal at h
  split at h
  · cases h
    assumption
  · cases h

theorem Command.slotWord_ok {i : Int} (h : slotWord input i = .ok w) : input.wordAt? i = some w := by
  obtain ⟨o, ho, hw⟩ := Computation.except_bind_eq_ok h
  simp only [Frame.offsetOfIndex] at ho
  split at ho
  · rename_i inside
    cases ho
    simp only [Frame.wordAt?, inside.1, if_true]
    exact Frame.slot_ok hw
  · cases ho

/-- Only tagged words are read as values. -/
theorem Command.tagged_ok {v : Value} (h : c.tagged w = .ok v) : w = .tagged v := by
  cases w <;> cases h
  rfl

/-- Only raw integers are read as integers. -/
theorem Command.integer_ok {i : Int} (h : c.integer w = .ok i) : w = .int i := by
  cases w <;> cases h
  rfl

/-- Only raw doubles are read as doubles. -/
theorem Command.double_ok {d : Double} (h : c.double w = .ok d) : w = .double d := by
  cases w <;> cases h
  rfl

/-- Consecutive slot indices, which wrap around at 32 bits. -/
theorem Command.taggedSlots_ok {n : Nat} {k : Int} {vs : List Value}
    (h : c.taggedSlots input n (wrapInt32 k) = .ok vs) : vs.length = n ∧
      ∀ (j : Nat) v, vs[j]? = some v →
        input.wordAt? ((k + j).bmod (2 ^ 32)) = some (.tagged v) := by
  induction n generalizing k vs with
  | zero =>
    cases h
    exact ⟨rfl, by simp⟩
  | succ n ih =>
    obtain ⟨w, hw, h⟩ := Computation.except_bind_eq_ok h
    obtain ⟨v, hv, h⟩ := Computation.except_bind_eq_ok h
    obtain ⟨vs', rest, h⟩ := Computation.except_bind_eq_ok h
    cases h
    have next : wrapInt32 (wrapInt32 k + 1) = wrapInt32 (k + 1) := by
      simp only [wrapInt32_eq_bmod]
      exact Int.bmod_add_bmod
    rw [next] at rest
    obtain ⟨length, at'⟩ := ih rest
    refine ⟨by simp [length], fun j u hu => ?_⟩
    cases j with
    | zero =>
      cases hu
      rw [Int.natCast_zero, Int.add_zero, ← wrapInt32_eq_bmod, slotWord_ok hw, tagged_ok hv]
    | succ j =>
      have same : k + (j + 1 : Nat) = k + 1 + j := by omega
      rw [same]
      exact at' j u hu

end Places

/-- **A command that a value is recovered for denotes it.** -/
theorem Command.denotes_of_recover {s : Scene} {frame : Nat} {c : Command} {v : Recovered}
    (h : c.recover s.data s.input frame = .ok v) : Denotes s c v := by
  unfold recover at h
  -- One case per value command, each reading its operand through the checks that `recover` makes
  -- in turn.
  cases c with
  | register r =>
    obtain ⟨w, hw, h⟩ := Computation.except_bind_eq_ok h
    obtain ⟨u, hu, h⟩ := Computation.except_bind_eq_ok h
    cases h
    exact .register (tagged_ok hu ▸ RegisterFile.word_ok hw)
  | int32Register r =>
    obtain ⟨w, hw, h⟩ := Computation.except_bind_eq_ok h
    obtain ⟨i, hi, h⟩ := Computation.except_bind_eq_ok h
    cases h
    exact .int32Register (integer_ok hi ▸ RegisterFile.word_ok hw) (Recovered.isInteger_int32 i)
  | uint32Register r =>
    obtain ⟨w, hw, h⟩ := Computation.except_bind_eq_ok h
    obtain ⟨i, hi, h⟩ := Computation.except_bind_eq_ok h
    rw [← Except.ok.inj h]
    exact .uint32Register (integer_ok hi ▸ RegisterFile.word_ok hw) (Recovered.isInteger_uint32 i)
  | doubleRegister r =>
    obtain ⟨d, hd, h⟩ := Computation.except_bind_eq_ok h
    cases h
    exact .doubleRegister (RegisterFile.double_ok hd)
  | stackSlot k =>
    obtain ⟨w, hw, h⟩ := Computation.except_bind_eq_ok h
    obtain ⟨u, hu, h⟩ := Computation.except_bind_eq_ok h
    cases h
    exact .stackSlot (tagged_ok hu ▸ slotWord_ok hw)
  | int32StackSlot k =>
    obtain ⟨w, hw, h⟩ := Computation.except_bind_eq_ok h
    obtain ⟨i, hi, h⟩ := Computation.except_bind_eq_ok h
    cases h
    exact .int32StackSlot (integer_ok hi ▸ slotWord_ok hw) (Recovered.isInteger_int32 i)
  | uint32StackSlot k =>
    obtain ⟨w, hw, h⟩ := Computation.except_bind_eq_ok h
    obtain ⟨i, hi, h⟩ := Computation.except_bind_eq_ok h
    rw [← Except.ok.inj h]
    exact .uint32StackSlot (integer_ok hi ▸ slotWord_ok hw) (Recovered.isInteger_uint32 i)
  | doubleStackSlot k =>
    obtain ⟨w, hw, h⟩ := Computation.except_bind_eq_ok h
    obtain ⟨d, hd, h⟩ := Computation.except_bind_eq_ok h
    cases h
    exact .doubleStackSlot (double_ok hd ▸ slotWord_ok hw)
  | literal i =>
    obtain ⟨u, hu, h⟩ := Computation.except_bind_eq_ok h
    cases h
    exact .literal (BailoutData.literal_ok hu)
  | argumentsObject known k n =>
    obtain ⟨vs, hvs, h⟩ := Computation.except_bind_eq_ok h
    cases h
    -- Arguments whose values are not known are read as none, so nothing is checked of the stack.
    cases known with
    | true =>
      obtain ⟨length, at'⟩ := taggedSlots_ok hvs
      exact .arguments length at'
    | false =>
      cases hvs
      exact .unknownArguments
  | _ => cases h

/-- There is no other command beside marks, `begin` and those that open a frame. -/
theorem Opcode.isValue_iff (o : Opcode) :
    o.isValue = true ↔ o ≠ .duplicate ∧ o ≠ .begin ∧ o.opensFrame = false := by
  cases o <;> simp [isValue, opensFrame]

/-- Only value commands denote. -/
theorem Denotes.isValue {s : Scene} {c : Command} {v : Recovered} (h : Denotes s c v) :
    c.opcode.isValue = true := by
  cases h <;> rfl

/-! ### Positions of a record -/

/-- A position of a record: a command, as it is spelled, behind any number of marks. -/
structure Position where
  marks : Nat
  opcode : Opcode
  operands : List Int
  command : opcode ≠ .duplicate
  complete : operands.length = opcode.arity

namespace Position

/-- The integers of a position in the recipe. -/
def ints (p : Position) : List Int :=
  List.replicate p.marks (Opcode.duplicate.number : Int) ++ (p.opcode.number : Int) :: p.operands

/-- A position that is not marked as a duplicate, and denotes a value. -/
def Denotes (s : Scene) (p : Position) (v : Recovered) : Prop :=
  p.marks = 0 ∧ ∃ c, Command.ofParts? p.opcode p.operands = some c ∧ Speculation.Denotes s c v

theorem Denotes.isValue {s : Scene} {p : Position} {v : Recovered} (h : p.Denotes s v) :
    p.opcode.isValue = true := by
  obtain ⟨-, c, parts, denotes⟩ := h
  rw [← Command.opcode_of_ofParts? parts]
  exact denotes.isValue

end Position

/-- Each position stands for what the nearest position at or before it denotes that is not
marked. -/
structure Denoted (s : Scene) (ps : List Position) (vs : List Recovered) : Prop where
  length : vs.length = ps.length
  value : ∀ (k : Nat) v, vs[k]? = some v → ∃ j p, j ≤ k ∧ ps[j]? = some p ∧ p.Denotes s v ∧
    ∀ i q, j < i → i ≤ k → ps[i]? = some q → q.marks ≠ 0

/-- A position that is not marked stands for what it denotes itself. -/
theorem Denoted.own {s : Scene} {ps : List Position} {vs : List Recovered} {k : Nat} {p : Position}
    {v : Recovered} (h : Denoted s ps vs) (hp : ps[k]? = some p) (own : p.marks = 0)
    (hv : vs[k]? = some v) : p.Denotes s v := by
  obtain ⟨j, q, le, hq, denotes, marked⟩ := h.value k v hv
  obtain rfl : j = k := by
    refine Nat.le_antisymm le (Nat.le_of_not_lt fun less => ?_)
    exact marked k p less (Nat.le_refl k) hp own
  rw [hp] at hq
  cases hq
  exact denotes

/-- How positions are read one after the other: the walk keeps the value before each. -/
inductive Reads (s : Scene) :
    Option Recovered → List Position → List Recovered → Option Recovered → Prop
  | nil {last : Option Recovered} : Reads s last [] [] last
  | own {last last' : Option Recovered} {p : Position} {v : Recovered} {ps : List Position}
    {vs : List Recovered} (denotes : p.Denotes s v) (rest : Reads s (some v) ps vs last') :
    Reads s last (p :: ps) (v :: vs) last'
  | again {last' : Option Recovered} {p : Position} {v : Recovered} {ps : List Position}
    {vs : List Recovered} (marked : p.marks ≠ 0) (value : p.opcode.isValue = true)
    (rest : Reads s (some v) ps vs last') : Reads s (some v) (p :: ps) (v :: vs) last'

namespace Reads

variable {s : Scene} {last mid last' : Option Recovered} {ps qs : List Position}
  {vs ws : List Recovered}

/-- Runs of positions are read one after the other. -/
theorem append (r : Reads s last ps vs mid) (r' : Reads s mid qs ws last') :
    Reads s last (ps ++ qs) (vs ++ ws) last' := by
  induction r with
  | nil => exact r'
  | own denotes _ ih => exact .own denotes (ih r')
  | again marked value _ ih => exact .again marked value (ih r')

/-- Each position is read into one value. -/
theorem length (r : Reads s last ps vs last') : vs.length = ps.length := by
  induction r with
  | nil => rfl
  | own _ _ ih | again _ _ _ ih => simp [ih]

/-- Every position is a value command, also where it is not used. -/
theorem isValue (r : Reads s last ps vs last') : ∀ p ∈ ps, p.opcode.isValue = true := by
  induction r with
  | nil => simp
  | own denotes _ ih => exact List.forall_mem_cons.mpr ⟨denotes.isValue, ih⟩
  | again _ value _ ih => exact List.forall_mem_cons.mpr ⟨value, ih⟩

/-- A value stands at a position that is not marked, or goes back to the value before all of them. -/
theorem nearest (r : Reads s last ps vs last') {k : Nat} {v : Recovered} (hv : vs[k]? = some v) :
    (∃ j p, j ≤ k ∧ ps[j]? = some p ∧ p.Denotes s v ∧
      ∀ i q, j < i → i ≤ k → ps[i]? = some q → q.marks ≠ 0) ∨
    (last = some v ∧ ∀ i q, i ≤ k → ps[i]? = some q → q.marks ≠ 0) := by
  -- By induction on the positions read: a marked one passes on the value before it, so the one
  -- that gave it moves left.
  induction r generalizing k with
  | nil => simp at hv
  | @own _ _ p u ps _ denotes _ ih =>
    cases k with
    | zero =>
      cases hv
      exact .inl ⟨0, p, Nat.le_refl 0, rfl, denotes, fun i _ hi hi' => by omega⟩
    | succ k =>
      rcases ih hv with ⟨j, q, hj, hq, value, between⟩ | ⟨same, marked⟩
      · refine .inl ⟨j + 1, q, by omega, hq, value, fun i x hi hi' hx => ?_⟩
        obtain ⟨i, rfl⟩ : ∃ m, i = m + 1 := ⟨i - 1, by omega⟩
        exact between i x (by omega) (by omega) hx
      · cases same
        refine .inl ⟨0, p, by omega, rfl, denotes, fun i x hi hi' hx => ?_⟩
        obtain ⟨i, rfl⟩ : ∃ m, i = m + 1 := ⟨i - 1, by omega⟩
        exact marked i x (by omega) hx
  | @again _ p u ps _ marked _ _ ih =>
    cases k with
    | zero =>
      cases hv
      refine .inr ⟨rfl, fun i x hi hx => ?_⟩
      obtain rfl : i = 0 := by omega
      cases hx
      exact marked
    | succ k =>
      rcases ih hv with ⟨j, q, hj, hq, value, between⟩ | ⟨same, marked'⟩
      · refine .inl ⟨j + 1, q, by omega, hq, value, fun i x hi hi' hx => ?_⟩
        obtain ⟨i, rfl⟩ : ∃ m, i = m + 1 := ⟨i - 1, by omega⟩
        exact between i x (by omega) (by omega) hx
      · refine .inr ⟨same, fun i x hi hx => ?_⟩
        cases i with
        | zero =>
          cases hx
          exact marked
        | succ i => exact marked' i x (by omega) hx

/-- **What is read from the start of a frame is denoted.** -/
theorem denoted (r : Reads s none ps vs last') : Denoted s ps vs := by
  refine ⟨r.length, fun k v hv => ?_⟩
  rcases r.nearest hv with found | ⟨none, -⟩
  · exact found
  · cases none

end Reads

end Speculation
