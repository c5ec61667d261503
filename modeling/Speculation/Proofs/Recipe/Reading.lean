import Speculation.Proofs.Action
import Speculation.Recipe.Cursor

/-!
# What a cursor has read

A successful read says which integers the bytes in front of the cursor spell. `Recipe.Spells` is
that relation: it does not ask how the integers were written, so it also covers bytes that no
writer of recipes produces. Every reader of `Cursor` gets one lemma that turns its success into
the integers it consumed and what they stand for.
-/

namespace Speculation

namespace Recipe

/-- The bytes `bs` read as the integers `is`, one after another, and leave `rest`. -/
inductive Spells : List UInt8 → List Int → List UInt8 → Prop
  | nil {bs : List UInt8} : Spells bs [] bs
  | cons {bs mid rest : List UInt8} {i : Int} {is : List Int}
      (head : readInt bs = (some i, mid)) (tail : Spells mid is rest) : Spells bs (i :: is) rest

namespace Spells

variable {bs mid rest : List UInt8} {is js : List Int}

/-- Runs of integers are spelled one after the other. -/
theorem append (h : Spells bs is mid) (h' : Spells mid js rest) : Spells bs (is ++ js) rest := by
  induction h with
  | nil => exact h'
  | cons head _ ih => exact .cons head (ih h')

/-- Each integer takes at least one byte. -/
theorem length_add_le (h : Spells bs is rest) : rest.length + is.length ≤ bs.length := by
  induction h with
  | nil => simp
  | @cons bs mid rest i is head _ ih =>
    have shorter : mid.length < bs.length := by
      have := length_readInt_lt (show (readInt bs).1 = some i by rw [head])
      rwa [head] at this
    simp only [List.length_cons]
    omega

end Spells

end Recipe

/-! ### Commands -/

namespace Command

/-- Parts make a command of their opcode. -/
theorem opcode_of_ofParts? {o : Opcode} {is : List Int} {c : Command}
    (h : ofParts? o is = some c) : c.opcode = o := by
  unfold ofParts? at h
  split at h
  all_goals simp only [Option.bind_eq_bind, Option.bind_eq_some_iff, Option.pure_def,
    Option.some.injEq, reduceCtorEq] at h
  all_goals grind -ring -linarith [opcode]

theorem length_of_ofParts? {o : Opcode} {is : List Int} {c : Command}
    (h : ofParts? o is = some c) : is.length = o.arity := by
  by_cases right : is.length = o.arity
  · exact right
  · rw [ofParts?_eq_none_of_length right] at h
    cases h

end Command

namespace Cursor

open Speculation.Computation Recipe

variable {c c' : Cursor}

theorem next_ok {i : Int} (h : next c = (.ok i, c')) : readInt c.rest = (some i, c'.rest) := by
  simp only [next, get_bind, tryNext, set_bind] at h
  rcases hr : readInt c.rest with ⟨j, rest⟩
  rw [hr] at h
  cases j with
  | none => cases h
  | some j =>
    cases h
    rfl

theorem nextOpcode_ok {o : Opcode} (h : nextOpcode c = (.ok o, c')) :
    Spells c.rest [(o.number : Int)] c'.rest := by
  obtain ⟨i, d, hi, ho⟩ := bind_eq_ok h
  cases hn : Opcode.ofInt? i with
  | none =>
    rw [hn] at ho
    cases ho
  | some p =>
    rw [hn] at ho
    cases ho
    rw [← Opcode.eq_number_of_ofInt? hn]
    exact .cons (next_ok hi) .nil

theorem nextInts_ok {n : Nat} {is : List Int} (h : nextInts n c = (.ok is, c')) :
    is.length = n ∧ Spells c.rest is c'.rest := by
  induction n generalizing c is with
  | zero =>
    cases h
    exact ⟨rfl, .nil⟩
  | succ n ih =>
    obtain ⟨i, d, hi, h⟩ := bind_eq_ok h
    obtain ⟨js, e, hj, h⟩ := bind_eq_ok h
    cases h
    obtain ⟨length, spelled⟩ := ih hj
    exact ⟨by simp [length], .cons (next_ok hi) spelled⟩

theorem skip_ok {n : Nat} (h : skip n c = (.ok (), c')) :
    ∃ is : List Int, is.length = n ∧ Spells c.rest is c'.rest := by
  obtain ⟨is, d, hi, h⟩ := bind_eq_ok h
  cases h
  exact ⟨is, nextInts_ok hi⟩

theorem operandsOf_ok {o : Opcode} {k : Command} (h : operandsOf o c = (.ok k, c')) :
    ∃ is, Command.ofParts? o is = some k ∧ Spells c.rest is c'.rest := by
  obtain ⟨is, d, hi, h⟩ := bind_eq_ok h
  cases hk : Command.ofParts? o is with
  | none =>
    rw [hk] at h
    cases h
  | some k =>
    rw [hk] at h
    cases h
    exact ⟨is, hk, (nextInts_ok hi).2⟩

/-- A command that was read is spelled there. -/
theorem nextCommand_ok {k : Command} (h : nextCommand c = (.ok k, c')) :
    ∃ is, Command.ofParts? k.opcode is = some k ∧
      Spells c.rest ((k.opcode.number : Int) :: is) c'.rest := by
  obtain ⟨o, d, ho, h⟩ := bind_eq_ok h
  obtain ⟨is, parts, spelled⟩ := operandsOf_ok h
  obtain rfl := Command.opcode_of_ofParts? parts
  exact ⟨is, parts, (nextOpcode_ok ho).append spelled⟩

end Cursor

end Speculation
