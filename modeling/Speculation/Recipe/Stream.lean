import Speculation.Recipe.Command

/-!
# The byte stream of recipes

Recipes are stored as bytes. An integer is written as its magnitude doubled, plus one if it is
negative, in groups of seven bits from the least significant one. Each byte holds a group in
its upper seven bits, and its lowest bit says whether another group follows. Five groups are
enough for every 32-bit integer, and reading refuses a sixth.

`encode` and `decode` go between lists of commands and bytes. `decode` reports the byte at which
a malformed command starts and why it is malformed.
-/

namespace Speculation

namespace Recipe

/-! ### Integers -/

/-- The groups of a number, least significant first, as bytes. -/
def writeGroups (n : Nat) : List UInt8 :=
  if n < 128 then [UInt8.ofNat (2 * n)]
  else UInt8.ofNat (2 * (n % 128) + 1) :: writeGroups (n / 128)
termination_by n

/-- Magnitude and sign of an integer in one number. -/
def zigzag (i : Int) : Nat := 2 * i.natAbs + (if i < 0 then 1 else 0)

/-- The integer with a given magnitude and sign. -/
def unzigzag (n : Nat) : Int := if n % 2 = 1 then -((n / 2 : Nat) : Int) else ((n / 2 : Nat) : Int)

/-- The bytes of an integer. -/
def writeInt (i : Int) : List UInt8 := writeGroups (zigzag i)

/-- Reads at most `fuel` groups. The second part is what was not consumed, also on failure. -/
def readGroups : Nat → List UInt8 → Option Nat × List UInt8
  | 0, bs => (none, bs)
  | _ + 1, [] => (none, [])
  | fuel + 1, b :: bs =>
    if b.toNat % 2 = 0 then (some (b.toNat / 2), bs)
    else
      let (high, rest) := readGroups fuel bs
      (high.map fun h => b.toNat / 2 + 128 * h, rest)

/-- Groups that an integer may take. -/
def maxGroups : Nat := 5

/-- Whether an integer fits 32 bits with sign. -/
def fitsInt32 (i : Int) : Bool := decide (-(2 ^ 31) ≤ i ∧ i < 2 ^ 31)

/-- Reads one integer; fails if the stream ends inside it, if it has too many groups, or if it
does not fit 32 bits. -/
def readInt (bs : List UInt8) : Option Int × List UInt8 :=
  let (n, rest) := readGroups maxGroups bs
  ((n.map unzigzag).filter fitsInt32, rest)

/-- Reads `n` integers; on failure the bytes read so far are consumed. -/
def readInts : Nat → List UInt8 → Option (List Int) × List UInt8
  | 0, bs => (some [], bs)
  | n + 1, bs =>
    match readInt bs with
    | (none, rest) => (none, rest)
    | (some i, rest) =>
      let (is, rest') := readInts n rest
      (is.map (i :: ·), rest')

/-- Reading never adds bytes. -/
theorem length_readGroups_le (fuel : Nat) (bs : List UInt8) :
    (readGroups fuel bs).2.length ≤ bs.length := by
  induction fuel generalizing bs with
  | zero => simp [readGroups]
  | succ fuel ih =>
    cases bs with
    | nil => simp [readGroups]
    | cons b bs =>
      by_cases h : b.toNat % 2 = 0
      · simp [readGroups, h]
      · have := ih bs
        simp only [readGroups, h, ite_false, List.length_cons]
        omega

theorem length_readGroups_lt {fuel : Nat} {bs : List UInt8} {n : Nat}
    (h : (readGroups fuel bs).1 = some n) : (readGroups fuel bs).2.length < bs.length := by
  cases fuel with
  | zero => simp [readGroups] at h
  | succ fuel =>
    cases bs with
    | nil => simp [readGroups] at h
    | cons b bs =>
      by_cases hb : b.toNat % 2 = 0
      · simp [readGroups, hb]
      · have := length_readGroups_le fuel bs
        simp only [readGroups, hb, ite_false, List.length_cons]
        omega

theorem length_readInt_le (bs : List UInt8) : (readInt bs).2.length ≤ bs.length :=
  length_readGroups_le maxGroups bs

/-- A successful read consumes at least one byte. -/
theorem length_readInt_lt {bs : List UInt8} {i : Int} (h : (readInt bs).1 = some i) :
    (readInt bs).2.length < bs.length := by
  unfold readInt at h ⊢
  obtain ⟨n, hn⟩ : ∃ n, (readGroups maxGroups bs).1 = some n := by
    cases hg : (readGroups maxGroups bs).1 with
    | none => simp [hg] at h
    | some n => exact ⟨n, rfl⟩
  exact length_readGroups_lt hn

theorem length_readInts_le (n : Nat) (bs : List UInt8) :
    (readInts n bs).2.length ≤ bs.length := by
  induction n generalizing bs with
  | zero => simp [readInts]
  | succ n ih =>
    have h1 := length_readInt_le bs
    unfold readInts
    split
    · rename_i rest heq
      simpa [heq] using h1
    · rename_i i rest heq
      have h2 := ih rest
      simp only [heq] at h1
      exact Nat.le_trans h2 h1

/-! ### Commands -/

/-- The bytes of a command. -/
def writeCommand (c : Command) : List UInt8 :=
  writeInt c.opcode.number ++ c.operands.flatMap writeInt

/-- The bytes of a list of commands. -/
def encode (cs : List Command) : List UInt8 := cs.flatMap writeCommand

/-- Why a byte stream is no list of commands. -/
inductive Malformed where
  /-- No integer can be read at this byte. -/
  | truncatedInteger (offset : Nat)
  /-- The integer at this byte is no opcode. -/
  | unknownOpcode (value : Int) (offset : Nat)
  /-- The stream ends within the operands of the command at this byte. -/
  | missingOperands (opcode : Opcode) (offset : Nat)
  /-- The operands of the command at this byte are out of range. -/
  | invalidOperands (opcode : Opcode) (offset : Nat) (operands : List Int)
deriving DecidableEq, Repr

/-- Reads one command that starts at byte `offset`. -/
def readCommand (offset : Nat) (bs : List UInt8) : Except Malformed (Command × List UInt8) :=
  match readInt bs with
  | (none, _) => .error (.truncatedInteger offset)
  | (some i, rest) =>
    match Opcode.ofInt? i with
    | none => .error (.unknownOpcode i offset)
    | some o =>
      match readInts o.arity rest with
      | (none, _) => .error (.missingOperands o offset)
      | (some is, rest') =>
        match Command.ofParts? o is with
        | none => .error (.invalidOperands o offset is)
        | some c => .ok (c, rest')

/-- A command that was read takes at least one byte. -/
theorem length_readCommand_lt {offset : Nat} {bs : List UInt8} {c : Command} {rest : List UInt8}
    (h : readCommand offset bs = .ok (c, rest)) : rest.length < bs.length := by
  unfold readCommand at h
  split at h
  · simp at h
  · rename_i i r1 h1
    have l1 : r1.length < bs.length := by
      have := @length_readInt_lt bs i (by rw [h1])
      rwa [h1] at this
    split at h
    · simp at h
    · rename_i o _
      split at h
      · simp at h
      · rename_i is r2 h2
        have l2 : r2.length ≤ r1.length := by
          have := length_readInts_le o.arity r1
          rwa [h2] at this
        split at h
        · simp at h
        · simp only [Except.ok.injEq, Prod.mk.injEq] at h
          rw [← h.2]
          omega

/-- Reads commands from byte `offset` to the end. -/
def decodeFrom (offset : Nat) (bs : List UInt8) : Except Malformed (List Command) :=
  if bs.isEmpty then .ok []
  else
    match _h : readCommand offset bs with
    | .error e => .error e
    | .ok (c, rest) =>
      match decodeFrom (offset + (bs.length - rest.length)) rest with
      | .error e => .error e
      | .ok cs => .ok (c :: cs)
termination_by bs.length
decreasing_by exact length_readCommand_lt (by assumption)

/-- The commands of a byte stream. -/
def decode (bs : List UInt8) : Except Malformed (List Command) := decodeFrom 0 bs

/-- A list of integers in a message. -/
def listText (is : List Int) : String := "[" ++ ", ".intercalate (is.map toString) ++ "]"

def Malformed.message : Malformed → String
  | truncatedInteger at_ => s!"truncated integer at byte {at_}"
  | unknownOpcode v at_ => s!"unknown opcode {v} at byte {at_}"
  | missingOperands o at_ => s!"{o.name} at byte {at_} is missing operands"
  | invalidOperands o at_ is => s!"{o.name} at byte {at_} has invalid operands {listText is}"

end Recipe

end Speculation
