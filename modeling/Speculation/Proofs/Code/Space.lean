import Speculation.Code.Space

/-!
# Code that stays where it is

Code objects are never removed from the code space. What happens to one later is that it is marked
for deoptimization, and `CodeSpace.Extends` says that nothing else does.
-/

namespace Speculation

namespace CodeSpace

variable {s : CodeSpace} {c d : CodeId}

theorem get_eq_getElem (hc : c.index < s.size) : s.get c = s.codes[c.index] := by
  simp only [get, Array.getD_eq_getD_getElem?]
  rw [Array.getElem?_eq_getElem hc]
  rfl

theorem get_add (s : CodeSpace) (code : Code) (hc : c.index < s.size) :
    (s.add code).2.get c = s.get c := by
  have hc' : c.index < (s.add code).2.size := by
    simp only [size, add, Array.size_push]
    exact Nat.lt_succ_of_lt hc
  rw [get_eq_getElem hc', get_eq_getElem hc]
  exact Array.getElem_push_lt hc

/-- The code that was added. -/
theorem get_add_self (s : CodeSpace) (code : Code) :
    (s.add code).2.get (s.add code).1 = { code with start := s.next } := by
  simp [get, add]

/-- Marking code leaves everything else about all code. -/
theorem get_mark (s : CodeSpace) (c : CodeId) (hd : d.index < s.size) :
    (s.modify c fun code => { code with markedForDeoptimization := true }).get d =
      if c = d then { s.get d with markedForDeoptimization := true } else s.get d := by
  have hd' : d.index < (s.modify c fun code =>
      { code with markedForDeoptimization := true }).size := by
    simpa [size, modify] using hd
  have same : c.index = d.index ↔ c = d := by
    cases c
    cases d
    simp
  rw [get_eq_getElem hd', get_eq_getElem hd]
  simp only [modify, Array.getElem_modify]
  by_cases hcd : c = d
  · rw [if_pos hcd, if_pos (same.2 hcd)]
    rfl
  · rw [if_neg hcd, if_neg (mt same.1 hcd)]
    rfl

theorem lt_size_of_isOptimized (hc : (s.get c).isOptimized) : c.index < s.size := by
  refine Nat.lt_of_not_le fun out => ?_
  have none : s.codes[c.index]? = none := Array.getElem?_eq_none_iff.2 out
  rw [get, Array.getD_eq_getD_getElem?, none] at hc
  exact absurd hc (by decide)

/-- Code objects stay what they are; they may be marked, and new ones may come. -/
structure Extends (s s' : CodeSpace) : Prop where
  size : s.size ≤ s'.size
  optimized : ∀ c : CodeId, c.index < s.size → (s'.get c).isOptimized = (s.get c).isOptimized
  dependents : ∀ c : CodeId, c.index < s.size →
    (s'.get c).dependentShapes = (s.get c).dependentShapes
  marked : ∀ c : CodeId, c.index < s.size → (s.get c).markedForDeoptimization →
    (s'.get c).markedForDeoptimization

namespace Extends

theorem refl (s : CodeSpace) : s.Extends s := ⟨Nat.le_refl _, by simp, by simp, by simp⟩

theorem trans {s s' s'' : CodeSpace} (h : s.Extends s') (h' : s'.Extends s'') : s.Extends s'' where
  size := Nat.le_trans h.size h'.size
  optimized c hc := (h'.optimized c (Nat.lt_of_lt_of_le hc h.size)).trans (h.optimized c hc)
  dependents c hc := (h'.dependents c (Nat.lt_of_lt_of_le hc h.size)).trans (h.dependents c hc)
  marked c hc hm := h'.marked c (Nat.lt_of_lt_of_le hc h.size) (h.marked c hc hm)

theorem add (s : CodeSpace) (code : Code) : s.Extends (s.add code).2 where
  size := by simp [CodeSpace.size, CodeSpace.add]
  optimized c hc := by rw [s.get_add code hc]
  dependents c hc := by rw [s.get_add code hc]
  marked c hc hm := by rwa [s.get_add code hc]

theorem mark (s : CodeSpace) (c : CodeId) :
    s.Extends (s.modify c fun code => { code with markedForDeoptimization := true }) where
  size := by simp [CodeSpace.size, CodeSpace.modify]
  optimized d hd := by
    rw [s.get_mark c hd]
    split <;> rfl
  dependents d hd := by
    rw [s.get_mark c hd]
    split <;> rfl
  marked d hd hm := by
    rw [s.get_mark c hd]
    split
    · rfl
    · exact hm

end Extends

end CodeSpace

end Speculation
