import Mathlib.Logic.Function.Defs
import Speculation.Frame.Basic

/-!
# Slot indices

The slot indices of a frame are a run of integers around zero: one for each word of the parameter area
below, one for each word under the fixed part from zero on (`IsIndex`). They address the words outside the
fixed part, each by one index (`offsetOfIndex_eq_ok`, `exists_index_iff`), and they agree with the accessors
for the receiver, the parameters and the expressions. The fixed part lies between the words of negative
indices and those of the others.
-/

namespace Speculation

namespace Frame

variable {f : Frame} {i j : Int} {o : Nat}

/-- The slot indices of a frame. -/
def IsIndex (f : Frame) (i : Int) : Prop :=
  -(f.area : Int) ≤ i ∧ i < (f.size : Int) - f.area - fixedSlots

instance (f : Frame) (i : Int) : Decidable (f.IsIndex i) := inferInstanceAs (Decidable (_ ∧ _))

theorem fits_size (f : Frame) : f.area + 4 ≤ f.size := f.fits

/-! ### Offsets of indices -/

/-- A word under the fixed part. -/
theorem rawOffset_of_nonneg (f : Frame) (h : 0 ≤ i) :
    rawOffset f.size f.area i = (f.size : Int) - f.area - 5 - i := by
  rw [rawOffset, if_pos h]
  unfold fixedSlots
  omega

/-- A word of the parameter area. -/
theorem rawOffset_of_neg (f : Frame) (h : i < 0) :
    rawOffset f.size f.area i = (f.size : Int) - f.area - 1 - i := by
  rw [rawOffset, if_neg (by omega)]
  omega

/-- Only the slot indices have an offset inside the frame. -/
theorem isIndex_iff : f.IsIndex i ↔
    0 ≤ rawOffset f.size f.area i ∧ rawOffset f.size f.area i < f.size := by
  have := f.fits_size
  unfold IsIndex fixedSlots
  rcases Int.lt_or_le i 0 with h | h
  · rw [f.rawOffset_of_neg h]
    omega
  · rw [f.rawOffset_of_nonneg h]
    omega

/-- An index has an offset if it is one of the frame. -/
theorem offsetOfIndex_eq_ok :
    f.offsetOfIndex i = .ok o ↔ f.IsIndex i ∧ rawOffset f.size f.area i = o := by
  rw [isIndex_iff, offsetOfIndex]
  split
  · rename_i inside
    simp only [inside, and_self, true_and, Except.ok.injEq]
    omega
  · rename_i outside
    simp only [outside, false_and, reduceCtorEq]

/-- Any other index is reported. -/
theorem offsetOfIndex_eq_error (outside : ¬ f.IsIndex i) :
    f.offsetOfIndex i = .error (.violated (.slotIndexOutside i f.type f.size)) := by
  rw [isIndex_iff] at outside
  rw [offsetOfIndex, if_neg outside]

/-- No word has two indices. -/
theorem offsetOfIndex_inj (hi : f.offsetOfIndex i = .ok o) (hj : f.offsetOfIndex j = .ok o) : i = j := by
  rw [offsetOfIndex_eq_ok] at hi hj
  have := f.fits_size
  obtain ⟨⟨low, high⟩, ei⟩ := hi
  obtain ⟨⟨low', high'⟩, ej⟩ := hj
  unfold fixedSlots at high high'
  unfold rawOffset fixedSlots at ei ej
  split at ei <;> split at ej <;> omega

/-! ### The fixed part -/

/-- The fixed part starts above the expressions and ends below the parameter area. -/
theorem exists_fixedOffset_iff :
    (∃ s, f.fixedOffset s = o) ↔ f.expressionCount ≤ o ∧ o + f.area < f.size := by
  have := f.fits_size
  unfold fixedOffset expressionCount fixedSlots
  constructor
  · rintro ⟨s, rfl⟩
    have := s.depth_lt
    unfold fixedSlots at this
    omega
  · rintro ⟨low, high⟩
    obtain ⟨s, hs⟩ : ∃ s : FixedSlot, s.depth = f.size - f.area - 1 - o := by
      have all : ∀ d < 4, ∃ s ∈ FixedSlot.all, s.depth = d := by decide
      obtain ⟨s, -, hs⟩ := all (f.size - f.area - 1 - o) (by omega)
      exact ⟨s, hs⟩
    exact ⟨s, by omega⟩

theorem fixedOffset_injective (f : Frame) : Function.Injective f.fixedOffset := by
  intro s t same
  have := f.fits_size
  have := s.depth_lt
  have := t.depth_lt
  have depth : s.depth = t.depth := by
    unfold fixedOffset fixedSlots at *
    omega
  cases s <;> cases t <;> first | rfl | cases depth

/-- A word has an index exactly if it is not one of the fixed part. -/
theorem exists_index_iff :
    (∃ i, f.offsetOfIndex i = .ok o) ↔ o < f.size ∧ ∀ s, f.fixedOffset s ≠ o := by
  have := f.fits_size
  rw [← not_exists, exists_fixedOffset_iff]
  unfold expressionCount
  simp only [offsetOfIndex_eq_ok, IsIndex]
  constructor
  · rintro ⟨i, ⟨low, high⟩, e⟩
    unfold rawOffset fixedSlots at *
    split at e <;> omega
  · rintro ⟨inside, free⟩
    unfold fixedSlots at *
    by_cases below : o < f.size - f.area
    · refine ⟨f.size - f.area - 5 - o, by omega, ?_⟩
      rw [f.rawOffset_of_nonneg (by omega)]
      omega
    · refine ⟨f.size - f.area - 1 - o, by omega, ?_⟩
      rw [f.rawOffset_of_neg (by omega)]
      omega

/-- The fixed part separates the words of negative indices from those of the others. -/
theorem fixedOffset_between (hi : f.offsetOfIndex i = .ok o) (s : FixedSlot) :
    (0 ≤ i → o < f.fixedOffset s) ∧ (i < 0 → f.fixedOffset s < o) := by
  have := f.fits_size
  obtain ⟨low, high⟩ := exists_fixedOffset_iff (f := f).1 ⟨s, rfl⟩
  obtain ⟨-, e⟩ := offsetOfIndex_eq_ok.1 hi
  unfold expressionCount fixedSlots at low
  constructor
  · intro h
    rw [f.rawOffset_of_nonneg h] at e
    omega
  · intro h
    rw [f.rawOffset_of_neg h] at e
    omega

end Frame

/-- **Slot indices.** The slot indices of a frame run from `-area` to below the number of its expressions.
Each addresses one word, no two the same, and together they address all words but the four of the fixed
part; any other index is fatal. The least one is that of the receiver, provided that there is a parameter
area, `-1` is that of the last parameter, and so on up to the first; the others are those of the expressions,
for reading and for writing. The four words of the fixed part are different ones inside of the frame, above
the expressions and below the parameter area. -/
theorem slot_indices (f : Frame) :
    (∀ {i : Int}, -(f.area : Int) ≤ i → i < (f.size : Int) - f.area - 4 →
      ∃ o, f.offsetOfIndex i = .ok o) ∧
    (∀ {i : Int}, ¬ (-(f.area : Int) ≤ i ∧ i < (f.size : Int) - f.area - 4) →
      f.offsetOfIndex i = .error (.violated (.slotIndexOutside i f.type f.size))) ∧
    (∀ {i j : Int} {o : Nat}, f.offsetOfIndex i = .ok o → f.offsetOfIndex j = .ok o → i = j) ∧
    (∀ {o : Nat}, (∃ i, f.offsetOfIndex i = .ok o) ↔ o < f.size ∧ ∀ s, f.fixedOffset s ≠ o) ∧
    (0 < f.area → ∃ o, f.offsetOfIndex (-f.area) = .ok o ∧ f.receiver = f.slot o) ∧
    (∀ {k : Nat}, k < f.area - 1 →
      ∃ o, f.offsetOfIndex (-1 - k) = .ok o ∧ f.parameter (f.parameterCount - 1 - k) = f.slot o) ∧
    (∀ {k : Nat}, k < f.expressionCount → ∃ o, f.offsetOfIndex k = .ok o ∧
      f.expression k = f.slot o ∧ ∀ w, f.setExpression k w = f.setSlot o w) ∧
    Function.Injective f.fixedOffset ∧
    (∀ s, f.fixedOffset s < f.size ∧ ∀ {i : Int} {o : Nat}, f.offsetOfIndex i = .ok o →
      (0 ≤ i → o < f.fixedOffset s) ∧ (i < 0 → f.fixedOffset s < o)) := by
  have fits := f.fits_size
  refine ⟨fun {i} low high => ?_, fun outside => Frame.offsetOfIndex_eq_error outside,
    Frame.offsetOfIndex_inj, Frame.exists_index_iff, fun area => ?_, fun {k} hk => ?_, fun {k} hk => ?_,
    f.fixedOffset_injective, fun s => ⟨f.fixedOffset_lt_size s, fun hi => Frame.fixedOffset_between hi s⟩⟩
  · have index : f.IsIndex i := ⟨low, high⟩
    obtain ⟨o, e⟩ := Int.eq_ofNat_of_zero_le (Frame.isIndex_iff.1 index).1
    exact ⟨o, Frame.offsetOfIndex_eq_ok.2 ⟨index, e⟩⟩
  -- The receiver has the highest offset, the index furthest below zero.
  · refine ⟨f.size - 1, Frame.offsetOfIndex_eq_ok.2 ⟨?_, ?_⟩, rfl⟩
    · unfold Frame.IsIndex fixedSlots
      omega
    · rw [f.rawOffset_of_neg (by omega)]
      omega
  · refine ⟨f.size - f.area + k, Frame.offsetOfIndex_eq_ok.2 ⟨?_, ?_⟩, ?_⟩
    · unfold Frame.IsIndex fixedSlots
      omega
    · rw [f.rawOffset_of_neg (by omega)]
      omega
    · unfold Frame.parameter Frame.parameterCount
      rw [if_pos (by omega)]
      congr 1
      omega
  · have count : f.expressionCount = f.size - 4 - f.area := rfl
    refine ⟨f.expressionCount - 1 - k, Frame.offsetOfIndex_eq_ok.2 ⟨?_, ?_⟩, ?_, fun w => ?_⟩
    · unfold Frame.IsIndex fixedSlots
      omega
    · rw [f.rawOffset_of_nonneg (by omega)]
      omega
    · rw [Frame.expression, if_pos hk]
    · rw [Frame.setExpression, if_pos hk]

/-- A frame of a function with two parameters and three expressions. -/
theorem slot_indices_function :
    let f := Frame.ofFunction .javaScript .undefined 2 3
    (∃ o, f.offsetOfIndex (-3) = .ok o ∧ f.receiver = f.slot o) ∧
    (∃ o, f.offsetOfIndex (-1) = .ok o ∧ f.parameter 1 = f.slot o) ∧
    (∃ o, f.offsetOfIndex 2 = .ok o ∧ f.expression 2 = f.slot o) ∧
    f.offsetOfIndex 3 = .error (.violated (.slotIndexOutside 3 .javaScript 10)) := by
  intro f
  obtain ⟨-, outside, -, -, receiver, parameter, expression, -⟩ := slot_indices f
  obtain ⟨o, index, read, -⟩ := expression (k := 2) (by decide)
  exact ⟨receiver (by decide), parameter (k := 0) (by decide), ⟨o, index, read⟩, outside (by decide)⟩

end Speculation
