import Speculation.Heap.Convert
import Speculation.Heap.Create

/-!
# Numerals of array indices

The canonical lists of digits are the decimal numerals of the natural numbers, each of them once
(`isCanonical_iff`). A text therefore denotes the array index `n` exactly if it is the numeral of `n`
(`arrayIndex?_eq_some_iff`), and keys of a heap that are strings agree with those that are small
integers (`array_index_keys`).
-/

namespace Speculation

namespace Text

variable {c : Char} {cs : List Char} {n : Nat}

/-! ### Digits -/

theorem bounds_of_isDigit (digit : c.isDigit) : 48 ≤ c.toNat ∧ c.toNat ≤ 57 := by
  simpa [Char.isDigit, UInt32.le_iff_toNat_le] using digit

theorem digitValue_lt (digit : c.isDigit) : digitValue c < 10 := by
  have := bounds_of_isDigit digit
  have zero : '0'.toNat = 48 := rfl
  unfold digitValue
  omega

theorem digitChar_digitValue (digit : c.isDigit) : (digitValue c).digitChar = c := by
  have := bounds_of_isDigit digit
  have zero : '0'.toNat = 48 := rfl
  apply Char.toNat_inj.1
  rw [Nat.toNat_digitChar_of_lt_ten (digitValue_lt digit), digitValue]
  omega

theorem digitValue_pos (digit : c.isDigit) (nonzero : c ≠ '0') : 0 < digitValue c := by
  refine Nat.pos_of_ne_zero fun value => nonzero ?_
  rw [← digitChar_digitValue digit, value]
  rfl

/-! ### Numerals -/

theorem ofDigits_eq (n : Nat) (cs : List Char) : ofDigits n cs = Nat.ofDigitChars 10 cs n := by
  fun_induction ofDigits n cs with
  | case1 n => exact Nat.ofDigitChars_nil.symm
  | case2 n c cs ih => rw [ih, Nat.ofDigitChars_cons, digitValue]

theorem ofDigits_cons (n : Nat) (c : Char) (cs : List Char) :
    ofDigits n (c :: cs) = ofDigits (10 * n + digitValue c) cs := by
  rw [ofDigits_eq, ofDigits_eq, Nat.ofDigitChars_cons, digitValue]

theorem ofDigits_toDigits (n : Nat) : ofDigits 0 (Nat.toDigits 10 n) = n := by
  rw [ofDigits_eq, Nat.ofDigitChars_ten_toDigits]

/-- Digits read after a number other than zero continue its numeral. -/
theorem toDigits_append_digits (positive : 0 < n) (digits : ∀ c ∈ cs, c.isDigit) :
    Nat.toDigits 10 n ++ cs = Nat.toDigits 10 (ofDigits n cs) := by
  induction cs generalizing n with
  | nil => rw [List.append_nil, ofDigits_eq, Nat.ofDigitChars_nil]
  | cons c cs ih =>
    have digit : c.isDigit := digits c (List.mem_cons_self ..)
    have next : Nat.toDigits 10 n ++ [c] = Nat.toDigits 10 (10 * n + digitValue c) := by
      have lt := digitValue_lt digit
      rw [← Nat.toDigits_append_toDigits (by decide) positive lt, Nat.toDigits_of_lt_base lt,
        digitChar_digitValue digit]
    calc Nat.toDigits 10 n ++ c :: cs
        = (Nat.toDigits 10 n ++ [c]) ++ cs := by simp
      _ = Nat.toDigits 10 (10 * n + digitValue c) ++ cs := by rw [next]
      _ = Nat.toDigits 10 (ofDigits n (c :: cs)) := by
        rw [ofDigits_cons, ih (by omega) fun d hd => digits d (List.mem_cons_of_mem _ hd)]

/-- A numeral is canonical if it is zero or does not begin with a zero. -/
theorem isCanonical_eq_true : isCanonical cs = true ↔
    cs = ['0'] ∨ ∃ c rest, cs = c :: rest ∧ c ≠ '0' ∧ ∀ d ∈ cs, d.isDigit := by
  unfold isCanonical
  split
  · simp
  · simp
  · rename_i c rest other
    simp only [Bool.and_eq_true, bne_iff_ne, List.all_eq_true]
    constructor
    · rintro ⟨nonzero, digits⟩
      exact .inr ⟨c, rest, rfl, nonzero, digits⟩
    · rintro (zero | ⟨c, rest, e, nonzero, digits⟩)
      · exact absurd (List.cons.inj zero).1 fun first => other first (List.cons.inj zero).2
      · cases e
        exact ⟨nonzero, digits⟩

/-- The numeral of a number other than zero does not start with a zero. -/
theorem toDigits_eq_cons (positive : 0 < n) : ∃ c rest, Nat.toDigits 10 n = c :: rest ∧ c ≠ '0' := by
  induction n using Nat.strongRecOn with
  | ind n ih =>
    by_cases small : n < 10
    · refine ⟨n.digitChar, [], Nat.toDigits_of_lt_base small, ?_⟩
      simpa using Nat.ne_of_gt positive
    · obtain ⟨c, rest, e, nonzero⟩ := ih (n / 10) (by omega) (by omega)
      refine ⟨c, rest ++ [(n % 10).digitChar], ?_, nonzero⟩
      rw [Nat.toDigits_of_base_le (by decide) (by omega), e, List.cons_append]

/-- The numeral of a number is canonical. -/
theorem isCanonical_toDigits (n : Nat) : isCanonical (Nat.toDigits 10 n) := by
  rw [isCanonical_eq_true]
  rcases Nat.eq_zero_or_pos n with rfl | positive
  · exact .inl (Nat.toDigits_zero 10)
  · obtain ⟨c, rest, e, nonzero⟩ := toDigits_eq_cons positive
    exact .inr ⟨c, rest, e, nonzero, fun d hd => Nat.isDigit_of_mem_toDigits (by decide) (by decide) hd⟩

/-- A canonical numeral is that of its number. -/
theorem toDigits_ofDigits (canonical : isCanonical cs) : Nat.toDigits 10 (ofDigits 0 cs) = cs := by
  rcases isCanonical_eq_true.1 canonical with rfl | ⟨c, rest, rfl, nonzero, digits⟩
  · rfl
  · have digit : c.isDigit := digits c (List.mem_cons_self ..)
    calc Nat.toDigits 10 (ofDigits 0 (c :: rest))
        = Nat.toDigits 10 (ofDigits (digitValue c) rest) := by
          rw [ofDigits_cons, Nat.mul_zero, Nat.zero_add]
      _ = Nat.toDigits 10 (digitValue c) ++ rest :=
        (toDigits_append_digits (digitValue_pos digit nonzero) fun d hd =>
          digits d (List.mem_cons_of_mem _ hd)).symm
      _ = c :: rest := by
        rw [Nat.toDigits_of_lt_base (digitValue_lt digit), digitChar_digitValue digit]
        rfl

/-- The canonical lists of digits are the numerals. -/
theorem isCanonical_iff : isCanonical cs = true ↔ ∃ n, cs = Nat.toDigits 10 n :=
  ⟨fun canonical => ⟨_, (toDigits_ofDigits canonical).symm⟩, fun ⟨n, e⟩ => e ▸ isCanonical_toDigits n⟩

/-- No array index has more than ten digits. -/
theorem length_toDigits_le (small : n ≤ maxArrayIndex) : (Nat.toDigits 10 n).length ≤ 10 := by
  rw [Nat.length_toDigits_le_iff (by decide) (by decide)]
  unfold maxArrayIndex at small
  omega

/-- A text spells an index if it is the numeral of one. -/
theorem arrayIndex?_eq_some_iff {s : String} :
    arrayIndex? s = some n ↔ n ≤ maxArrayIndex ∧ s = toString n := by
  -- Both sides speak of the decimal digits of `n`.
  have numeral : s = toString n ↔ s.toList = Nat.toDigits 10 n := by
    rw [Nat.toString_eq_repr, ← Nat.toList_repr, String.toList_inj]
  rw [numeral]
  unfold arrayIndex?
  dsimp only
  constructor
  · intro e
    split at e
    · rename_i canonical
      obtain ⟨m, digits⟩ := isCanonical_iff.1 canonical.1
      rw [digits, ofDigits_toDigits] at e
      split at e
      · rename_i small
        cases e
        exact ⟨small, digits⟩
      · cases e
    · cases e
  · rintro ⟨small, digits⟩
    have canonical := isCanonical_iff.2 ⟨n, digits⟩
    rw [digits] at canonical ⊢
    simp only [canonical, length_toDigits_le small, and_self, if_true, ofDigits_toDigits, small]

end Text

/-! ### Keys -/

namespace Heap

variable {h : Heap} {v : Value} {s : String} {i : Int}

theorem arrayIndex?_string (text : h.string? v = some s) : h.arrayIndex? v = Text.arrayIndex? s := by
  cases v with
  | object id =>
    unfold string? at text
    split at text
    · rename_i found
      cases text
      simp only [arrayIndex?, found]
    · cases text
  | _ => cases text

theorem arrayIndex?_smi (nonnegative : 0 ≤ i) : h.arrayIndex? (.smi i) = some i.toNat := by
  simp [arrayIndex?, nonnegative]

end Heap

/-- **Which keys are array indices.** A text denotes the array index `n` exactly if `n` is at most
`2 ^ 32 - 2` and the text is its decimal numeral. A small integer that is not negative and the string that
spells it therefore denote the same element, even in different heaps, and two strings with different texts
never do. -/
theorem array_index_keys :
    (∀ {s : String} {n : Nat}, Text.arrayIndex? s = some n ↔ n ≤ 2 ^ 32 - 2 ∧ s = toString n) ∧
    (∀ {g h : Heap} {i : Int} {v : Value}, 0 ≤ i → i < 2 ^ 31 → h.string? v = some (toString i) →
      g.arrayIndex? (.smi i) = some i.toNat ∧ h.arrayIndex? v = some i.toNat) ∧
    (∀ {g h : Heap} {v w : Value} {s t : String}, g.string? v = some s → h.string? w = some t → s ≠ t →
      ∀ n, g.arrayIndex? v = some n → h.arrayIndex? w ≠ some n) := by
  refine ⟨Text.arrayIndex?_eq_some_iff, ?_, ?_⟩
  · intro g h i v nonnegative small text
    obtain ⟨n, rfl⟩ := Int.eq_ofNat_of_zero_le nonnegative
    refine ⟨Heap.arrayIndex?_smi nonnegative, ?_⟩
    rw [Heap.arrayIndex?_string text, Text.arrayIndex?_eq_some_iff]
    exact ⟨by unfold Text.maxArrayIndex; omega, rfl⟩
  · intro g h v w s t textV textW different n indexV indexW
    rw [Heap.arrayIndex?_string textV, Text.arrayIndex?_eq_some_iff] at indexV
    rw [Heap.arrayIndex?_string textW, Text.arrayIndex?_eq_some_iff] at indexW
    exact different (indexV.2.trans indexW.2.symm)

/-- The greatest small integer, its numeral, and the numeral with a zero in front. -/
theorem array_index_keys_padded :
    let g := (Heap.newString "1073741823" Heap.initial).2
    let h := (Heap.newString "01073741823" Heap.initial).2
    let key : Value := .object ⟨10⟩
    g.arrayIndex? key = g.arrayIndex? (.smi 1073741823) ∧ g.arrayIndex? key = some 1073741823 ∧
      h.arrayIndex? key ≠ some 1073741823 := by
  intro g h key
  obtain ⟨-, same, apart⟩ := array_index_keys
  have text : g.string? key = some (toString (1073741823 : Int)) := by decide +kernel
  have text' : h.string? key = some "01073741823" := by decide +kernel
  obtain ⟨small, string⟩ := same (g := g) (i := 1073741823) (by decide) (by decide) text
  exact ⟨string.trans small.symm, string, apart text text' (by decide) _ string⟩

end Speculation
