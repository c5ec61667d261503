import Speculation.Proofs.Action
import Speculation.Proofs.Cache.Session
import Speculation.Proofs.Double.Numerals
import Speculation.Proofs.Feedback.Arithmetic

/-!
# Large integers as property keys

A number is a key through its text, so numbers with one text select one property. Integers of less than
22 digits are told apart as long as they fit 64 bits. Beyond that all integers of one sign select the same
property, and access through any of them is the same access (`integer_key_names`).
-/

namespace Speculation

namespace Heap

variable {h : Heap} {v w : Value} {x y : Double} {m n : Int}

/-! ### Keys with the same text -/

theorem nameOfKey_apply (key : Value) (h : Heap) :
    nameOfKey key h = (.ok ⟨h.toText key⟩, h.intern ⟨h.toText key⟩) := rfl

section SameText

variable (text : h.toText v = h.toText w) (index : h.arrayIndex? v = h.arrayIndex? w)

include text index

/-- Two keys with the same text that denote the same array index, or none, read alike. -/
theorem getKeyed_congr (receiver : Value) : getKeyed receiver v h = getKeyed receiver w h := by
  simp only [getKeyed, Computation.get_bind, text, index]
  split
  · rfl
  · cases h.arrayIndex? w with
    | some i => rfl
    | none =>
      simp only [Computation.bind_ok (nameOfKey_apply v h), Computation.bind_ok (nameOfKey_apply w h), text]

/-- They write alike as well. -/
theorem setKeyed_congr (receiver value : Value) (strict : Bool) :
    setKeyed receiver v value strict h = setKeyed receiver w value strict h := by
  simp only [setKeyed, Computation.get_bind, text, index]
  split
  · rfl
  · cases h.arrayIndex? w with
    | some i => rfl
    | none =>
      simp only [Computation.bind_ok (nameOfKey_apply v h), Computation.bind_ok (nameOfKey_apply w h), text]

end SameText

/-! ### Numbers as keys -/

/-- A number is a small integer or boxed. -/
theorem numberValue?_eq_some : h.numberValue? v = some x ↔
    (∃ i, v = .smi i ∧ x = .ofInt i) ∨ h.get? v = some (.number x) := by
  cases v with
  | smi i => simp [numberValue?, get?, Value.objectId?, eq_comm]
  | object id =>
    simp only [numberValue?, reduceCtorEq, false_and, exists_false, false_or]
    split <;> simp_all
  | _ => simp [numberValue?, get?, Value.objectId?]

/-- The text of a number that is an integer is the text of the double, for a small integer just as for a
boxed number. -/
theorem toText_of_isInteger (proper : v.isProper) (value : h.numberValue? v = some x)
    (is : x.IsInteger n) (small : n.natAbs < 10 ^ 21) : h.toText v = x.toText := by
  obtain ⟨i, rfl, rfl⟩ | box := numberValue?_eq_some.mp value
  · have bounds := Value.bounds_of_fitsSmi proper
    have within : i.natAbs < 2 ^ 52 := by omega
    obtain rfl : i = n := (Double.isInteger_ofInt within).truncate.symm.trans is.truncate
    exact ((is.toText_eq_iff small).mpr (by omega)).symm
  · simp only [toText, box]

/-- An integer that does not fit 64 bits is no array index. -/
theorem arrayIndex?_of_isInteger (proper : v.isProper) (value : h.numberValue? v = some x)
    (is : x.IsInteger n) (beyond : Double.int64Max ≤ n ∨ n ≤ Double.int64Min) :
    h.arrayIndex? v = none := by
  unfold Double.int64Max Double.int64Min at beyond
  obtain ⟨i, rfl, rfl⟩ | box := numberValue?_eq_some.mp value
  · have bounds := Value.bounds_of_fitsSmi proper
    obtain rfl : i = n := (Double.isInteger_ofInt (by omega)).truncate.symm.trans is.truncate
    omega
  · have outside : ¬ (0 ≤ n ∧ n ≤ Text.maxArrayIndex) := by
      unfold Text.maxArrayIndex
      omega
    have number : h.arrayIndex? v = indexOfNumber? x := by
      cases v with
      | object id => simp only [arrayIndex?, box]
      | _ => cases box
    rw [number, indexOfNumber?, is.truncate, decide_eq_false outside, Bool.and_false]
    rfl

end Heap

/-- **Integers as keys.** Let `x` and `y` be doubles whose values are the integers `m` and `n`, of less
than 22 digits and `m` not zero. The text of `x` is the numeral of `m` put into the range of signed 64-bit
integers, so it is the numeral of `m` exactly if `m` fits that range. A value that is the number `x` always
converts to the name with that text. The names of values for `x` and `y`, even in different heaps, are the
same if `x` and `y` are the same double, or if `m` and `n` lie at or beyond the same bound of the range, and
not otherwise. In the latter case all access through the two values is the same, whatever the receiver. -/
theorem integer_key_names {x y : Double} {m n : Int} (hx : x.IsInteger m) (hy : y.IsInteger n)
    (nonzero : m ≠ 0) (smallX : m.natAbs < 10 ^ 21) (smallY : n.natAbs < 10 ^ 21) :
    x.toText = toString (Double.saturate m) ∧
    (x.toText = toString m ↔ -(2 ^ 63) ≤ m ∧ m < 2 ^ 63) ∧
    (∀ {g h : Heap} {v w : Value}, v.isProper → w.isProper →
      g.numberValue? v = some x → h.numberValue? w = some y →
      ∃ name name', (Heap.nameOfKey v g).1 = .ok name ∧ (Heap.nameOfKey w h).1 = .ok name' ∧
        name.text = x.toText ∧ name'.text = y.toText ∧
        (name = name' ↔ x = y ∨ Double.SaturateAlike m n)) ∧
    (∀ {h : Heap} {v w : Value}, v.isProper → w.isProper →
      h.numberValue? v = some x → h.numberValue? w = some y → Double.SaturateAlike m n →
      ∀ receiver, Heap.getKeyed receiver v h = Heap.getKeyed receiver w h ∧
        ∀ value strict, Heap.setKeyed receiver v value strict h =
          Heap.setKeyed receiver w value strict h) := by
  refine ⟨hx.toText smallX, hx.toText_eq_iff smallX, ?_, ?_⟩
  · intro g h v w properV properW numberV numberW
    refine ⟨_, _, rfl, rfl, Heap.toText_of_isInteger properV numberV hx smallX,
      Heap.toText_of_isInteger properW numberW hy smallY, ?_⟩
    rw [Name.mk.injEq, Heap.toText_of_isInteger properV numberV hx smallX,
      Heap.toText_of_isInteger properW numberW hy smallY, hx.toText_inj_iff hy smallX smallY,
      hx.eq_iff hy nonzero]
  · intro h v w properV properW numberV numberW alike receiver
    -- Two keys that saturate alike have one text and no index, or the same one.
    have merged := (hx.toText_inj_iff hy smallX smallY).mpr (.inr alike)
    have text : h.toText v = h.toText w :=
      (Heap.toText_of_isInteger properV numberV hx smallX).trans
        (merged.trans (Heap.toText_of_isInteger properW numberW hy smallY).symm)
    have index : h.arrayIndex? v = h.arrayIndex? w :=
      (Heap.arrayIndex?_of_isInteger properV numberV hx alike.left).trans
        (Heap.arrayIndex?_of_isInteger properW numberW hy alike.right).symm
    exact ⟨Heap.getKeyed_congr text index receiver, Heap.setKeyed_congr text index receiver⟩

/-- The greatest double below `2 ^ 63` and the negative power `-2 ^ 53` in two heaps. -/
theorem integer_key_names_fitting :
    let x : Double := ⟨0x43dfffffffffffff⟩
    let y : Double := ⟨0xc340000000000000⟩
    let g := (Heap.boxNumber x Heap.initial).2
    let h := (Heap.boxNumber y Heap.initial).2
    let key : Value := .object ⟨10⟩
    x.IsInteger 9223372036854774784 ∧ y.IsInteger (-9007199254740992) ∧
    x.toText = toString (9223372036854774784 : Int) ∧
    g.numberValue? key = some x ∧ h.numberValue? key = some y ∧
    ∃ name name', (Heap.nameOfKey key g).1 = .ok name ∧ (Heap.nameOfKey key h).1 = .ok name' ∧
      name ≠ name' := by
  intro x y g h key
  have isX : x.IsInteger 9223372036854774784 := by decide +kernel
  have isY : y.IsInteger (-9007199254740992) := by decide +kernel
  have numberX : g.numberValue? key = some x := by decide +kernel
  have numberY : h.numberValue? key = some y := by decide +kernel
  obtain ⟨-, fits, names, -⟩ := integer_key_names isX isY (by decide) (by decide) (by decide)
  obtain ⟨name, name', made, made', -, -, same⟩ := names rfl rfl numberX numberY
  have apart : ¬ (x = y ∨ Double.SaturateAlike 9223372036854774784 (-9007199254740992)) := by decide
  exact ⟨isX, isY, fits.mpr (by decide), numberX, numberY, name, name', made, made', mt same.mp apart⟩

/-- The numbers `10 ^ 19` and `12 * 10 ^ 18` as keys of a new object: both have the text of `2 ^ 63 - 1`, and
what is stored under one is read under the other. -/
theorem large_integer_keys_merge :
    let x : Double := ⟨0x43e158e460913d00⟩
    let y : Double := ⟨0x43e4d1120d7b1600⟩
    let session := (Session.ofConfig {}).run [
      .onHeap (.boxedNumber x), .onHeap (.boxedNumber y), .onHeap .object,
      .access (.setKeyed (.object ⟨12⟩) (.object ⟨10⟩) (.smi 5) false)]
    let h := session.engine.heap
    x.IsInteger (10 ^ 19) ∧ y.IsInteger (12 * 10 ^ 18) ∧
    x.toText = "9223372036854775807" ∧ y.toText = "9223372036854775807" ∧
    (Heap.nameOfKey (.object ⟨10⟩) h).1.toOption = (Heap.nameOfKey (.object ⟨11⟩) h).1.toOption ∧
    (Heap.getKeyed (.object ⟨12⟩) (.object ⟨11⟩) h).1.toOption = some (.smi 5) := by
  decide +kernel

end Speculation
