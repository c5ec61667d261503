import Speculation.Code.Registry

/-!
# Handles of code that has been given up

Code stays in its place until it is dropped through the handle of this very place: a place is
used again only when it is empty, and what is dropped through another handle is another entry
(`Holds.insert`, `Holds.drop`). The number of live entries goes up by one with every insertion and
down by one with every successful drop (`live_insert`, `live_drop`).

A handle has 32 bits for its place. The handle leads to the code as long as the places are no more
than that (`Fits.get?_eq_some_iff`); from then on the handles of two places look the same. Generations
of places wrap around as well, so a handle that was dropped may be given out again. Nothing here says
that handles are new.
-/

namespace Speculation

namespace CodeRegistry

variable {r : CodeRegistry} {h h' : CodeHandle} {c d : CodeId}

/-- The free places are distinct and empty, and the live entries are counted. -/
structure Valid (r : CodeRegistry) : Prop where
  nodup : r.free.Nodup
  empty : ∀ i ∈ r.free, ∃ e, r.entries[i.toNat]? = some e ∧ e.code = none
  live : r.live = r.entries.countP (·.code.isSome)

theorem valid_empty : ({} : CodeRegistry).Valid := ⟨.nil, nofun, rfl⟩

/-- One entry changes: the count changes by what it was and by what it becomes. -/
theorem countP_modify {entries : Array RegistryEntry} {i : Nat} {e : RegistryEntry}
    (he : entries[i]? = some e) (f : RegistryEntry → RegistryEntry) (p : RegistryEntry → Bool) :
    (entries.modify i f).countP p + (if p e then 1 else 0) =
      entries.countP p + (if p (f e) then 1 else 0) := by
  obtain ⟨hi, rfl⟩ := Array.getElem?_eq_some_iff.1 he
  have same : entries.modify i f = entries.set i (f entries[i]) := by
    ext j hj hj'
    · simp
    · simp only [Array.getElem_modify, Array.getElem_set]
      split
      · subst i
        rfl
      · rfl
  rw [same, Array.countP_set]
  -- The old entry has been counted if it satisfies the test.
  have counted : p entries[i] → 0 < entries.countP p := fun h =>
    Array.countP_pos_iff.2 ⟨_, Array.getElem_mem hi, h⟩
  split
  · have := counted ‹_›
    omega
  · omega

/-- A handle is its place and its generation. -/
theorem eq_of_parts (index : h.index = h'.index) (generation : h.generation = h'.generation) :
    h = h' := by
  cases h
  cases h'
  exact CodeHandle.mk.injEq .. ▸ ⟨index, generation⟩

/-- What it means that a handle leads to code. -/
theorem get?_eq_some :
    r.get? h = some c ↔
      ∃ e, r.entries[h.index.toNat]? = some e ∧ e.generation = h.generation ∧ e.code = some c := by
  unfold get?
  cases r.entries[h.index.toNat]? with
  | none => simp
  | some e => simp

/-- Free places are behind no handle. -/
theorem Valid.ne_of_mem_free (v : r.Valid) {i : UInt32} (hi : i ∈ r.free) (hc : r.get? h = some c) :
    i ≠ h.index := by
  rintro rfl
  obtain ⟨e, he, -, live⟩ := get?_eq_some.1 hc
  obtain ⟨e', he', vacant⟩ := v.empty _ hi
  obtain rfl := Option.some.inj (he.symm.trans he')
  rw [live] at vacant
  cases vacant

/-- The code is in a place of the registry, and this is the handle of the place. -/
def Holds (r : CodeRegistry) (h : CodeHandle) (c : CodeId) : Prop :=
  ∃ i e, r.entries[i]? = some e ∧ e.code = some c ∧ h = ⟨.ofNat i, e.generation⟩

/-- Code that is in some place is registered. -/
theorem Holds.contains (held : r.Holds h c) : r.contains c := by
  obtain ⟨i, e, he, live, -⟩ := held
  rw [CodeRegistry.contains, List.any_eq_true]
  exact ⟨e, Array.mem_toList_iff.2 (Array.mem_of_getElem? he), by simp [live]⟩

/-- What a handle leads to is held there. -/
theorem holds_of_get? (hc : r.get? h = some c) : r.Holds h c := by
  obtain ⟨e, he, generation, live⟩ := get?_eq_some.1 hc
  exact ⟨h.index.toNat, e, he, live, eq_of_parts UInt32.ofNat_toNat.symm generation.symm⟩

/-- Handles have room for all places. -/
def Fits (r : CodeRegistry) : Prop := r.entries.size ≤ 2 ^ 32

/-- A place can be read off from its handle. -/
theorem Fits.toNat_ofNat (fits : r.Fits) {i : Nat} (hi : i < r.entries.size) :
    (UInt32.ofNat i).toNat = i :=
  UInt32.toNat_ofNat_of_lt' (Nat.lt_of_lt_of_le hi fits)

/-- What a handle leads to is what is in its place. -/
theorem Fits.get?_eq_some_iff (fits : r.Fits) : r.get? h = some c ↔ r.Holds h c := by
  refine ⟨holds_of_get?, fun ⟨i, e, he, live, same⟩ => get?_eq_some.2 ⟨e, ?_, ?_, live⟩⟩
  · rw [same, fits.toNat_ofNat (Array.getElem?_eq_some_iff.1 he).1, he]
  · rw [same]

/-! ### Inserting -/

/-- A free place is used again, with its generation. -/
theorem insert_free {i : UInt32} {rest : List UInt32} (hf : r.free = i :: rest) (c : CodeId) :
    r.insert c = (⟨i, (r.entries.getD i.toNat default).generation⟩,
      { entries := r.entries.modify i.toNat fun e => { e with code := some c }
        free := rest, live := r.live + 1 }) := by
  simp [insert, hf]

/-- Without a free place a new one is added. -/
theorem insert_full (hf : r.free = []) (c : CodeId) :
    r.insert c = (⟨.ofNat r.entries.size, 0⟩,
      { r with entries := r.entries.push ⟨some c, 0⟩, live := r.live + 1 }) := by
  simp [insert, hf]

@[simp] theorem live_insert (r : CodeRegistry) (c : CodeId) :
    (r.insert c).2.live = r.live + 1 := by
  cases hf : r.free with
  | nil => rw [insert_full hf]
  | cons i rest => rw [insert_free hf]

/-- An insertion keeps the registry valid. -/
theorem Valid.insert (v : r.Valid) (c : CodeId) : (r.insert c).2.Valid := by
  cases hf : r.free with
  | nil =>
    rw [insert_full hf]
    exact ⟨v.nodup, by simp [hf], by simp [v.live]⟩
  | cons i rest =>
    rw [insert_free hf]
    have nodup := List.nodup_cons.1 (hf ▸ v.nodup)
    obtain ⟨e, he, vacant⟩ := v.empty i (by simp [hf])
    refine ⟨nodup.2, fun j hj => ?_, ?_⟩
    · -- The other free places are not touched.
      obtain ⟨e', he', vacant'⟩ := v.empty j (by simp [hf, hj])
      have hij : i.toNat ≠ j.toNat := fun e => nodup.1 (UInt32.toNat_inj.1 e ▸ hj)
      exact ⟨e', by simp [Array.getElem?_modify, hij, he'], vacant'⟩
    · have count := countP_modify he (fun e => { e with code := some c }) (·.code.isSome)
      simp only [vacant, Option.isSome_none, Option.isSome_some, if_true] at count
      simpa [v.live] using count.symm

/-- The code is in the place of the new handle. -/
theorem Valid.holds_insert (v : r.Valid) (c : CodeId) : (r.insert c).2.Holds (r.insert c).1 c := by
  cases hf : r.free with
  | nil =>
    rw [insert_full hf]
    exact ⟨r.entries.size, ⟨some c, 0⟩, by simp, rfl, rfl⟩
  | cons i rest =>
    rw [insert_free hf]
    obtain ⟨e, he, -⟩ := v.empty i (by simp [hf])
    exact ⟨i.toNat, { e with code := some c }, by simp [Array.getElem?_modify, he], rfl,
      eq_of_parts UInt32.ofNat_toNat.symm (by simp [he])⟩

/-- Code that is in a place stays there: the new place was empty. -/
theorem Holds.insert (held : r.Holds h c) (v : r.Valid) (d : CodeId) :
    (r.insert d).2.Holds h c := by
  obtain ⟨i, e, he, live, same⟩ := held
  refine ⟨i, e, ?_, live, same⟩
  cases hf : r.free with
  | nil =>
    rw [insert_full hf, Array.getElem?_push, if_neg, he]
    exact Nat.ne_of_lt (Array.getElem?_eq_some_iff.1 he).1
  | cons j rest =>
    rw [insert_free hf, Array.getElem?_modify, if_neg, he]
    rintro rfl
    obtain ⟨e', he', vacant⟩ := v.empty j (by simp [hf])
    obtain rfl := Option.some.inj (he.symm.trans he')
    rw [live] at vacant
    cases vacant

/-- The new handle leads to the code. -/
theorem get?_insert_self (v : r.Valid) {c : CodeId} (fits : (r.insert c).2.Fits) :
    (r.insert c).2.get? (r.insert c).1 = some c :=
  fits.get?_eq_some_iff.2 (v.holds_insert c)

/-- The new place, if it is at the end, can be told from the others. -/
theorem toNat_new (hf : r.free = []) {c : CodeId} (fits : (r.insert c).2.Fits) :
    (UInt32.ofNat r.entries.size).toNat = r.entries.size := by
  refine fits.toNat_ofNat ?_
  simp [insert_full hf]

/-- The new handle has led nowhere. -/
theorem get?_new (v : r.Valid) {c : CodeId} (fits : (r.insert c).2.Fits) :
    r.get? (r.insert c).1 = none := by
  cases hf : r.free with
  | nil =>
    have index := toNat_new hf fits
    rw [insert_full hf]
    simp only [get?, index, Array.getElem?_size]
  | cons i rest =>
    rw [insert_free hf]
    obtain ⟨e, he, vacant⟩ := v.empty i (by simp [hf])
    simp [get?, he, vacant]

/-- The other handles lead where they did. -/
theorem get?_insert_of_ne (v : r.Valid) (fits : (r.insert d).2.Fits) (ne : h ≠ (r.insert d).1) :
    (r.insert d).2.get? h = r.get? h := by
  cases hf : r.free with
  | nil =>
    have index := toNat_new hf fits
    rw [insert_full hf] at ne ⊢
    by_cases last : h.index.toNat = r.entries.size
    · -- The new place has only its first generation.
      have other : (0 : UInt32) ≠ h.generation := fun same =>
        ne (eq_of_parts (UInt32.toNat_inj.1 (last.trans index.symm)) same.symm)
      simp [get?, last, other]
    · simp [get?, Array.getElem?_push, last]
  | cons i rest =>
    rw [insert_free hf] at ne ⊢
    by_cases same : i = h.index
    · obtain ⟨e, he, vacant⟩ := v.empty i (by simp [hf])
      have other : e.generation ≠ h.generation := fun generation =>
        ne (eq_of_parts same.symm (by simp [he, generation]))
      simp [get?, Array.getElem?_modify, ← same, he, other]
    · have same : i.toNat ≠ h.index.toNat := fun e => same (UInt32.toNat_inj.1 e)
      simp [get?, Array.getElem?_modify, same]

/-! ### Dropping -/

/-- A handle that leads nowhere drops nothing. -/
theorem drop_none (hc : r.get? h = none) : r.drop h = (false, r) := by
  simp [drop, hc]

/-- A handle that leads somewhere empties its place, which is free from then on. -/
theorem drop_some (hc : r.get? h = some c) :
    r.drop h = (true,
      { entries := r.entries.modify h.index.toNat fun e =>
          { code := none, generation := e.generation + 1 }
        free := h.index :: r.free
        live := r.live - 1 }) := by
  simp [drop, hc]

/-- A drop that succeeds is one live handle less. -/
theorem live_drop (v : r.Valid) (h : CodeHandle) :
    (r.drop h).2.live + (r.drop h).1.toNat = r.live := by
  cases hc : r.get? h with
  | none => simp [drop_none hc]
  | some c =>
    obtain ⟨e, he, -, live⟩ := get?_eq_some.1 hc
    have counted : 0 < r.live := by
      rw [v.live, Array.countP_pos_iff]
      exact ⟨e, Array.mem_of_getElem? he, by simp [live]⟩
    rw [drop_some hc, Bool.toNat_true]
    exact Nat.sub_add_cancel counted

/-- A drop keeps the registry valid. -/
theorem Valid.drop (v : r.Valid) (h : CodeHandle) : (r.drop h).2.Valid := by
  cases hc : r.get? h with
  | none => rwa [drop_none hc]
  | some c =>
    obtain ⟨e, he, -, live⟩ := get?_eq_some.1 hc
    rw [drop_some hc]
    have occupied : h.index ∉ r.free := fun hi => v.ne_of_mem_free hi hc rfl
    refine ⟨List.nodup_cons.2 ⟨occupied, v.nodup⟩, fun i hi => ?_, ?_⟩
    · rcases List.mem_cons.1 hi with rfl | hi
      · exact ⟨⟨none, e.generation + 1⟩, by simp [Array.getElem?_modify, he], rfl⟩
      · obtain ⟨e', he', vacant⟩ := v.empty i hi
        have hij : h.index.toNat ≠ i.toNat := fun e => occupied (UInt32.toNat_inj.1 e ▸ hi)
        exact ⟨e', by simp [Array.getElem?_modify, hij, he'], vacant⟩
    · have count := countP_modify he (fun e => { code := none, generation := e.generation + 1 })
        (·.code.isSome)
      simp only [live, Option.isSome_none, Option.isSome_some, if_true] at count
      simp only [Bool.false_eq_true, if_false] at count
      rw [v.live]
      exact Nat.sub_eq_of_eq_add count.symm

/-- A handle that was dropped leads nowhere. -/
theorem get?_drop_self (r : CodeRegistry) (h : CodeHandle) : (r.drop h).2.get? h = none := by
  cases hc : r.get? h with
  | none => rwa [drop_none hc]
  | some c =>
    rw [drop_some hc]
    simp only [get?, Array.getElem?_modify, if_true]
    cases r.entries[h.index.toNat]? <;> simp

/-- Dropping through one handle leaves the others. -/
theorem get?_drop_of_ne (ne : h ≠ h') : (r.drop h').2.get? h = r.get? h := by
  cases hc : r.get? h' with
  | none => rw [drop_none hc]
  | some c =>
    obtain ⟨e, he, generation, -⟩ := get?_eq_some.1 hc
    rw [drop_some hc]
    by_cases same : h'.index = h.index
    · -- Handles of one place and one generation are the same.
      have other : e.generation ≠ h.generation := fun generation' =>
        ne (eq_of_parts same.symm (generation'.symm.trans generation))
      simp [get?, Array.getElem?_modify, same, other, same ▸ he]
    · have same : h'.index.toNat ≠ h.index.toNat := fun e => same (UInt32.toNat_inj.1 e)
      simp [get?, Array.getElem?_modify, same]

/-- Code is taken out of its place through no other handle. -/
theorem Holds.drop (held : r.Holds h c) (ne : h' ≠ h) : (r.drop h').2.Holds h c := by
  obtain ⟨i, e, he, live, same⟩ := held
  refine ⟨i, e, ?_, live, same⟩
  cases hc : r.get? h' with
  | none => rw [drop_none hc, he]
  | some d =>
    rw [drop_some hc, Array.getElem?_modify, if_neg, he]
    rintro rfl
    obtain ⟨e', he', generation, -⟩ := get?_eq_some.1 hc
    obtain rfl := Option.some.inj (he.symm.trans he')
    exact ne (same ▸ eq_of_parts UInt32.ofNat_toNat.symm generation.symm)

end CodeRegistry

end Speculation
