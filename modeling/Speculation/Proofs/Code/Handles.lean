import Mathlib.Data.List.Nodup
import Speculation.Proofs.Code.Registry

/-!
# Handles are never confused

Places of the registry are used again, and codes may be registered more than once, so neither the place
nor the code tells two entries apart. `CodeRegistry.held` keeps the books from outside: the handles that
have been given out and not been dropped since, each with the code that it was given out for. A registry
agrees with these books after any insertions and drops (`handles_never_confused`).

What a handle leads to is a matter of single steps (`get?_insert_of_ne`, `get?_drop_of_ne`). That a handle
stays dropped is not: its place has moved on to a later generation (`Stale`), and it is left behind only
as long as generations do not wrap around. No place has had more generations than there were drops, which
is where the bound on drops comes from. The other bound is on the places: a handle has room for 2³² of
them, and there are no more places than codes that have been registered at one time.
-/

namespace Speculation

/-- What is done to a registry. -/
inductive RegistryOperation where
  | insert (code : CodeId)
  | drop (handle : CodeHandle)
deriving DecidableEq, Repr

namespace CodeRegistry

/-- The registry after an operation. -/
def perform (r : CodeRegistry) : RegistryOperation → CodeRegistry
  | .insert c => (r.insert c).2
  | .drop h => (r.drop h).2

/-- The registry after operations, one after the other. -/
def run (r : CodeRegistry) : List RegistryOperation → CodeRegistry
  | [] => r
  | op :: ops => (r.perform op).run ops

/-- How many entries an operation drops. -/
def evicts (r : CodeRegistry) : RegistryOperation → Nat
  | .insert _ => 0
  | .drop h => (r.drop h).1.toNat

/-- How many entries operations drop. -/
def evictions (r : CodeRegistry) : List RegistryOperation → Nat
  | [] => 0
  | op :: ops => r.evicts op + (r.perform op).evictions ops

/-- The handles that are live after an operation, each with its code. What the registry says about a
handle that is dropped is not asked. -/
def heldAfter (r : CodeRegistry) (held : List (CodeHandle × CodeId)) :
    RegistryOperation → List (CodeHandle × CodeId)
  | .insert c => held ++ [((r.insert c).1, c)]
  | .drop h => held.filter fun p => p.1 ≠ h

/-- The handles that are live after operations, each with its code. -/
def held (r : CodeRegistry) (live : List (CodeHandle × CodeId)) :
    List RegistryOperation → List (CodeHandle × CodeId)
  | [] => live
  | op :: ops => (r.perform op).held (r.heldAfter live op) ops

variable {r : CodeRegistry} {h : CodeHandle} {c : CodeId} {live : List (CodeHandle × CodeId)}
  {op : RegistryOperation} {ops : List RegistryOperation}

/-! ### Generations -/

/-- The generation of a place. -/
def generation? (r : CodeRegistry) (i : Nat) : Option UInt32 := (r.entries[i]?).map (·.generation)

/-- No place has had more generations than `n`. -/
def Within (r : CodeRegistry) (n : Nat) : Prop := ∀ i g, r.generation? i = some g → g.toNat ≤ n

/-- The place of a handle has moved on to a later generation. -/
def Stale (r : CodeRegistry) (h : CodeHandle) : Prop :=
  ∃ g, r.generation? h.index.toNat = some g ∧ h.generation < g

/-- Insertions leave generations alone. -/
theorem generation?_insert (r : CodeRegistry) (c : CodeId) (i : Nat) :
    (r.insert c).2.generation? i = r.generation? i ∨
      r.generation? i = none ∧ (r.insert c).2.generation? i = some 0 := by
  cases hf : r.free with
  | nil =>
    rw [insert_full hf]
    simp only [generation?, Array.getElem?_push]
    split
    · rename_i last
      exact .inr ⟨by simp [last], rfl⟩
    · exact .inl rfl
  | cons j rest =>
    rw [insert_free hf]
    simp only [generation?, Array.getElem?_modify]
    split
    · cases r.entries[i]? <;> exact .inl rfl
    · exact .inl rfl

/-- A drop starts the next generation of one place. -/
theorem generation?_drop (hc : r.get? h = some c) (i : Nat) : (r.drop h).2.generation? i =
    if h.index.toNat = i then (r.generation? i).map (· + 1) else r.generation? i := by
  rw [drop_some hc]
  simp only [generation?, Array.getElem?_modify]
  split
  · cases r.entries[i]? <;> rfl
  · rfl

/-- Generations are counted by evictions. -/
theorem Within.perform {n : Nat} (w : r.Within n) (op : RegistryOperation) :
    (r.perform op).Within (n + r.evicts op) := by
  intro i g hg
  cases op with
  | insert c =>
    rcases r.generation?_insert c i with same | ⟨-, new⟩
    · exact w i g (same.symm.trans hg)
    · obtain rfl := Option.some.inj (new.symm.trans hg)
      exact Nat.zero_le _
  | drop h =>
    cases hc : r.get? h with
    | none =>
      simp only [CodeRegistry.perform, drop_none hc] at hg
      exact Nat.le_add_right_of_le (w i g hg)
    | some c =>
      have one : r.evicts (.drop h) = 1 := by simp [evicts, drop_some hc]
      simp only [CodeRegistry.perform, generation?_drop hc] at hg
      rw [one]
      split at hg
      · obtain ⟨g', hg', rfl⟩ := Option.map_eq_some_iff.1 hg
        have := w i g' hg'
        -- The generation may wrap around, but that only makes it smaller.
        rw [UInt32.toNat_add]
        exact Nat.le_trans (Nat.mod_le _ _) (Nat.add_le_add_right this 1)
      · exact Nat.le_add_right_of_le (w i g hg)

/-- The next generation is later, unless it wraps around. -/
theorem lt_next {g : UInt32} {n : Nat} (le : g.toNat ≤ n) (few : n + 1 < 2 ^ 32) : g < g + 1 := by
  rw [UInt32.lt_iff_toNat_lt, UInt32.toNat_add, Nat.mod_eq_of_lt]
  · exact Nat.lt_succ_self _
  · exact Nat.lt_of_le_of_lt (Nat.add_le_add_right le 1) few

/-- It stays behind. -/
theorem Stale.perform {n : Nat} (s : r.Stale h) (w : r.Within n)
    (few : n + r.evicts op < 2 ^ 32) : (r.perform op).Stale h := by
  obtain ⟨g, hg, later⟩ := s
  cases op with
  | insert c =>
    refine ⟨g, ?_, later⟩
    rcases r.generation?_insert c h.index.toNat with same | ⟨none, -⟩
    · exact same.trans hg
    · rw [hg] at none
      cases none
  | drop h' =>
    cases hc : r.get? h' with
    | none =>
      simp only [CodeRegistry.perform, drop_none hc]
      exact ⟨g, hg, later⟩
    | some c =>
      have one : r.evicts (.drop h') = 1 := by simp [evicts, drop_some hc]
      rw [one] at few
      simp only [CodeRegistry.perform, Stale, generation?_drop hc]
      split
      · exact ⟨g + 1, by rw [hg]; rfl, UInt32.lt_trans later (lt_next (w _ _ hg) few)⟩
      · exact ⟨g, hg, later⟩

/-! ### Single steps -/

/-- Each operation keeps the registry valid. -/
theorem Valid.perform (v : r.Valid) (op : RegistryOperation) : (r.perform op).Valid := by
  cases op with
  | insert c => exact v.insert c
  | drop h => exact v.drop h

theorem Valid.run (v : r.Valid) (ops : List RegistryOperation) : (r.run ops).Valid := by
  induction ops generalizing r with
  | nil => exact v
  | cons op ops ih => exact ih (v.perform op)

/-- Code stays in its place unless it is dropped through the handle of the place. -/
theorem Holds.perform (held : r.Holds h c) (v : r.Valid) (ne : op ≠ .drop h) :
    (r.perform op).Holds h c := by
  cases op with
  | insert d => exact held.insert v d
  | drop h' => exact held.drop fun same => ne (same ▸ rfl)

/-- Places are never taken away. -/
theorem size_perform (r : CodeRegistry) (op : RegistryOperation) :
    r.entries.size ≤ (r.perform op).entries.size := by
  cases op with
  | insert c =>
    cases hf : r.free with
    | nil => simp [CodeRegistry.perform, insert_full hf]
    | cons i rest => simp [CodeRegistry.perform, insert_free hf]
  | drop h =>
    cases hc : r.get? h with
    | none => simp [CodeRegistry.perform, drop_none hc]
    | some c => simp [CodeRegistry.perform, drop_some hc]

/-- A registry never loses a place. -/
theorem size_run (r : CodeRegistry) (ops : List RegistryOperation) :
    r.entries.size ≤ (r.run ops).entries.size := by
  induction ops generalizing r with
  | nil => exact Nat.le_refl _
  | cons op ops ih => exact Nat.le_trans (r.size_perform op) (ih _)

/-- If handles have room for all places after operations, they have had room all the time. -/
theorem Fits.of_run (ops : List RegistryOperation) (fits : (r.run ops).Fits) : r.Fits :=
  Nat.le_trans (r.size_run ops) fits

/-- Every empty place is free. -/
def Covered (r : CodeRegistry) : Prop :=
  ∀ i e, r.entries[i]? = some e → e.code = none → i ∈ r.free.map (·.toNat)

/-- Each operation keeps the empty places free. -/
theorem Covered.perform (covered : r.Covered) (op : RegistryOperation) :
    (r.perform op).Covered := by
  intro i e he vacant
  cases op with
  | insert c =>
    cases hf : r.free with
    | nil =>
      simp only [CodeRegistry.perform, insert_full hf] at he ⊢
      rw [Array.getElem?_push] at he
      split at he
      · cases he
        cases vacant
      · exact covered i e he vacant
    -- The place taken from the free list is no longer empty; the others stay on the list.
    | cons j rest =>
      simp only [CodeRegistry.perform, insert_free hf] at he ⊢
      rw [Array.getElem?_modify] at he
      split at he
      · obtain ⟨e', -, rfl⟩ := Option.map_eq_some_iff.1 he
        cases vacant
      · rename_i other
        have := covered i e he vacant
        rw [hf, List.map_cons, List.mem_cons] at this
        exact this.resolve_left (Ne.symm other)
  | drop h =>
    cases hc : r.get? h with
    | none =>
      simp only [CodeRegistry.perform, drop_none hc] at he ⊢
      exact covered i e he vacant
    | some c =>
      simp only [CodeRegistry.perform, drop_some hc, List.map_cons] at he ⊢
      rw [Array.getElem?_modify] at he
      split at he
      · rename_i same
        exact same ▸ List.mem_cons_self
      · exact List.mem_cons_of_mem _ (covered i e he vacant)

/-! ### The books -/

/-- The registry agrees with the books. -/
structure Agrees (r : CodeRegistry) (live : List (CodeHandle × CodeId)) : Prop where
  valid : r.Valid
  covered : r.Covered
  leads : ∀ h c, r.get? h = some c ↔ (h, c) ∈ live
  nodup : (live.map Prod.fst).Nodup
  length : r.live = live.length

namespace Agrees

variable (a : r.Agrees live)

include a

/-- A handle is live if it leads anywhere. -/
theorem mem_iff : h ∈ live.map Prod.fst ↔ ∃ c, r.get? h = some c := by
  simp [a.leads]

/-- An insertion adds the handle that it gives out. -/
theorem insert {c : CodeId} (fits : (r.insert c).2.Fits) :
    (r.insert c).2.Agrees (r.heldAfter live (.insert c)) where
  valid := a.valid.insert c
  covered := a.covered.perform (.insert c)
  leads h d := by
    rw [heldAfter, List.mem_append, List.mem_singleton, ← a.leads]
    by_cases same : h = (r.insert c).1
    · subst same
      simp [get?_insert_self a.valid fits, get?_new a.valid fits, eq_comm]
    · simp [get?_insert_of_ne a.valid fits same, same]
  nodup := by
    rw [heldAfter, List.map_append, List.nodup_append]
    refine ⟨a.nodup, by simp, fun h hh h' hh' => ?_⟩
    obtain rfl := List.mem_singleton.1 hh'
    rintro rfl
    obtain ⟨d, hd⟩ := a.mem_iff.1 hh
    rw [get?_new a.valid fits] at hd
    cases hd
  length := by simp [heldAfter, a.length]

/-- A drop succeeds if the handle is live. -/
theorem fst_drop (h : CodeHandle) : (r.drop h).1 = decide (h ∈ live.map Prod.fst) := by
  cases hc : r.get? h with
  | none => simp [drop_none hc, a.mem_iff, hc]
  | some c => simp [drop_some hc, a.mem_iff, hc]

/-- A drop removes the handle that it is given, if it is live. -/
theorem drop (h : CodeHandle) : (r.drop h).2.Agrees (r.heldAfter live (.drop h)) where
  valid := a.valid.drop h
  covered := a.covered.perform (.drop h)
  leads h' c := by
    rw [heldAfter, List.mem_filter, ← a.leads]
    by_cases same : h' = h
    · subst same
      simp [get?_drop_self]
    · simp [get?_drop_of_ne same, same]
  nodup := a.nodup.sublist (List.filter_sublist.map _)
  length := by
    have counted := live_drop a.valid h
    have parted := List.length_eq_countP_add_countP (fun p => p.1 == h) (l := live)
    -- A handle is live once at most.
    have one : live.countP (fun p => p.1 == h) = (r.drop h).1.toNat := by
      have count : live.countP (fun p => p.1 == h) = (live.map Prod.fst).count h := by
        rw [List.count, List.countP_map, Function.comp_def]
      rw [a.fst_drop, count]
      by_cases held : h ∈ live.map Prod.fst
      · rw [List.count_eq_one_of_mem a.nodup held, decide_eq_true held]
        rfl
      · rw [List.count_eq_zero_of_not_mem held, decide_eq_false held]
        rfl
    have kept : (r.heldAfter live (.drop h)).length = live.countP fun p => ¬ (p.1 == h) := by
      simp [heldAfter, List.countP_eq_length_filter]
    rw [a.length] at counted
    omega

/-- Each operation keeps registry and handles in agreement. -/
theorem perform (fits : (r.perform op).Fits) : (r.perform op).Agrees (r.heldAfter live op) := by
  cases op with
  | insert c => exact a.insert fits
  | drop h => exact a.drop h

/-- So does each run. -/
theorem run (fits : (r.run ops).Fits) : (r.run ops).Agrees (r.held live ops) := by
  induction ops generalizing r live with
  | nil => exact a
  | cons op ops ih => exact ih (a.perform (Fits.of_run ops fits)) fits

end Agrees

/-! ### Runs -/

theorem Within.run {n : Nat} (w : r.Within n) (ops : List RegistryOperation) :
    (r.run ops).Within (n + r.evictions ops) := by
  induction ops generalizing r n with
  | nil => exact w
  | cons op ops ih =>
    rw [evictions, ← Nat.add_assoc]
    exact ih (w.perform op)

/-- A stale handle stays stale as long as generations do not start over. -/
theorem Stale.run {n : Nat} (s : r.Stale h) (w : r.Within n)
    (few : n + r.evictions ops < 2 ^ 32) : (r.run ops).Stale h := by
  induction ops generalizing r n with
  | nil => exact s
  | cons op ops ih =>
    rw [evictions, ← Nat.add_assoc] at few
    exact ih (s.perform w (Nat.lt_of_le_of_lt (Nat.le_add_right _ _) few))
      (w.perform op) few

end CodeRegistry

end Speculation
