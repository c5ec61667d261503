import Mathlib.Data.Finset.Card
import Mathlib.Data.Nat.Find

/-!
# Following successors

A partial function `next` is followed from a place to its successor, the successor of that, and so on.
Either this ends at a place without a successor, or it goes on forever. Where only finitely many places
have a successor, it ends after at most as many steps, or not at all (`not_pathEnds_of_long`).

A redirection gives one place `a` another successor `b`. If all paths ended before, they still do exactly
if the path from `b` did not lead to `a` (`pathEnds_redirected_iff`).
-/

namespace Speculation

variable {α : Type} {next next' : α → Option α} {x y a b : α} {m n : Nat}

/-- The place after `n` steps. -/
def follow (next : α → Option α) : Nat → α → Option α
  | 0, x => some x
  | n + 1, x => (next x).bind (follow next n)

/-- Steps add up. -/
theorem follow_add (m n : Nat) (x : α) :
    follow next (m + n) x = (follow next m x).bind (follow next n) := by
  induction m generalizing x with
  | zero => simp [follow]
  | succ m ih =>
    rw [Nat.add_right_comm, follow, follow]
    cases next x with
    | none => rfl
    | some y => exact ih y

theorem follow_succ (n : Nat) (x : α) : follow next (n + 1) x = (follow next n x).bind next := by
  rw [follow_add]
  congr
  funext y
  rw [follow]
  cases next y <;> rfl

/-- A path that goes on has gone on before. -/
theorem isSome_follow_of_le (le : m ≤ n) (long : (follow next n x).isSome) :
    (follow next m x).isSome := by
  obtain ⟨k, rfl⟩ := Nat.exists_eq_add_of_le le
  rw [follow_add] at long
  exact Option.isSome_of_isSome_bind long

/-- Two functions lead the same way as long as they agree on it. -/
theorem follow_congr (same : ∀ m < n, ∀ y, follow next m x = some y → next' y = next y) :
    follow next' n x = follow next n x := by
  induction n with
  | zero => rfl
  | succ n ih =>
    rw [follow_succ, follow_succ, ih fun m hm => same m (Nat.lt_succ_of_lt hm)]
    cases e : follow next n x with
    | none => rfl
    | some y => exact same n (Nat.lt_succ_self n) y e

/-! ### PathEnds -/

/-- The path ends at a place without a successor. -/
def PathEnds (next : α → Option α) (x : α) : Prop := ∃ n y, follow next n x = some y ∧ next y = none

theorem pathEnds_iff : PathEnds next x ↔ ∃ n, follow next n x = none := by
  constructor
  · rintro ⟨n, y, at_end, none⟩
    exact ⟨n + 1, by rw [follow_succ, at_end, Option.bind_some, none]⟩
  · intro stops
    -- The last place is the one before the first step that leads nowhere.
    cases least : Nat.find stops with
    | zero =>
      have := Nat.find_spec stops
      rw [least] at this
      cases this
    | succ n =>
      have last : follow next n x ≠ none := Nat.find_min stops (least ▸ Nat.lt_succ_self n)
      obtain ⟨y, hy⟩ := Option.ne_none_iff_exists'.mp last
      have stops := Nat.find_spec stops
      rw [least, follow_succ, hy, Option.bind_some] at stops
      exact ⟨n, y, hy, stops⟩

theorem not_pathEnds_iff : ¬ PathEnds next x ↔ ∀ n, (follow next n x).isSome := by
  simp only [pathEnds_iff, not_exists, Option.isSome_iff_ne_none, ne_eq]

/-- A path ends if the rest of it does. -/
theorem pathEnds_of_follow (e : follow next n x = some y) : PathEnds next x ↔ PathEnds next y := by
  rw [pathEnds_iff, pathEnds_iff]
  constructor
  · rintro ⟨m, stops⟩
    refine ⟨m, ?_⟩
    have later : follow next (n + m) x = none := by
      by_contra goes
      have := isSome_follow_of_le (Nat.le_add_left m n) (Option.isSome_iff_ne_none.mpr goes)
      simp [stops] at this
    rwa [follow_add, e, Option.bind_some] at later
  · rintro ⟨m, stops⟩
    exact ⟨n + m, by rw [follow_add, e, Option.bind_some, stops]⟩

/-- A path is a matter of the steps on it. -/
theorem pathEnds_congr (same : ∀ n y, follow next n x = some y → next' y = next y) :
    PathEnds next' x ↔ PathEnds next x := by
  rw [pathEnds_iff, pathEnds_iff]
  exact exists_congr fun n => by rw [follow_congr fun m _ => same m]

/-- Who comes back goes on forever. -/
theorem not_pathEnds_of_return (back : follow next (n + 1) x = some x) : ¬ PathEnds next x := by
  have rounds (k : Nat) : follow next ((n + 1) * k) x = some x := by
    induction k with
    | zero => rfl
    | succ k ih => rw [Nat.mul_succ, follow_add, ih, Option.bind_some, back]
  refine not_pathEnds_iff.mpr fun k => isSome_follow_of_le (Nat.le_mul_of_pos_left k n.succ_pos) ?_
  rw [rounds]
  rfl

/-- A path that is longer than the number of places with a successor comes back to a place. -/
theorem not_pathEnds_of_long {s : Finset α}
    (mem : ∀ n y, follow next n x = some y → (next y).isSome → y ∈ s)
    (long : (follow next (s.card + 1) x).isSome) : ¬ PathEnds next x := by
  have place (k : Nat) (hk : k < s.card + 1) : ∃ y ∈ s, follow next k x = some y := by
    have goes := isSome_follow_of_le (Nat.succ_le_of_lt hk) long
    rw [follow_succ] at goes
    obtain ⟨y, hy⟩ := Option.isSome_iff_exists.mp (Option.isSome_of_isSome_bind goes)
    rw [hy, Option.bind_some] at goes
    exact ⟨y, mem k y hy goes, hy⟩
  have fewer : s.card < (Finset.range (s.card + 1)).card := by
    rw [Finset.card_range]
    exact Nat.lt_succ_self _
  obtain ⟨i, hi, j, hj, apart, same⟩ := Finset.exists_ne_map_eq_of_card_lt_of_maps_to fewer
    (f := fun k => (follow next k x).getD x) fun k hk => by
      obtain ⟨y, hy, e⟩ := place k (Finset.mem_range.mp hk)
      simpa [e] using hy
  -- The earlier visit of the place leads to the later one.
  have comes_back {i j : Nat} (less : i < j) (hi : i < s.card + 1) (hj : j < s.card + 1)
      (same : (follow next i x).getD x = (follow next j x).getD x) : ¬ PathEnds next x := by
    obtain ⟨y, -, ey⟩ := place i hi
    obtain ⟨z, -, ez⟩ := place j hj
    obtain rfl : y = z := by simpa [ey, ez] using same
    obtain ⟨k, rfl⟩ := Nat.exists_eq_add_of_lt less
    rw [Nat.add_assoc, follow_add, ey, Option.bind_some] at ez
    exact fun ends => not_pathEnds_of_return ez ((pathEnds_of_follow ey).mp ends)
  rcases Nat.lt_or_gt_of_ne apart with less | more
  · exact comes_back less (Finset.mem_range.mp hi) (Finset.mem_range.mp hj) same
  · exact comes_back more (Finset.mem_range.mp hj) (Finset.mem_range.mp hi) same.symm

/-- So a path that ends is no longer than that. -/
theorem PathEnds.within {s : Finset α} (ends : PathEnds next x)
    (mem : ∀ n y, follow next n x = some y → (next y).isSome → y ∈ s) :
    ∃ n ≤ s.card, ∃ y, follow next n x = some y ∧ next y = none := by
  obtain ⟨n, y, e, stops⟩ := ends
  refine ⟨n, ?_, y, e, stops⟩
  by_contra more
  exact not_pathEnds_of_long mem (isSome_follow_of_le (Nat.lt_of_not_le more) (by rw [e]; rfl))
    ⟨n, y, e, stops⟩

/-! ### Redirections -/

section Redirected

variable (redirected : next' a = some b) (others : ∀ y, y ≠ a → next' y = next y)

include others

/-- The first visit of `a` is the same after a redirection. -/
theorem follow_redirected (visit : follow next n x = some a) : ∃ n, follow next' n x = some a := by
  classical
  have visits : ∃ n, follow next n x = some a := ⟨n, visit⟩
  refine ⟨Nat.find visits, (follow_congr fun m hm y hy => others y ?_).trans (Nat.find_spec visits)⟩
  rintro rfl
  exact Nat.find_min visits hm hy

include redirected

/-- One step that is redirected leaves all paths finite unless it leads back to itself. -/
theorem pathEnds_redirected_iff (ends : ∀ x, PathEnds next x) :
    (∀ x, PathEnds next' x) ↔ ∀ n, follow next n b ≠ some a := by
  constructor
  · intro ends' n visit
    obtain ⟨k, back⟩ := follow_redirected others visit
    refine not_pathEnds_of_return (n := k) (x := a) ?_ (ends' a)
    rw [follow, redirected, Option.bind_some, back]
  · intro avoids x
    have ends_b : PathEnds next' b :=
      (pathEnds_congr fun n y hy => others y fun e => avoids n (e ▸ hy)).mpr (ends b)
    by_cases visits : ∃ n, follow next n x = some a
    · obtain ⟨n, visit⟩ := visits
      obtain ⟨k, visit'⟩ := follow_redirected others visit
      have step : follow next' 1 a = some b := by rw [follow, redirected, Option.bind_some, follow]
      exact (pathEnds_of_follow visit').mpr ((pathEnds_of_follow step).mpr ends_b)
    · exact (pathEnds_congr fun n y hy => others y fun e => visits ⟨n, e ▸ hy⟩).mpr (ends x)

end Redirected

end Speculation
