import Speculation.Fault

/-!
# Computations as functions of their state

Operations on the heap, at a site, on a cursor and on frames under construction are all written
in `ExceptT Fault (StateM σ)`: functions from a state to a result and a new state, which is there
also if the result is a fault. The laws below run such a computation from a given state.

`bind_rel` is the law that carries invariants: a relation between the states before and after
passes through a sequence of computations if it is transitive, and the second computation may
assume that the first one succeeded.
-/

namespace Speculation

namespace Computation

variable {σ α β : Type}

@[simp] theorem pure_apply (x : α) (s : σ) :
    (pure x : ExceptT Fault (StateM σ) α) s = (.ok x, s) := rfl

@[simp] theorem throw_apply (e : Fault) (s : σ) :
    (throw e : ExceptT Fault (StateM σ) α) s = (.error e, s) := rfl

@[simp] theorem get_apply (s : σ) : (get : ExceptT Fault (StateM σ) σ) s = (.ok s, s) := rfl

@[simp] theorem set_apply (s t : σ) :
    (set t : ExceptT Fault (StateM σ) PUnit) s = (.ok ⟨⟩, t) := rfl

@[simp] theorem modify_apply (f : σ → σ) (s : σ) :
    (modify f : ExceptT Fault (StateM σ) PUnit) s = (.ok ⟨⟩, f s) := rfl

@[simp] theorem liftM_apply (e : Except Fault α) (s : σ) :
    (liftM e : ExceptT Fault (StateM σ) α) s = (e, s) := rfl

theorem except_eq_ok_of_toOption {x : Except Fault α} {y : α} (h : x.toOption = some y) :
    x = .ok y := by
  cases x with
  | error e => cases h
  | ok z => exact congrArg Except.ok (Option.some.inj h)

/-- A computation whose result is known ran to its end. -/
theorem eq_ok_of_toOption {r : Except Fault α × σ} {x : α} (h : r.1.toOption = some x) :
    r = (.ok x, r.2) := by
  obtain ⟨e, s⟩ := r
  cases e with
  | error e => cases h
  | ok y =>
    cases h
    rfl

/-- A computation is known by its fault where the value does not matter. -/
theorem eq_error_of_map {r : Except Fault α × σ} {e : Fault}
    (h : r.1.map (fun _ => ()) = .error e) : r = (.error e, r.2) := by
  obtain ⟨x, s⟩ := r
  cases x with
  | error f =>
    cases h
    rfl
  | ok x => cases h

theorem pure_eq_ok {x y : α} {s t : σ}
    (h : (pure x : ExceptT Fault (StateM σ) α) s = (.ok y, t)) : x = y ∧ s = t := by
  cases h
  exact ⟨rfl, rfl⟩

variable {a : ExceptT Fault (StateM σ) α} {f : α → ExceptT Fault (StateM σ) β} {s t : σ}

theorem bind_ok {x : α} (h : a s = (.ok x, t)) : (a >>= f) s = f x t := by
  change (ExceptT.bind a f) s = _
  simp only [ExceptT.bind, ExceptT.mk, bind, StateT.bind, h, ExceptT.bindCont]

theorem bind_error {e : Fault} (h : a s = (.error e, t)) : (a >>= f) s = (.error e, t) := by
  change (ExceptT.bind a f) s = _
  simp only [ExceptT.bind, ExceptT.mk, bind, StateT.bind, h, ExceptT.bindCont]
  rfl

/-- A sequence runs its second part where the first one ended, unless that failed. -/
theorem bind_apply (a : ExceptT Fault (StateM σ) α) (f : α → ExceptT Fault (StateM σ) β) (s : σ) :
    (a >>= f) s = match a s with
      | (.ok x, t) => f x t
      | (.error e, t) => (.error e, t) := by
  rcases h : a s with ⟨_ | x, t⟩
  · exact bind_error h
  · exact bind_ok h

@[simp] theorem get_bind (f : σ → ExceptT Fault (StateM σ) β) (s : σ) :
    ((get : ExceptT Fault (StateM σ) σ) >>= f) s = f s s := rfl

@[simp] theorem set_bind (f : PUnit → ExceptT Fault (StateM σ) β) (s t : σ) :
    ((set t : ExceptT Fault (StateM σ) PUnit) >>= f) s = f ⟨⟩ t := rfl

@[simp] theorem modify_bind (g : σ → σ) (f : PUnit → ExceptT Fault (StateM σ) β) (s : σ) :
    ((modify g : ExceptT Fault (StateM σ) PUnit) >>= f) s = f ⟨⟩ (g s) := rfl

@[simp] theorem pure_bind_apply (x : α) (f : α → ExceptT Fault (StateM σ) β) (s : σ) :
    ((pure x : ExceptT Fault (StateM σ) α) >>= f) s = f x s := rfl

@[simp] theorem liftM_ok_bind (x : α) (f : α → ExceptT Fault (StateM σ) β) (s : σ) :
    ((liftM (Except.ok x : Except Fault α) : ExceptT Fault (StateM σ) α) >>= f) s = f x s := rfl

/-- A successful sequence is a success of its first part and then of its second part. -/
theorem bind_eq_ok {y : β} (h : (a >>= f) s = (.ok y, t)) :
    ∃ x u, a s = (.ok x, u) ∧ f x u = (.ok y, t) := by
  rcases ha : a s with ⟨e | x, u⟩
  · rw [bind_error ha] at h
    cases h
  · exact ⟨x, u, rfl, by rwa [bind_ok ha] at h⟩

/-- Both branches go on in the same way. -/
theorem ite_bind_bind {p : Prop} [Decidable p] {b : ExceptT Fault (StateM σ) α} :
    (if p then a >>= f else b >>= f) = (if p then a else b) >>= f := by
  split <;> rfl

/-- A successful sequence of steps without a state. -/
theorem except_bind_eq_ok {x : Except Fault α} {f : α → Except Fault β} {y : β}
    (h : (x >>= f) = .ok y) : ∃ v, x = .ok v ∧ f v = .ok y := by
  cases x with
  | error e => cases h
  | ok v => exact ⟨v, rfl, h⟩

/-- A transitive relation between states passes through a sequence. -/
theorem bind_rel {R : σ → σ → Prop} (trans : ∀ {s t u}, R s t → R t u → R s u)
    (ha : R s (a s).2) (hf : ∀ x, (a s).1 = .ok x → R (a s).2 (f x (a s).2).2) :
    R s ((a >>= f) s).2 := by
  rcases h : a s with ⟨_ | x, t⟩
  · rw [bind_error h]
    simpa [h] using ha
  · rw [bind_ok h]
    rw [h] at ha hf
    exact trans ha (hf x rfl)

end Computation

end Speculation
