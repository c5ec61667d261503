import Speculation.Proofs.Cache.Guards
import Speculation.Proofs.Feedback.Sites

/-!
# Comparisons that have been recorded

A miss of a comparison installs a stub for its operands, with one exception. A site in the state of numbers
that has recorded a small integer on one side keeps its state when it meets a boxed number there, whatever
the other operand is. Its stub covered the boxed number already, so the other operand is no number: the
same comparison misses again, and only then all operands are covered (`compare_miss_fits`).
-/

namespace Speculation

namespace Heap

variable {h : Heap} {v : Value}

theorem isString_of_isInternalized (internalized : h.isInternalized v) : h.isString v := by
  unfold isInternalized at internalized
  unfold isString
  split at internalized
  · simp only [*]
  · cases internalized

theorem isSome_mapOf? (object : h.isJsObject v) : (h.mapOf? v).isSome := by
  obtain ⟨o, ho⟩ := Option.isSome_iff_exists.mp object
  obtain ⟨id, rfl, ho⟩ := object_of_asObject? ho
  rw [mapOf?_object ho]
  rfl

end Heap

/-- Only a small integer is recorded as one. -/
theorem CompareType.isSmi_of_widen {h : Heap} {v : Value} {recorded : CompareType}
    (small : widen h recorded v = .smi) : v.isSmi := by
  by_contra large
  revert small
  cases recorded <;> simp only [widen, if_neg large] <;> (try split_ifs) <;> decide

namespace CompareFeedback

variable {f : CompareFeedback} {h : Heap} {x y : Value}

/-! ### One miss -/

/-- The state of numbers is kept, since a side that has recorded a small integer meets a boxed number. -/
def KeepsNumber (f : CompareFeedback) (h : Heap) (x y : Value) : Prop :=
  f.state = .number ∧ (f.left = .smi ∧ h.isHeapNumber x ∨ f.right = .smi ∧ h.isHeapNumber y)

instance (f : CompareFeedback) (h : Heap) (x y : Value) : Decidable (f.KeepsNumber h x y) :=
  inferInstanceAs (Decidable (_ ∧ _))

/-- From numbers a site goes on to anything, with one exception. -/
theorem nextState_of_number (e : f.state = .number) :
    f.nextState h x y = if f.KeepsNumber h x y then .number else .generic := by
  simp [nextState, KeepsNumber, e]

/-- What a site records first covers the operands that it is recorded for. -/
theorem handles_first (e : f.state = .uninitialized) : (f.next h x y).handles h x y := by
  have state : (f.next h x y).state = firstState f.op h x y := by simp only [next, nextState, e]
  have shape : (f.next h x y).knownShape =
      if firstState f.op h x y = .knownObject then h.mapOf? x else none := by
    simp only [next, nextState, e]
  have op : (f.next h x y).op = f.op := rfl
  unfold handles
  rw [state, shape, op]
  generalize first : firstState f.op h x y = s
  unfold firstState at first
  repeat' split at first
  all_goals
    subst first
    grind [Heap.isString_of_isInternalized, Heap.isSome_mapOf?]

/-- A miss covers its operands unless it keeps the state of numbers. -/
theorem handles_next_iff (missed : f.handles h x y = false) :
    (f.next h x y).handles h x y ↔ ¬ f.KeepsNumber h x y := by
  cases e : f.state with
  | uninitialized => simp [KeepsNumber, e, handles_first]
  | number =>
    have state : (f.next h x y).state = _ := nextState_of_number e
    by_cases kept : f.KeepsNumber h x y
    · rw [if_pos kept] at state
      have again : (f.next h x y).handles h x y = f.handles h x y := by
        simp only [handles, state, e]
        rfl
      simp [again, missed, kept]
    · rw [if_neg kept] at state
      simp [handles, state, kept]
  | smi | internalizedString | knownObject =>
    simp only [KeepsNumber, e, handles, next, nextState]
    split_ifs <;> simp_all
  | string | object => simp [KeepsNumber, handles, next, nextState, e]
  | generic => simp [handles, e] at missed

/-- The state of numbers is kept only if an operand is no number. -/
theorem KeepsNumber.not_numbers (kept : f.KeepsNumber h x y) (missed : f.handles h x y = false) :
    ¬ (h.isNumber x ∧ h.isNumber y) := by
  rintro ⟨hx, hy⟩
  simp [handles, kept.1, hx, hy] at missed

/-- What was just recorded is no reason to keep the state of numbers for the same operands. -/
theorem not_keepsNumber_next : ¬ (f.next h x y).KeepsNumber h x y := by
  have unboxed {recorded : CompareType} {v : Value} (small : CompareType.widen h recorded v = .smi) :
      ¬ h.isHeapNumber v := by
    have := CompareType.isSmi_of_widen small
    cases v with
    | smi i => exact Bool.false_ne_true
    | _ => cases this
  rintro ⟨-, ⟨left, boxed⟩ | ⟨right, boxed⟩⟩
  · exact unboxed left boxed
  · exact unboxed right boxed

theorem KeepsNumber.state_next (kept : f.KeepsNumber h x y) : (f.next h x y).state = .number :=
  (nextState_of_number kept.1).trans (if_pos kept)

/-- The exception is made once. -/
theorem KeepsNumber.state_next_next (kept : f.KeepsNumber h x y) :
    ((f.next h x y).next h x y).state = .generic :=
  (nextState_of_number kept.state_next).trans (if_neg not_keepsNumber_next)

/-! ### Repetitions -/

/-- What is recorded after a comparison. -/
def meet (f : CompareFeedback) (h : Heap) (x y : Value) : CompareFeedback :=
  if f.handles h x y then f else f.next h x y

/-- How often the same comparison misses. -/
def missesOn (f : CompareFeedback) (h : Heap) (x y : Value) : Nat :=
  if f.handles h x y then 0 else if f.KeepsNumber h x y then 2 else 1

theorem missesOn_of_missed (missed : f.handles h x y = false) :
    f.missesOn h x y = if f.KeepsNumber h x y then 2 else 1 :=
  if_neg (by simp [missed])

/-- What is handled does not miss. -/
theorem missesOn_eq_zero : f.missesOn h x y = 0 ↔ f.handles h x y := by
  unfold missesOn
  split_ifs <;> simp_all

/-- Each miss is one less to come. -/
theorem missesOn_next (missed : f.handles h x y = false) :
    (f.next h x y).missesOn h x y + 1 = f.missesOn h x y := by
  rw [missesOn_of_missed missed]
  by_cases kept : f.KeepsNumber h x y
  · have again : (f.next h x y).handles h x y = false :=
      Bool.eq_false_iff.mpr fun fits => (handles_next_iff missed).mp fits kept
    rw [if_pos kept, missesOn_of_missed again, if_neg not_keepsNumber_next]
  · rw [if_neg kept, missesOn_eq_zero.mpr ((handles_next_iff missed).mpr kept)]

end CompareFeedback

/-! ### At a site -/

/-- A comparison is recorded at its site if it is not covered. It changes neither the configuration nor the
heap. -/
theorem AtSite.compare_spec {s : AtSite} {f : CompareFeedback} (x y : Value)
    (hf : s.site.target.handler = .compare f) (on : s.engine.config.useIc) :
    let h := s.engine.heap
    let t := (compare x y s).2
    t.engine.config = s.engine.config ∧ t.engine.heap = h ∧
      t.site.target.handler = .compare (f.meet h x y) ∧
      t.site.patches = s.site.patches + if f.handles h x y then 0 else 1 := by
  intro h t
  have site : current s = (.ok s.site, s) := rfl
  have run : compare x y s = _ := Computation.bind_ok site
  rw [hf] at run
  -- A comparison that the stub covers leaves the site alone; any other records what is met.
  cases covered : f.handles h x y with
  | true =>
    have quiet : t = s := by
      have stays : compare x y s = (.ok (.boolean (h.compareValues f.op x y)), s) := by
        refine run.trans ((Computation.bind_ok rfl).trans ?_)
        rw [covered]
        rfl
      exact congrArg Prod.snd stays
    rw [quiet, CompareFeedback.meet, if_pos covered]
    exact ⟨rfl, rfl, hf, rfl⟩
  | false =>
    obtain ⟨u, recorded, config, heap, follows⟩ :=
      record_spec s (f.transitionText (f.next h x y)) (f.next h x y).spec
    have patched : t = u := by
      have records : compare x y s = (.ok (.boolean (h.compareValues f.op x y)), u) := by
        refine run.trans ((Computation.bind_ok rfl).trans ?_)
        rw [covered]
        exact Computation.bind_ok recorded
      exact congrArg Prod.snd records
    rw [patched, CompareFeedback.meet, if_neg (by simp [covered])]
    cases follows with
    | stays quiet =>
      rcases quiet with quiet | off
      · cases quiet
      · rw [off] at on
        cases on
    | records _ missed _ target patches =>
      cases missed
      exact ⟨config, heap, congrArg StubSpec.handler target, patches⟩

/-- A session whose `i`th site has recorded `f`, and the heap and the number of patches there. -/
structure Comparing (s : Session) (i : Nat) (f : CompareFeedback) (h : Heap) (patches : Nat) : Prop where
  site : ∃ site, s.sites[i]? = some site ∧ site.target.handler = .compare f ∧ site.patches = patches
  heap : s.engine.heap = h
  on : s.engine.config.useIc

namespace Comparing

variable {s : Session} {i n : Nat} {f : CompareFeedback} {h : Heap} {x y : Value}

/-- One comparison more is met as the feedback says. -/
theorem perform (c : Comparing s i f h n) (x y : Value) :
    Comparing (s.perform (.atSite i (.compare x y))) i (f.meet h x y) h
      (n + if f.handles h x y then 0 else 1) := by
  obtain ⟨⟨site, hs, hf, rfl⟩, rfl, on⟩ := c
  obtain ⟨config, heap, handler, patches⟩ :=
    AtSite.compare_spec (s := ⟨site, s.engine⟩) x y hf on
  have engine : (s.perform (.atSite i (.compare x y))).engine =
      (AtSite.compare x y ⟨site, s.engine⟩).2.engine := by
    simp only [Session.perform, hs]
    rfl
  refine ⟨⟨_, Session.perform_atSite hs _, handler, patches⟩, ?_, ?_⟩
  · rw [engine, heap]
  · rw [engine, config]
    exact on

/-- A comparison that is repeated misses as often as what is recorded says. -/
theorem run (c : Comparing s i f h n) (x y : Value) (k : Nat) :
    ∃ f', Comparing (s.run (List.replicate k (.atSite i (.compare x y)))) i f' h
        (n + min k (f.missesOn h x y)) ∧
      f'.missesOn h x y = f.missesOn h x y - k := by
  induction k generalizing s n f with
  | zero => exact ⟨f, by simpa [Session.run] using c, rfl⟩
  | succ k ih =>
    obtain ⟨f', c', left⟩ := ih (c.perform x y)
    have total : n + min (k + 1) (f.missesOn h x y) =
        n + (if f.handles h x y then 0 else 1) + min k ((f.meet h x y).missesOn h x y) ∧
        f.missesOn h x y - (k + 1) = (f.meet h x y).missesOn h x y - k := by
      cases covered : f.handles h x y with
      | true =>
        have none := CompareFeedback.missesOn_eq_zero.mpr covered
        simp [CompareFeedback.meet, covered, none]
      | false =>
        have one := CompareFeedback.missesOn_next covered
        rw [CompareFeedback.meet, if_neg (Bool.eq_false_iff.mp covered), if_neg Bool.false_ne_true]
        omega
    rw [total.1, total.2]
    exact ⟨f', c', left⟩

end Comparing

/-- **A missed comparison is covered from then on, with one exception.** Let a comparison miss at a site.
What the site records next covers the operands of this comparison, unless the site is in the state of numbers,
has recorded a small integer on one side, and meets a boxed number on that side. In this case one of the
operands is no number, the site stays in the state of numbers although it does not cover the operands, and
with the next miss it covers all operands. So the same comparison, repeated on the same heap at a site in use,
patches the site once, or twice in the exceptional case, and not again. -/
theorem compare_miss_fits {f : CompareFeedback} {h : Heap} {x y : Value}
    (missed : f.handles h x y = false) :
    ((f.next h x y).handles h x y ↔ ¬ f.KeepsNumber h x y) ∧
    (f.KeepsNumber h x y → ¬ (h.isNumber x ∧ h.isNumber y) ∧ (f.next h x y).state = .number ∧
      ∀ x' y', ((f.next h x y).next h x y).handles h x' y') ∧
    ∀ {s : Session} {i : Nat} {site : Site}, s.sites[i]? = some site →
      site.target.handler = .compare f → s.engine.heap = h → s.engine.config.useIc →
      ∀ n, ∃ site' f', (s.run (List.replicate n (.atSite i (.compare x y)))).sites[i]? = some site' ∧
        site'.target.handler = .compare f' ∧
        site'.patches = site.patches + min n (if f.KeepsNumber h x y then 2 else 1) ∧
        (f'.handles h x y ↔ (if f.KeepsNumber h x y then 2 else 1) ≤ n) := by
  have misses := CompareFeedback.missesOn_of_missed missed
  refine ⟨CompareFeedback.handles_next_iff missed, fun kept => ⟨kept.not_numbers missed, kept.state_next,
    fun x' y' => ?_⟩, fun {s i site} hs hf heap on n => ?_⟩
  · simp [CompareFeedback.handles, kept.state_next_next]
  · have start : Comparing s i f h site.patches := ⟨⟨site, hs, hf, rfl⟩, heap, on⟩
    obtain ⟨f', ⟨⟨site', hs', hf', patches⟩, -, -⟩, left⟩ := start.run x y n
    rw [← misses]
    refine ⟨site', f', hs', hf', patches, ?_⟩
    rw [← CompareFeedback.missesOn_eq_zero, left]
    exact Nat.sub_eq_zero_iff_le

/-- A comparison of small integers that meets a boxed number, in a session and at its site. -/
theorem compare_miss_fits_boxed :
    let half : Value := .object ⟨10⟩
    let s := (Session.ofConfig {}).run [
      .onHeap (.boxedNumber ⟨0x3fe0000000000000⟩), .newCompareSite .lt,
      .atSite 0 (.compare (.smi 1) (.smi 2))]
    let f : CompareFeedback := ⟨.lt, .smi, .smi, .smi, none⟩
    let h := s.engine.heap
    f.handles h half (.smi 2) = false ∧ (f.next h half (.smi 2)).handles h half (.smi 2) ∧
      ∀ n, 1 ≤ n → ∃ site', (s.run (List.replicate n (.atSite 0 (.compare half (.smi 2))))).sites[0]? =
        some site' ∧ site'.patches = 2 := by
  intro half s f h
  have missed : f.handles h half (.smi 2) = false := by decide +kernel
  have fits : ¬ f.KeepsNumber h half (.smi 2) := by decide +kernel
  obtain ⟨covered, -, again⟩ := compare_miss_fits missed
  refine ⟨missed, covered.mpr fits, fun n positive => ?_⟩
  have site : ∃ site, s.sites[0]? = some site ∧ site.target.handler = .compare f ∧ site.patches = 1 := by
    decide +kernel
  obtain ⟨site, hs, hf, once⟩ := site
  obtain ⟨site', -, hs', -, patches, -⟩ := again hs hf rfl (by decide +kernel) n
  rw [if_neg fits, once, Nat.min_eq_right positive] at patches
  exact ⟨site', hs', patches⟩

/-- A site that has compared `1` and `0.5` compares `0.5` and a string. It is patched with a stub in the
state of numbers, which covers neither the string nor what is recorded for it, and patched again when the
comparison is repeated. -/
theorem compare_miss_keeps_number :
    let half : Value := .object ⟨10⟩
    let string : Value := .object ⟨11⟩
    let s := (Session.ofConfig {}).run [
      .onHeap (.boxedNumber ⟨0x3fe0000000000000⟩), .onHeap (.string "a"), .newCompareSite .eq]
    let h := s.engine.heap
    let f := (CompareFeedback.fresh .eq).next h (.smi 1) half
    let repeated (n : Nat) := s.run (.atSite 0 (.compare (.smi 1) half) ::
      List.replicate n (.atSite 0 (.compare half string)))
    (CompareFeedback.fresh .eq).handles h (.smi 1) half = false ∧ f.handles h half string = false ∧
      f.next h half string = ⟨.eq, .number, .generic, .number, none⟩ ∧
      (f.next h half string).handles h half string = false ∧
      (repeated 0).sites.map Site.patches = [1] ∧ (repeated 1).sites.map Site.patches = [2] ∧
      (repeated 2).sites.map Site.patches = [3] ∧ (repeated 3).sites.map Site.patches = [3] := by
  decide +kernel

end Speculation
