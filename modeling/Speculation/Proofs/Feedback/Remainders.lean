import Speculation.Proofs.Feedback.Sites

/-!
# Sites of binary operators

A site of a binary operator settles like the other operator sites, except for remainders. Every miss
records types at least as wide as before, and strictly wider ones unless it is a remainder of small
integers at a site that has recorded small operands and a 32-bit result. Without such remainders a
site is patched at most eighteen times between two clears (`binary_sites_settle`). With them there is
no bound: a site that computes `5 % 0` over and over is patched each time with what it has recorded
already (`remainders_never_settle`).
-/

namespace Speculation

/-! ### One operation -/

namespace SiteOperation

variable {s : AtSite} {spec : StubSpec} {x y : Value}

/-- The operands are values that exist. -/
def isProper : SiteOperation → Bool
  | binary x y => x.isProper && y.isProper
  | _ => true

/-- The operation is a remainder of small integers that its site does not cover, although the site
has recorded small operands and a 32-bit result. -/
def spins (s : AtSite) : SiteOperation → Bool
  | binary x y =>
    s.site.target.handler = .binaryOp .remainders && x.isSmi && y.isSmi &&
      (miss? s (.binary x y)).isSome
  | _ => false

/-- A miss of a binary operation widens the feedback, unless it goes on forever. -/
theorem binary_widens (hk : s.site.kind = .binaryOp) (proper : (binary x y).isProper)
    (steady : ¬ (binary x y).spins s) (miss : miss? s (.binary x y) = some spec) :
    s.site.Widens spec := by
  have again := miss
  simp only [miss?] at miss
  split at miss
  · rename_i f hf
    split at miss
    · rename_i result h made
      split at miss
      · cases miss
      · cases miss
        have missed : f.handles h x y result = false := by simp_all
        rw [isProper, Bool.and_eq_true] at proper
        have wider : f < f.next h x y := by
          refine (BinaryFeedback.lt_next_or_remainder proper.1 proper.2 made missed).resolve_right ?_
          rintro ⟨rfl, first, second⟩
          exact steady (by simp [spins, hf, first, second, again])
        constructor <;> rw [hf]
        · exact Handler.binaryOp_lt.2 wider
        · rw [hk]
          exact BinaryFeedback.slack_lt wider
    · cases miss
  · cases miss

end SiteOperation

/-- The `i`th site is neither cleared nor used for a remainder that it records again. -/
def Event.progresses (i : Nat) : Session → Event → Bool :=
  Event.atSite i fun s op => !op.isClear && op.isProper &&
    s.sites[i]?.all fun site => !op.spins ⟨site, s.engine⟩

/-! ### All that happens -/

/-- An access that makes progress lets a site for binary operations settle. -/
theorem Site.Settles.binary {s : Session} {site : Site} {op : SiteOperation} {i : Nat}
    (hs : s.sites[i]? = some site) (suits : op.suits site.kind)
    (progresses : Event.progresses i s (.operation (.atSite i op))) :
    Settles .binaryOp site (op.perform ⟨site, s.engine⟩).site := by
  simp only [Event.progresses, Event.atSite, hs, bne_self_eq_false, Bool.false_or, Option.all_some,
    Bool.and_eq_true, Bool.not_eq_true'] at progresses
  obtain ⟨⟨uncleared, proper⟩, steady⟩ := progresses
  have operator : ¬ SiteKind.binaryOp.isPropertyAccess := Bool.false_ne_true
  refine .perform operator suits (by simp [uncleared]) _ fun hk spec miss => ?_
  cases op with
  | binary x y => exact SiteOperation.binary_widens hk proper (by simp [steady]) miss
  | compare x y | unary x | toBoolean x => simp [SiteOperation.suits, hk] at suits
  | _ => cases miss

open Session in
/-- **Sites of binary operators settle, remainders apart.** A miss of a binary operator, on operands
that exist, records types that are at least as wide as before for the left operand, the right operand
and the result; it records the same again only if it is a remainder of small integers at a site that
has recorded small operands and a 32-bit result. Let a site of a binary operator be used with its own
operation, whatever else happens. While it is neither cleared nor used for such a remainder, what it records is
never narrowed, and it is patched at most eighteen times. -/
theorem binary_sites_settle (config : Config) (i : Nat) (before after : List Event) {site : Site}
    (own : (ofConfig config).throughout (Event.suits i) (before ++ after))
    (hs : ((ofConfig config).after before).sites[i]? = some site) (kind : site.kind = .binaryOp) :
    (∀ (f : BinaryFeedback) (x y result : Value) (h h' : Heap), x.isProper → y.isProper →
      f.op.evaluate x y h = (.ok result, h') → f.handles h' x y result = false →
        f ≤ f.next h' x y ∧
          (f.next h' x y = f ↔ f = ⟨.mod, .smi, .smi, .int32⟩ ∧ x.isSmi ∧ y.isSmi)) ∧
    (((ofConfig config).after before).throughout (Event.progresses i) after →
      ∃ site', ((ofConfig config).after (before ++ after)).sites[i]? = some site' ∧
        site.target.handler ≤ site'.target.handler ∧ site'.patches ≤ site.patches + 18) := by
  constructor
  · intro f x y result h h' properX properY made missed
    exact ⟨f.le_next h' x y, BinaryFeedback.next_eq_iff properX properY made missed⟩
  · intro progresses
    rw [throughout_append] at own
    have proper := (properAt_ofConfig config i).after own.1
    obtain ⟨site', hs', settles⟩ := after_rel_at (R := Site.Settles .binaryOp) (fun a _ => .refl a)
      (fun h h' => h.trans h')
      (fun hs _ suits p => .binary hs suits (by simpa [Event.progresses, Event.atSite] using p))
      proper hs own.2 progresses
    obtain ⟨-, wider, patches⟩ := settles kind
    have := SiteKind.slack_binaryOp site.target.handler
    exact ⟨site', by rwa [after_append], wider, by omega⟩

/-- A sum that leaves the small integers, and sites of sums and remainders. The first remainder by
zero widens what is recorded. -/
theorem binary_sites_settle_sum :
    let boxed : Value := .object ⟨10⟩
    let string : Value := .object ⟨11⟩
    let f : BinaryFeedback := ⟨.add, .smi, .smi, .uninitialized⟩
    let at' (i : Nat) (ops : List SiteOperation) : List Event :=
      ops.map fun op => .operation (.atSite i op)
    let before : List Event := [
      .operation (.onHeap (.boxedNumber ⟨0x3ff8000000000000⟩)), .operation (.onHeap (.string "s")),
      .operation (.newBinarySite .add), .operation (.newBinarySite .mod)]
    let after : List Event :=
      at' 0 [.binary (.smi 1) (.smi 2), .binary (.smi (2 ^ 30 - 1)) (.smi 1), .binary boxed (.smi 1),
        .binary .undefined boxed, .binary string (.smi 1), .binary .null (.smi 1)] ++
      at' 1 [.binary (.smi 7) (.smi 3), .binary (.smi 5) (.smi 0), .binary boxed (.smi 0)]
    let fresh := (Session.ofConfig {}).after before
    let settled := (Session.ofConfig {}).after (before ++ after)
    let made := f.op.evaluate (.smi (2 ^ 30 - 1)) (.smi 1) fresh.engine.heap
    (f ≤ f.next made.2 (.smi (2 ^ 30 - 1)) (.smi 1) ∧ f.next made.2 (.smi (2 ^ 30 - 1)) (.smi 1) ≠ f) ∧
      settled.sites.map Site.patches = [6, 3] ∧
      ∀ i < 2, ∃ site site', fresh.sites[i]? = some site ∧ settled.sites[i]? = some site' ∧
        site.target.handler ≤ site'.target.handler ∧ site'.patches ≤ site.patches + 18 := by
  intro boxed string f at' before after fresh settled made
  have own : ∀ i < 2, (Session.ofConfig {}).throughout (Event.suits i) (before ++ after) := by
    decide +kernel
  have site : ∀ i < 2, ∃ site, fresh.sites[i]? = some site ∧ site.kind = .binaryOp := by
    decide +kernel
  have progresses : ∀ i < 2, fresh.throughout (Event.progresses i) after := by decide +kernel
  -- ?_⟩ => The first sum overflows the small integers, so it is recorded as a wider type.
  refine ⟨?_, by decide +kernel, fun i hi => ?_⟩
  · have result : made = (.ok (.object ⟨12⟩), made.2) :=
      Computation.eq_ok_of_toOption (by decide +kernel)
    have missed : f.handles made.2 (.smi (2 ^ 30 - 1)) (.smi 1) (.object ⟨12⟩) = false := by
      decide +kernel
    obtain ⟨site, hs, kind⟩ := site 0 (by decide)
    obtain ⟨widens, -⟩ := binary_sites_settle {} 0 before after (own 0 (by decide)) hs kind
    obtain ⟨wider, same⟩ := widens f _ _ _ _ _ (by decide) (by decide) result missed
    exact ⟨wider, fun e => absurd (same.1 e).1 (by decide)⟩
  · obtain ⟨site, hs, kind⟩ := site i hi
    obtain ⟨-, settles⟩ := binary_sites_settle {} i before after (own i hi) hs kind
    obtain ⟨site', hs', wider, patches⟩ := settles (progresses i hi)
    exact ⟨site, site', hs, hs', wider, patches⟩

/-! ### Remainders -/

/-- `5 % 0` is not a number, which is a new object. -/
theorem evaluate_remainder {h : Heap} (allocation : h.noAllocation = 0) :
    BinaryOperator.mod.evaluate (.smi 5) (.smi 0) h =
      (.ok (.object ⟨h.cells.size⟩), { h with cells := h.cells.push (.number .nan) }) := by
  have nan : BinaryOperator.mod.apply (Double.ofInt 5) (Double.ofInt 0) = .nan := by decide +kernel
  have boxed : Heap.smiOfNumber? .nan = none := by decide +kernel
  have allowed : h.allocationAllowed = true := by
    rw [Heap.allocationAllowed, allocation]
    rfl
  have allocated : Heap.allocate (.number .nan) h =
      (.ok ⟨h.cells.size⟩, { h with cells := h.cells.push (.number .nan) }) := by
    simp only [Heap.allocate, Computation.get_bind, allowed, if_true, Computation.set_bind,
      Computation.pure_apply]
  rw [BinaryOperator.evaluate_smi, nan, Heap.newNumber, boxed]
  exact Computation.bind_ok allocated

/-- The result is not covered. -/
theorem misses_remainder {h h' : Heap} {v : Value}
    (made : BinaryOperator.mod.evaluate (.smi 5) (.smi 0) h = (.ok v, h')) (large : ¬ v.isSmi) :
    BinaryFeedback.remainders.handles h' (.smi 5) (.smi 0) v = false := by
  have nan : (BinaryOperator.mod.apply (Double.ofInt 5) (Double.ofInt 0)).isInt32 = false := by
    decide +kernel
  rw [BinaryOperator.evaluate_smi] at made
  have produced : BinaryType.observed h' .mod v = _ := BinaryType.observed_newNumber made
  rw [if_neg large, nan, if_neg Bool.false_ne_true] at produced
  show (true && true && (!((BinaryType.observed h' .mod v).isNumeric && true) ||
    decide ((BinaryType.observed h' .mod v).rank ≤ 2))) = false
  rw [produced]
  rfl

namespace AtSite

/-- A remainder by zero patches its site, and changes neither what is recorded nor the
configuration. -/
theorem remainder_again {s : AtSite} (handler : s.site.target.handler = .binaryOp .remainders)
    (on : s.engine.config.useIc) (allocation : s.engine.heap.noAllocation = 0) :
    let t := (binary (.smi 5) (.smi 0) s).2
    (t.site.kind = s.site.kind ∧ t.site.target.handler = .binaryOp .remainders ∧
        t.site.patches = s.site.patches + 1) ∧
      t.engine.config = s.engine.config ∧ t.engine.heap.noAllocation = 0 := by
  have made := evaluate_remainder allocation
  -- The remainder is a new number that the stub's result does not cover, and recording it gives
  -- the same stub again.
  have missed := misses_remainder made Bool.false_ne_true
  have spins : BinaryFeedback.remainders.Spins (.smi 5) (.smi 0) :=
    BinaryFeedback.spins_remainders rfl rfl
  generalize Value.object ⟨s.engine.heap.cells.size⟩ = v at made missed
  have result : onHeap (BinaryOperator.mod.evaluate (.smi 5) (.smi 0)) s =
      (.ok v, { s with engine := { s.engine with heap := { s.engine.heap with
        cells := s.engine.heap.cells.push (.number .nan) } } }) := by
    rw [onHeap, made]
  obtain ⟨t, recorded, config, heap, follows⟩ := record_spec
    { s with engine := { s.engine with heap := { s.engine.heap with
      cells := s.engine.heap.cells.push (.number .nan) } } }
    (BinaryFeedback.remainders.transitionText .remainders) BinaryFeedback.remainders.spec
  have run : binary (.smi 5) (.smi 0) s = (.ok v, t) := by
    have site : current s = (.ok s.site, s) := rfl
    refine (Computation.bind_ok site).trans ?_
    rw [handler]
    refine (Computation.bind_ok result).trans ?_
    refine (Computation.bind_ok rfl).trans ?_
    rw [missed]
    simp only [spins.next_eq]
    exact Computation.bind_ok recorded
  rw [run]
  refine ⟨?_, config, by rwa [heap]⟩
  cases follows with
  | stays quiet =>
    rcases quiet with quiet | off
    · cases quiet
    · rw [show s.engine.config.useIc = false from off] at on
      cases on
  | records _ missed kind target patches =>
    cases missed
    exact ⟨kind, congrArg StubSpec.handler target, patches⟩

end AtSite

/-- A session with one site, which has recorded what remainders spin on. -/
structure Remaindering (s : Session) (patches : Nat) : Prop where
  site : ∃ site, s.sites = [site] ∧ site.target.handler = .binaryOp .remainders ∧
    site.patches = patches
  on : s.engine.config.useIc
  allocation : s.engine.heap.noAllocation = 0

/-- One more remainder is one more patch. -/
theorem Remaindering.perform {s : Session} {n : Nat} (r : Remaindering s n) :
    Remaindering (s.perform (.atSite 0 (.binary (.smi 5) (.smi 0)))) (n + 1) := by
  obtain ⟨⟨site, sites, handler, rfl⟩, on, allocation⟩ := r
  obtain ⟨⟨-, handler', patches⟩, config, allocation'⟩ :=
    AtSite.remainder_again (s := ⟨site, s.engine⟩) handler on allocation
  have performed : s.perform (.atSite 0 (.binary (.smi 5) (.smi 0))) =
      { sites := [(AtSite.binary (.smi 5) (.smi 0) ⟨site, s.engine⟩).2.site]
        engine := (AtSite.binary (.smi 5) (.smi 0) ⟨site, s.engine⟩).2.engine } := by
    simp only [Session.perform, sites]
    rfl
  rw [performed]
  exact ⟨⟨_, rfl, handler', patches⟩, by rwa [config], allocation'⟩

/-- A remainder that is taken over and over misses each time. -/
theorem Remaindering.run {s : Session} {n : Nat} (r : Remaindering s n) (k : Nat) :
    Remaindering (s.run (List.replicate k (.atSite 0 (.binary (.smi 5) (.smi 0))))) (n + k) := by
  induction k generalizing s n with
  | zero => exact r
  | succ k ih =>
    rw [List.replicate_succ, show n + (k + 1) = n + 1 + k by omega]
    exact ih r.perform

/-- There is no bound on the patches of a site of remainders. From the third remainder by zero on it is
patched each time with what it has recorded. -/
theorem remainders_never_settle :
    let start := (Session.ofConfig {}).run [.newBinarySite .mod]
    let remainders (n : Nat) := start.run (List.replicate n (.atSite 0 (.binary (.smi 5) (.smi 0))))
    ((remainders 2).sites.map fun site => (site.patches, site.target.handler)) =
        [(2, .binaryOp ⟨.mod, .smi, .smi, .int32⟩)] ∧
      ((remainders 3).sites.map fun site => (site.patches, site.target.handler)) =
        [(3, .binaryOp ⟨.mod, .smi, .smi, .int32⟩)] ∧
      ¬ ∃ bound, ∀ n, ∀ site ∈ (remainders n).sites, site.patches ≤ bound := by
  intro start remainders
  have twice : ((remainders 2).sites.map fun site => (site.patches, site.target.handler)) =
      [(2, .binaryOp ⟨.mod, .smi, .smi, .int32⟩)] := by decide +kernel
  refine ⟨twice, by decide +kernel, fun ⟨bound, bounded⟩ => ?_⟩
  obtain ⟨site, sites, recorded⟩ := List.map_eq_singleton_iff.1 twice
  have spinning : Remaindering (remainders 2) 2 :=
    ⟨⟨site, sites, congrArg Prod.snd recorded, congrArg Prod.fst recorded⟩, by decide +kernel,
      by decide +kernel⟩
  obtain ⟨site', sites', -, patches⟩ := (spinning.run bound).site
  have := bounded (bound + 2) site' (sites' ▸ List.mem_singleton_self site')
  omega

end Speculation
