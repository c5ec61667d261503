import Speculation.Proofs.Cache.Progress
import Speculation.Proofs.Feedback.Arithmetic
import Speculation.Proofs.Feedback.Widening

/-!
# Operator sites settle

An operation at an operator site either leaves the site as it is or installs the stub for what
`SiteOperation.miss?` says is recorded next. What is recorded next is wider, and each time it is
strictly wider some slack is used up. So between two clears a site is patched a bounded number of
times, whatever its operands are and whatever else happens: a site of a unary operator three times, a
site of comparisons four times, and a site of truth tests eight times (`operator_sites_settle`).
-/

namespace Speculation

/-! ### What a miss records -/

/-- What an operator site records next, if its stub does not cover the operation. -/
def SiteOperation.miss? (s : AtSite) : SiteOperation → Option StubSpec
  | compare x y =>
    match s.site.target.handler with
    | .compare f =>
      if f.handles s.engine.heap x y then none else some (f.next s.engine.heap x y).spec
    | _ => none
  | unary x =>
    match s.site.target.handler with
    | .unaryOp f =>
      match f.op.evaluate x s.engine.heap with
      | (.ok result, h) => if f.handles h x result then none else some (f.next h x).spec
      | (.error _, _) => none
    | _ => none
  | binary x y =>
    match s.site.target.handler with
    | .binaryOp f =>
      match f.op.evaluate x y s.engine.heap with
      | (.ok result, h) => if f.handles h x y result then none else some (f.next h x y).spec
      | (.error _, _) => none
    | _ => none
  | toBoolean x =>
    match s.site.target.handler with
    | .toBoolean t =>
      let observed := TestedType.observed s.engine.heap x
      if t.contains observed then none else some (t.insert observed).spec
    | _ => none
  | _ => none

/-- What becomes of a site: it has what a miss records, unless there was no miss or nothing is
installed. -/
inductive Site.Follows (on : Bool) (miss : Option StubSpec) (site site' : Site) : Prop where
  | stays (quiet : miss = none ∨ on = false) (kind : site'.kind = site.kind)
      (target : site'.target = site.target) (patches : site'.patches = site.patches)
  | records {spec : StubSpec} (on : on = true) (missed : miss = some spec)
      (kind : site'.kind = site.kind) (target : site'.target.spec = spec)
      (patches : site'.patches = site.patches + 1)

namespace AtSite

variable {s : AtSite} {α : Type}

/-- The action does at its site what a miss asks for. -/
def Follows (s : AtSite) (miss : Option StubSpec) (a : Action α) : Prop :=
  s.site.Follows s.engine.config.useIc miss (a s).2.site

section Rules

variable {miss : Option StubSpec}

@[simp] theorem follows_heap {f : Heap → Action α} :
    Follows s miss (heap >>= f) ↔ Follows s miss (f s.engine.heap) := Iff.rfl

@[simp] theorem follows_current {f : Site → Action α} :
    Follows s miss (current >>= f) ↔ Follows s miss (f s.site) := Iff.rfl

/-- What spares a site follows no miss. -/
theorem Spares.follows {a : Action α} {post : α → Prop} (spares : Spares s a post) :
    Follows s none a := by
  rw [Follows, spares.1]
  exact .stays (.inl rfl) rfl rfl rfl

end Rules

/-- Recording succeeds, and changes neither the configuration nor the heap. -/
theorem record_spec (s : AtSite) (text : String) (spec : StubSpec) :
    ∃ t, record text spec s = (.ok ⟨⟩, t) ∧ t.engine.config = s.engine.config ∧
      t.engine.heap = s.engine.heap ∧
      s.site.Follows s.engine.config.useIc (some spec) t.site := by
  obtain ⟨u, traced, site, config, heap⟩ : ∃ u, trace text s = (.ok ⟨⟩, u) ∧ u.site = s.site ∧
      u.engine.config = s.engine.config ∧ u.engine.heap = s.engine.heap := by
    show ∃ u, (if s.engine.config.traceIc then _ else _ : Action Unit) s = _ ∧ _
    split <;> exact ⟨_, rfl, rfl, rfl, rfl⟩
  rw [record, Computation.bind_ok traced]
  show ∃ t, (if u.engine.config.useIc then _ else _ : Action Unit) _ = _ ∧ _
  rw [← config, ← heap, ← site]
  cases u.engine.config.useIc with
  | true =>
    exact ⟨_, rfl, rfl, rfl, .records rfl rfl rfl (StubTable.spec_request _ spec) rfl⟩
  | false => exact ⟨_, rfl, rfl, rfl, .stays (.inr rfl) rfl rfl rfl⟩

/-- An action that records something unless the operation was covered. -/
theorem follows_of_records (covered : Bool) (text : String) (spec : StubSpec) (v : α) :
    Follows s (if covered then none else some spec)
      (if !covered then (do
          record text spec
          return v)
        else return v) := by
  cases covered with
  | true => exact .stays (.inl rfl) rfl rfl rfl
  | false =>
    obtain ⟨t, recorded, -, -, follows⟩ := record_spec s text spec
    have run : (record text spec >>= fun _ => pure v : Action α) s = (.ok v, t) :=
      Computation.bind_ok recorded
    simpa [Follows, run] using follows

/-- An operation whose result the heap makes records something unless operands and result were
covered. -/
theorem follows_of_result {a : Heap.Action α} {miss : Option StubSpec} (covered : α → Heap → Bool)
    (text : Heap → String) (spec : Heap → StubSpec)
    (failed : ∀ e h, a s.engine.heap = (.error e, h) → miss = none)
    (made : ∀ v h, a s.engine.heap = (.ok v, h) →
      miss = if covered v h then none else some (spec h)) :
    Follows s miss (do
      let v ← onHeap a
      let h ← heap
      if !covered v h then (do
        record (text h) (spec h)
        return v)
      else return v) := by
  rcases e : a s.engine.heap with ⟨fault | v, h⟩
  · have run : onHeap a s = (.error fault, { s with engine := { s.engine with heap := h } }) := by
      rw [onHeap, e]
    rw [failed fault h e, Follows, Computation.bind_error run]
    exact .stays (.inl rfl) rfl rfl rfl
  · have run : onHeap a s = (.ok v, { s with engine := { s.engine with heap := h } }) := by
      rw [onHeap, e]
    rw [made v h e, Follows, Computation.bind_ok run]
    exact follows_of_records (s := { s with engine := { s.engine with heap := h } }) ..

/-- Where the stub belongs to another kind of operation, nothing is recorded. -/
theorem foreign_follows {miss : Option StubSpec} (none : miss = none) (text : String) :
    Follows s miss (foreign text : Action α) := by
  rw [none]
  exact (foreign_spares text).follows

theorem compare_follows (x y : Value) :
    Follows s (SiteOperation.miss? s (.compare x y)) (compare x y) := by
  simp only [compare, follows_current]
  split
  · rename_i f hf
    simp only [follows_heap, SiteOperation.miss?, hf]
    exact follows_of_records ..
  · exact foreign_follows (by unfold SiteOperation.miss?; simp only) _

theorem unary_follows (x : Value) : Follows s (SiteOperation.miss? s (.unary x)) (unary x) := by
  simp only [unary, follows_current]
  split
  · rename_i f hf
    simp only [SiteOperation.miss?, hf]
    exact follows_of_result (fun result h => f.handles h x result)
      (fun h => f.transitionText (f.next h x)) (fun h => (f.next h x).spec)
      (fun e h failed => by simp only [failed]) fun v h made => by simp only [made]
  · exact foreign_follows (by unfold SiteOperation.miss?; simp only) _

theorem binary_follows (x y : Value) :
    Follows s (SiteOperation.miss? s (.binary x y)) (binary x y) := by
  simp only [binary, follows_current]
  split
  · rename_i f hf
    simp only [SiteOperation.miss?, hf]
    exact follows_of_result (fun result h => f.handles h x y result)
      (fun h => f.transitionText (f.next h x y)) (fun h => (f.next h x y).spec)
      (fun e h failed => by simp only [failed]) fun v h made => by simp only [made]
  · exact foreign_follows (by unfold SiteOperation.miss?; simp only) _

theorem toBoolean_follows (x : Value) :
    Follows s (SiteOperation.miss? s (.toBoolean x)) (toBoolean x) := by
  simp only [toBoolean, follows_current]
  split
  · rename_i types hf
    simp only [follows_heap, SiteOperation.miss?, hf]
    exact follows_of_records ..
  · exact foreign_follows (by unfold SiteOperation.miss?; simp only) _

/-- What an operation of its own kind makes of an operator site. -/
theorem perform_follows {op : SiteOperation} (suits : op.suits s.site.kind)
    (operator : ¬ s.site.kind.isPropertyAccess) (uncleared : ¬ op.isClear) :
    s.site.Follows s.engine.config.useIc (op.miss? s) (op.perform s).site := by
  cases op with
  | compare x y => exact compare_follows x y
  | unary x => exact unary_follows x
  | binary x y => exact binary_follows x y
  | toBoolean x => exact toBoolean_follows x
  | clear => exact absurd rfl uncleared
  | debugBreak on => exact .stays (.inl rfl) rfl rfl rfl
  | _ =>
    refine absurd ?_ operator
    rw [show s.site.kind = _ from of_decide_eq_true suits]
    rfl

end AtSite

/-! ### How many misses are possible -/

/-- The slack of what a site of a kind has recorded. -/
def SiteKind.slack : SiteKind → Handler → Nat
  | .unaryOp, .unaryOp f => f.slack
  | .compare, .compare f => f.slack
  | .toBoolean, .toBoolean t => t.slack
  | .binaryOp, .binaryOp f => f.slack
  | _, _ => 0

namespace SiteKind

/-- A unary operation misses three times at most. -/
theorem slack_unaryOp (handler : Handler) : SiteKind.unaryOp.slack handler ≤ 3 := by
  cases handler <;> first | exact Nat.sub_le .. | exact Nat.zero_le _

/-- A comparison misses four times at most. -/
theorem slack_compare (handler : Handler) : SiteKind.compare.slack handler ≤ 4 := by
  cases handler <;> first | exact CompareFeedback.slack_le _ | exact Nat.zero_le _

/-- A test misses eight times at most. -/
theorem slack_toBoolean (handler : Handler) : SiteKind.toBoolean.slack handler ≤ 8 := by
  cases handler <;> first | exact TestedTypes.slack_le _ | exact Nat.zero_le _

/-- A binary operation has room to widen eighteen times. -/
theorem slack_binaryOp (handler : Handler) : SiteKind.binaryOp.slack handler ≤ 18 := by
  cases handler <;> first | exact BinaryFeedback.slack_le _ | exact Nat.zero_le _

end SiteKind

/-- What a miss records is wider than what was recorded. -/
structure Site.Widens (site : Site) (spec : StubSpec) : Prop where
  wider : site.target.handler < spec.handler
  slack : site.kind.slack spec.handler < site.kind.slack site.target.handler

namespace SiteOperation

variable {s : AtSite} {op : SiteOperation} {spec : StubSpec} {x y : Value}

/-- A miss of a comparison widens the feedback. -/
theorem compare_widens (hk : s.site.kind = .compare)
    (miss : miss? s (.compare x y) = some spec) : s.site.Widens spec := by
  simp only [miss?] at miss
  split at miss
  · rename_i f hf
    split at miss
    · cases miss
    · cases miss
      have missed : f.handles s.engine.heap x y = false := by simp_all
      constructor <;> rw [hf]
      · exact Handler.compare_lt.2 (CompareFeedback.lt_next missed)
      · rw [hk]
        exact CompareFeedback.slack_next_lt missed
  · cases miss

/-- A miss of a unary operation widens the feedback. -/
theorem unary_widens (hk : s.site.kind = .unaryOp)
    (miss : miss? s (.unary x) = some spec) : s.site.Widens spec := by
  simp only [miss?] at miss
  split at miss
  · rename_i f hf
    split at miss
    · split at miss
      · cases miss
      · cases miss
        rename_i result h _ _
        have missed : f.handles h x result = false := by simp_all
        constructor <;> rw [hf]
        · exact Handler.unaryOp_lt.2 (UnaryFeedback.lt_next missed)
        · rw [hk]
          exact UnaryFeedback.slack_next_lt missed
    · cases miss
  · cases miss

/-- A miss of a test widens the feedback. -/
theorem toBoolean_widens (hk : s.site.kind = .toBoolean)
    (miss : miss? s (.toBoolean x) = some spec) : s.site.Widens spec := by
  simp only [miss?] at miss
  split at miss
  · rename_i t ht
    split at miss
    · cases miss
    · cases miss
      have missed : t.contains (TestedType.observed s.engine.heap x) = false := by simp_all
      constructor <;> rw [ht]
      · exact Handler.toBoolean_lt.2 (TestedTypes.lt_insert missed)
      · rw [hk]
        exact TestedTypes.slack_insert_lt missed
  · cases miss

/-- Every miss of a unary operator, a comparison or a truth test widens what is recorded. -/
theorem widens (kind : s.site.kind ∈ [.unaryOp, .compare, .toBoolean])
    (suits : op.suits s.site.kind) (miss : op.miss? s = some spec) : s.site.Widens spec := by
  cases op with
  | compare x y => exact compare_widens (of_decide_eq_true suits) miss
  | unary x => exact unary_widens (of_decide_eq_true suits) miss
  | toBoolean x => exact toBoolean_widens (of_decide_eq_true suits) miss
  | binary x y =>
    rw [show s.site.kind = .binaryOp from of_decide_eq_true suits] at kind
    simp at kind
  | _ => cases miss

end SiteOperation

/-! ### All that happens -/

/-- A site of a kind has not narrowed what it records, and every patch has used up slack. -/
def Site.Settles (kind : SiteKind) (site site' : Site) : Prop :=
  site.kind = kind → site'.kind = kind ∧ site.target.handler ≤ site'.target.handler ∧
    site'.patches + kind.slack site'.target.handler ≤
      site.patches + kind.slack site.target.handler

namespace Site.Settles

variable {k : SiteKind} {a b c site : Site}

theorem refl (a : Site) : Settles k a a := fun hk => ⟨hk, le_rfl, le_rfl⟩

theorem trans (h : Settles k a b) (h' : Settles k b c) : Settles k a c := by
  intro hk
  obtain ⟨hb, wider, patches⟩ := h hk
  obtain ⟨hc, wider', patches'⟩ := h' hb
  exact ⟨hc, wider.trans wider', patches'.trans patches⟩

/-- One operation, if what it records is wider. -/
theorem perform (operator : ¬ k.isPropertyAccess) {op : SiteOperation} (suits : op.suits site.kind)
    (uncleared : ¬ op.isClear) (e : Engine)
    (widens : site.kind = k → ∀ spec, op.miss? ⟨site, e⟩ = some spec → site.Widens spec) :
    Settles k site (op.perform ⟨site, e⟩).site := by
  intro hk
  cases AtSite.perform_follows (s := ⟨site, e⟩) suits (hk ▸ operator) uncleared with
  | stays _ kind target patches =>
    refine ⟨kind.trans hk, ?_, ?_⟩ <;> rw [target]
    exact Nat.le_of_eq (by rw [patches])
  | records _ missed kind target patches =>
    obtain ⟨wider, slack⟩ := widens hk _ missed
    have handler : (op.perform ⟨site, e⟩).site.target.handler = _ := congrArg StubSpec.handler target
    rw [hk] at slack
    simp only at patches
    refine ⟨kind.trans hk, ?_, ?_⟩ <;> rw [handler]
    · exact wider.le
    · omega

end Site.Settles

namespace Session

variable {s : Session} {i : Nat} {site : Site}

theorem perform_atSite (hs : s.sites[i]? = some site) (op : SiteOperation) :
    (s.perform (.atSite i op)).sites[i]? = some (op.perform ⟨site, s.engine⟩).site := by
  have hi : i < s.sites.length := (List.getElem?_eq_some_iff.1 hs).1
  simp only [perform, hs]
  exact List.getElem?_set_self hi

end Session

open Session in
/-- **Sites of unary operators, comparisons and truth tests settle.** Let such a site be used with
the operation of its own kind, whatever else happens. Then an operation that misses makes what the
site records strictly wider, with one patch, unless inline caching is switched off, and any other
operation leaves the stub as it is. While the site is not cleared, what it records is never narrowed,
and it is patched at most three times for a unary operator, four times for a comparison and eight
times for a truth test. -/
theorem operator_sites_settle (config : Config) (i : Nat) (before after : List Event) {site : Site}
    (own : (ofConfig config).throughout (Event.suits i) (before ++ after))
    (hs : ((ofConfig config).after before).sites[i]? = some site)
    (kind : site.kind ∈ [.unaryOp, .compare, .toBoolean])
    (uncleared : ((ofConfig config).after before).throughout (Event.leavesUncleared i) after) :
    (let s := (ofConfig config).after before
      ∀ op : SiteOperation, op.suits site.kind → ¬ op.isClear →
        ∃ site', (s.perform (.atSite i op)).sites[i]? = some site' ∧
          ((∃ spec, op.miss? ⟨site, s.engine⟩ = some spec ∧ s.engine.config.useIc ∧
              site'.target.spec = spec ∧ site.target.handler < site'.target.handler ∧
              site'.patches = site.patches + 1) ∨
            (op.miss? ⟨site, s.engine⟩ = none ∨ s.engine.config.useIc = false) ∧
              site'.target = site.target ∧ site'.patches = site.patches)) ∧
    ∃ site', ((ofConfig config).after (before ++ after)).sites[i]? = some site' ∧
      site.target.handler ≤ site'.target.handler ∧
      (site.kind = .unaryOp → site'.patches ≤ site.patches + 3) ∧
      (site.kind = .compare → site'.patches ≤ site.patches + 4) ∧
      (site.kind = .toBoolean → site'.patches ≤ site.patches + 8) := by
  have operator : ¬ site.kind.isPropertyAccess := by
    revert kind
    cases site.kind <;> simp [SiteKind.isPropertyAccess]
  -- A single operation patches only with a wider record, and a run can widen it as often as the
  -- slack allows.
  constructor
  · intro s op suits uncleared
    refine ⟨_, perform_atSite hs op, ?_⟩
    cases AtSite.perform_follows (s := ⟨site, s.engine⟩) suits operator uncleared with
    | stays quiet _ target patches => exact .inr ⟨quiet, target, patches⟩
    | records on missed _ target patches =>
      obtain ⟨wider, -⟩ := SiteOperation.widens (s := ⟨site, s.engine⟩) kind suits missed
      have handler : (op.perform ⟨site, s.engine⟩).site.target.handler = _ :=
        congrArg StubSpec.handler target
      exact .inl ⟨_, missed, on, target, handler ▸ wider, patches⟩
  · rw [throughout_append] at own
    have proper := (properAt_ofConfig config i).after own.1
    obtain ⟨site', hs', settles⟩ := after_rel (R := Site.Settles site.kind) (fun a _ => .refl a)
      (fun h h' => h.trans h')
      (fun _ suits uncleared => .perform operator suits (by simpa using uncleared) _ fun hk spec =>
        SiteOperation.widens (hk ▸ kind) suits) proper hs own.2 uncleared
    obtain ⟨-, wider, patches⟩ := settles rfl
    refine ⟨site', by rwa [after_append], wider, fun hk => ?_, fun hk => ?_, fun hk => ?_⟩ <;>
      rw [hk] at patches
    · have := SiteKind.slack_unaryOp site.target.handler
      omega
    · have := SiteKind.slack_compare site.target.handler
      omega
    · have := SiteKind.slack_toBoolean site.target.handler
      omega

/-- Three sites that are patched as often as is possible. The comparison keeps the state of numbers
at its third miss, and a switch of inline caching leaves a site as it is. -/
theorem operator_sites_settle_bounds :
    let boxed : Value := .object ⟨10⟩
    let at' (i : Nat) (ops : List SiteOperation) : List Event :=
      ops.map fun op => .operation (.atSite i op)
    let before : List Event := [
      .operation (.onHeap (.boxedNumber ⟨0x3ff8000000000000⟩)), .operation (.onHeap (.string "s")),
      .operation (.onHeap .object), .operation (.newUnarySite .sub), .operation (.newCompareSite .lt),
      .operation .newToBooleanSite]
    let switch (on : Bool) : Event := .engine fun e => { e with config := { e.config with useIc := on } }
    let after : List Event :=
      switch false :: at' 0 [.unary .null] ++ switch true ::
        at' 0 [.unary (.smi 5), .unary (.smi 6), .unary boxed, .unary .undefined, .unary .null] ++
        at' 1 [.compare (.smi 1) (.smi 2), .compare (.smi 1) boxed, .compare boxed .null,
          .compare .null .null] ++
        at' 2 [.toBoolean .undefined, .toBoolean (.boolean true), .toBoolean .null, .toBoolean (.smi 0),
          .toBoolean (.object ⟨12⟩), .toBoolean (.object ⟨11⟩), .toBoolean boxed, .toBoolean .hole]
    let fresh := (Session.ofConfig {}).after before
    let settled := (Session.ofConfig {}).after (before ++ after)
    fresh.sites.map (fun site => (site.kind, site.patches)) =
        [(.unaryOp, 0), (.compare, 0), (.toBoolean, 0)] ∧
      settled.sites.map Site.patches = [3, 4, 8] ∧
      ∀ i < 3, ∃ site site', fresh.sites[i]? = some site ∧ settled.sites[i]? = some site' ∧
        site.target.handler ≤ site'.target.handler ∧
        (site.kind = .unaryOp → site'.patches ≤ site.patches + 3) ∧
        (site.kind = .compare → site'.patches ≤ site.patches + 4) ∧
        (site.kind = .toBoolean → site'.patches ≤ site.patches + 8) := by
  intro boxed at' before switch after fresh settled
  refine ⟨by decide +kernel, by decide +kernel, fun i hi => ?_⟩
  have made : ∀ i < 3, ∃ site, fresh.sites[i]? = some site ∧
      site.kind ∈ [.unaryOp, .compare, .toBoolean] := by decide +kernel
  have own : ∀ i < 3, (Session.ofConfig {}).throughout (Event.suits i) (before ++ after) := by
    decide +kernel
  have uncleared : ∀ i < 3, fresh.throughout (Event.leavesUncleared i) after := by decide +kernel
  obtain ⟨site, hs, kind⟩ := made i hi
  obtain ⟨-, site', hs', settles⟩ :=
    operator_sites_settle {} i before after (own i hi) hs kind (uncleared i hi)
  exact ⟨site, site', hs, hs', settles⟩

end Speculation
