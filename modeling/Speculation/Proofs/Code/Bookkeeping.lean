import Mathlib.Data.List.Forall2
import Mathlib.Data.List.Nodup
import Speculation.Engine.Execution
import Speculation.Proofs.Code.Registry
import Speculation.Proofs.Code.Space
import Speculation.Proofs.Heap.Growth

/-!
# Which functions run optimized code

The engine lists the functions that run optimized code, so that it can give their code up when it
has to. Code is also set function by function, several closures may share one code object, and
giving up the code of one function changes the list that giving up the code of many goes through.
What is proved here is that the list never goes wrong (`optimized_bookkeeping`): it names the
functions that run optimized code, each once, and all code that was given up stays registered until
its handle is reported.

`Engine.Bookkept` is the invariant. One function that loses its code is `Engine.Discards`, any
number of them is `Engine.GivesUp`; every operation that gives up code is an instance of the second
(`CodeOperation.keeps_of_givesUp`).
-/

namespace Speculation

/-! ### Functions and their code -/

/-- The code of a function whose data is changed. -/
theorem Heap.functionData?_setFunctionCode (h : Heap) (f g : ObjectId) (code : Option CodeId) :
    (h.setFunctionCode f code).functionData? (.object g) =
      if f = g then (h.functionData? (.object g)).map fun d => { d with code }
      else h.functionData? (.object g) := by
  simp only [functionData?, asObject?, Value.objectId?, Option.bind_some, setFunctionCode,
    modifyFunction, object?_modifyObject]
  split
  · cases h.object? g with
    | none => rfl
    | some o =>
      simp only [Option.map_some, Option.bind_some, JsObject.function?]
      cases hc : o.objectClass <;> simp [hc]
  · rfl

namespace Engine

variable {e e' : Engine} {f g : ObjectId} {c : CodeId}

/-- The code that a function runs now. -/
abbrev codeOf? (e : Engine) (f : ObjectId) : Option CodeId := e.currentCode? (some (.object f))

/-- The function runs optimized code. -/
def RunsOptimized (e : Engine) (f : ObjectId) : Prop :=
  ∃ c, e.codeOf? f = some c ∧ (e.codeSpace.get c).isOptimized

/-- The code exists, is not optimized and embeds no shapes. -/
structure Unoptimized (e : Engine) (c : CodeId) : Prop where
  present : c.index < e.codeSpace.size
  unoptimized : ¬ (e.codeSpace.get c).isOptimized
  dependents : (e.codeSpace.get c).dependentShapes = []

/-- The books are right. -/
structure Bookkept (e : Engine) : Prop where
  nodup : e.optimized.Nodup
  exact : ∀ f, f ∈ e.optimized ↔ e.RunsOptimized f
  /-- What a function falls back on is not optimized. -/
  shared : ∀ s c, (e.heap.sharedInfo s).code = some c → e.Unoptimized c
  code : ∀ f c, e.codeOf? f = some c → e.Unoptimized c ∨ (e.codeSpace.get c).isOptimized
  registry : e.registry.Valid

/-- The code was given up, and its handle has not been reported. -/
structure Pending (e : Engine) (h : CodeHandle) (c : CodeId) : Prop where
  marked : (e.codeSpace.get c).markedForDeoptimization
  handle : e.registry.Holds h c
  present : c.index < e.codeSpace.size

theorem Unoptimized.extend (u : e.Unoptimized c) (x : e.codeSpace.Extends e'.codeSpace) :
    e'.Unoptimized c where
  present := Nat.lt_of_lt_of_le u.present x.size
  unoptimized := by rw [x.optimized c u.present]; exact u.unoptimized
  dependents := by rw [x.dependents c u.present]; exact u.dependents

/-- A function runs the code that its data names. -/
theorem codeOf?_eq_some :
    e.codeOf? f = some c ↔ ∃ d, e.heap.functionData? (.object f) = some d ∧ d.code = some c := by
  simp [codeOf?, currentCode?, Option.bind_eq_some_iff]

/-- The code of functions after the code of one of them was set. -/
theorem codeOf?_setFunctionCode {code : Option CodeId}
    (he : e'.heap = e.heap.setFunctionCode f code) (g : ObjectId) :
    e'.codeOf? g =
      if f = g ∧ (e.heap.functionData? (.object f)).isSome then code else e.codeOf? g := by
  simp only [codeOf?, currentCode?, he, Option.bind_some, Heap.functionData?_setFunctionCode]
  by_cases hf : f = g
  · subst hf
    cases e.heap.functionData? (.object f) <;> simp
  · simp [hf]

/-- Code that functions run exists. -/
theorem Bookkept.lt_size (b : e.Bookkept) (hc : e.codeOf? f = some c) :
    c.index < e.codeSpace.size := by
  rcases b.code f c hc with u | o
  · exact u.present
  · exact CodeSpace.lt_size_of_isOptimized o

/-- Functions that keep their code run optimized code if they did. -/
theorem Bookkept.runsOptimized (b : e.Bookkept) (x : e.codeSpace.Extends e'.codeSpace)
    (same : e'.codeOf? f = e.codeOf? f) : e'.RunsOptimized f ↔ e.RunsOptimized f := by
  unfold RunsOptimized
  rw [same]
  refine exists_congr fun c => and_congr_right fun hc => ?_
  rw [x.optimized c (b.lt_size hc)]

/-- What happens to the code space and to the registry alone does not upset the books. -/
theorem Bookkept.step (b : e.Bookkept) (x : e.codeSpace.Extends e'.codeSpace)
    (heap : e'.heap = e.heap) (listed : e'.optimized = e.optimized)
    (registry : e'.registry.Valid) : e'.Bookkept := by
  have same (f : ObjectId) : e'.codeOf? f = e.codeOf? f := by
    simp only [codeOf?, currentCode?, heap]
  exact {
    nodup := listed ▸ b.nodup
    exact f := by rw [listed, b.exact, b.runsOptimized x (same f)]
    shared s c hc := (b.shared s c (heap ▸ hc)).extend x
    code f c hc := by
      rw [same] at hc
      refine (b.code f c hc).imp (·.extend x) fun o => ?_
      rwa [x.optimized c (b.lt_size hc)]
    registry }

/-- The code of one function is set, and the list follows. -/
theorem Bookkept.setCode (b : e.Bookkept) (x : e.codeSpace.Extends e'.codeSpace)
    {code : Option CodeId} (data : (e.heap.functionData? (.object f)).isSome)
    (heap : e'.heap = e.heap.setFunctionCode f code)
    (fits : ∀ c, code = some c → e'.Unoptimized c ∨ (e'.codeSpace.get c).isOptimized)
    (nodup : e'.optimized.Nodup)
    (listed : f ∈ e'.optimized ↔ ∃ c, code = some c ∧ (e'.codeSpace.get c).isOptimized)
    (others : ∀ g, f ≠ g → (g ∈ e'.optimized ↔ g ∈ e.optimized))
    (registry : e'.registry.Valid) : e'.Bookkept := by
  -- Only `f` runs other code than before.
  have own : e'.codeOf? f = code := by simp [codeOf?_setFunctionCode heap, data]
  have same {g : ObjectId} (hg : f ≠ g) : e'.codeOf? g = e.codeOf? g := by
    simp [codeOf?_setFunctionCode heap, hg]
  exact {
    nodup
    exact g := by
      by_cases hg : f = g
      · subst hg
        rw [listed, RunsOptimized, own]
      · rw [others g hg, b.exact, b.runsOptimized x (same hg)]
    shared s c hc := by
      rw [heap] at hc
      exact (b.shared s c hc).extend x
    code g c hc := by
      by_cases hg : f = g
      · subst hg
        exact fits c (own.symm.trans hc)
      · rw [same hg] at hc
        refine (b.code g c hc).imp (·.extend x) fun o => ?_
        rwa [x.optimized c (b.lt_size hc)]
    registry }

/-! ### Installing code -/

/-- Code is installed in a function, which is listed once, or nothing happens. -/
theorem installCode_eq (e : Engine) (f : ObjectId) (code : CodeId) :
    e.installCode f code = (false, e) ∨
      (e.heap.functionData? (.object f)).isSome ∧ e.installCode f code = (true,
        { e with
          heap := e.heap.setFunctionCode f (some code)
          optimized := if f ∈ e.optimized then e.optimized else e.optimized ++ [f] }) := by
  unfold installCode
  split
  · exact .inl rfl
  · rename_i d hd
    split
    · exact .inl rfl
    · simp [hd]

/-- Installing optimized code keeps the books. -/
theorem Bookkept.installCode (b : e.Bookkept) (hc : (e.codeSpace.get c).isOptimized) :
    (e.installCode f c).2.Bookkept := by
  rcases e.installCode_eq f c with same | ⟨data, installed⟩
  · rwa [same]
  · rw [installed]
    refine b.setCode (.refl _) data rfl ?_ ?_ ?_ ?_ b.registry
    · rintro _ ⟨⟩
      exact .inr hc
    · dsimp only
      split
      · exact b.nodup
      · exact List.nodup_append.2 ⟨b.nodup, List.nodup_singleton f, by grind⟩
    · have listed : f ∈ if f ∈ e.optimized then e.optimized else e.optimized ++ [f] := by
        split <;> simp [*]
      simpa [hc] using listed
    · intro g hg
      dsimp only
      split <;> simp [Ne.symm hg]

/-- Functions that run optimized code still do after an installation. -/
theorem mem_optimized_installCode (hf : g ∈ e.optimized) :
    g ∈ (e.installCode f c).2.optimized := by
  rcases e.installCode_eq f c with same | ⟨-, installed⟩
  · rwa [same]
  · rw [installed]
    dsimp only
    split <;> simp [hf]

theorem installCode_kept (e : Engine) (f : ObjectId) (c : CodeId) :
    (e.installCode f c).2.codeSpace = e.codeSpace ∧
      (e.installCode f c).2.registry = e.registry := by
  rcases e.installCode_eq f c with same | ⟨-, installed⟩
  · simp [same]
  · simp [installed]

/-! ### Giving up the code of one function -/

/-- A function loses its optimized code. -/
structure Discards (e : Engine) (f : ObjectId) (c : CodeId) (h : CodeHandle) (e' : Engine) :
    Prop where
  code : e.codeOf? f = some c
  optimized : (e.codeSpace.get c).isOptimized
  heap : ∃ d, e.heap.functionData? (.object f) = some d ∧
    e'.heap = e.heap.setFunctionCode f (e.heap.sharedInfo d.shared).code
  listed : e'.optimized = e.optimized.filter fun g => g ≠ f
  codeSpace : e'.codeSpace =
    e.codeSpace.modify c fun code => { code with markedForDeoptimization := true }
  handle : h = (e.registry.insert c).1
  registry : e'.registry = (e.registry.insert c).2

/-- Giving up the code of a function that runs some discards it and registers it. -/
theorem deoptimizeFunction_discards (runs : e.RunsOptimized f) :
    ∃ c, e.Discards f c (e.registry.insert c).1 (e.deoptimizeFunction (.object f)).2 ∧
      (e.deoptimizeFunction (.object f)).1 = some (e.registry.insert c).1 := by
  obtain ⟨c, hc, optimized⟩ := runs
  obtain ⟨d, hd, hdc⟩ := codeOf?_eq_some.1 hc
  refine ⟨c, ?_⟩
  simp only [deoptimizeFunction, Value.objectId?, hd, hdc, optimized, if_true]
  refine ⟨?_, trivial⟩
  split <;> exact ⟨hc, optimized, ⟨d, hd, rfl⟩, rfl, rfl, rfl, rfl⟩

/-- There is nothing to give up where no optimized code runs. -/
theorem deoptimizeFunction_of_not {v : Value} (plain : ∀ f, v = .object f → ¬ e.RunsOptimized f) :
    e.deoptimizeFunction v = (none, e) := by
  unfold deoptimizeFunction
  split
  · rename_i f d hf hd
    obtain rfl : v = .object f := by
      cases v <;> cases hf
      rfl
    cases hc : d.code with
    | none => rfl
    | some c =>
      have ordinary : ¬ (e.codeSpace.get c).isOptimized := fun o =>
        plain f rfl ⟨c, codeOf?_eq_some.2 ⟨d, hd, hc⟩, o⟩
      simp [ordinary]
  · rfl

namespace Discards

variable {h : CodeHandle}

/-- Discarding code only marks it. -/
theorem grows (s : e.Discards f c h e') : e.codeSpace.Extends e'.codeSpace :=
  s.codeSpace ▸ .mark _ c

/-- Other functions run the code that they ran. -/
theorem codeOf?_ne (s : e.Discards f c h e') (hg : f ≠ g) : e'.codeOf? g = e.codeOf? g := by
  obtain ⟨d, -, heap⟩ := s.heap
  simp [codeOf?_setFunctionCode heap, hg]

/-- Discarding code keeps the books. -/
theorem bookkept (s : e.Discards f c h e') (b : e.Bookkept) : e'.Bookkept := by
  obtain ⟨d, hd, heap⟩ := s.heap
  have fallback : ∀ c, (e.heap.sharedInfo d.shared).code = some c → e'.Unoptimized c :=
    fun c hc => (b.shared _ c hc).extend s.grows
  refine b.setCode s.grows (by simp [hd]) heap (fun c hc => .inl (fallback c hc)) ?_ ?_ ?_ ?_
  · rw [s.listed]
    exact b.nodup.filter _
  · constructor
    · simp [s.listed]
    · rintro ⟨c, hc, o⟩
      exact absurd o (fallback c hc).unoptimized
  · intro g hg
    simp [s.listed, Ne.symm hg]
  · rw [s.registry]
    exact b.registry.insert c

/-- The code is registered under its handle. -/
theorem pending (s : e.Discards f c h e') (b : e.Bookkept) : e'.Pending h c where
  marked := by
    rw [s.codeSpace, e.codeSpace.get_mark c (b.lt_size s.code), if_pos rfl]
  handle := by
    rw [s.registry, s.handle]
    exact b.registry.holds_insert c
  present := Nat.lt_of_lt_of_le (b.lt_size s.code) s.grows.size

end Discards

/-! ### Giving up the code of many functions -/

/-- Functions lose their optimized code, one handle for each of them. -/
structure GivesUp (e : Engine) (fs : List ObjectId) (hs : List CodeHandle) (e' : Engine) :
    Prop where
  bookkept : e'.Bookkept
  grows : e.codeSpace.Extends e'.codeSpace
  listed : e'.optimized = e.optimized.filter fun g => g ∉ fs
  handles : List.Forall₂ (fun f h => ∃ c, e.codeOf? f = some c ∧ e'.Pending h c) fs hs
  live : e'.registry.live = e.registry.live + hs.length
  pending : ∀ h c, e.registry.Holds h c → e'.registry.Holds h c
  others : ∀ g, g ∉ fs → e'.codeOf? g = e.codeOf? g

theorem GivesUp.nil (b : e.Bookkept) : e.GivesUp [] [] e where
  bookkept := b
  grows := .refl _
  listed := by simp
  handles := .nil
  live := rfl
  pending _ _ := id
  others _ _ := rfl

/-- One function, and then the others. -/
theorem Discards.cons {e'' : Engine} {h : CodeHandle} {fs : List ObjectId} {hs : List CodeHandle}
    (s : e.Discards f c h e') (b : e.Bookkept) (rest : e'.GivesUp fs hs e'') (hf : f ∉ fs) :
    e.GivesUp (f :: fs) (h :: hs) e'' where
  bookkept := rest.bookkept
  grows := s.grows.trans rest.grows
  listed := by
    rw [rest.listed, s.listed, List.filter_filter]
    congr 1
    funext g
    simp [Bool.and_comm]
  handles := by
    have own := s.pending b
    refine .cons ⟨c, s.code, ?_, rest.pending h c own.handle, ?_⟩ ?_
    · exact rest.grows.marked c own.present own.marked
    · exact Nat.lt_of_lt_of_le own.present rest.grows.size
    · -- The other functions still have the code that they had at first.
      have ne : ∀ g ∈ fs, f ≠ g := fun g hg e => hf (e ▸ hg)
      refine ((List.forall₂_and_left _ _).2 ⟨ne, rest.handles⟩).imp ?_
      rintro g h' ⟨hg, c', hc', pending⟩
      exact ⟨c', by rwa [← s.codeOf?_ne hg], pending⟩
  live := by
    rw [rest.live, s.registry, CodeRegistry.live_insert, List.length_cons]
    omega
  pending h' c' hc' := by
    refine rest.pending h' c' ?_
    rw [s.registry]
    exact hc'.insert b.registry c
  others g hg := by
    simp only [List.mem_cons, not_or] at hg
    rw [rest.others g hg.2, s.codeOf?_ne (Ne.symm hg.1)]

/-- Giving up functions one by one gives up all of them. -/
theorem deoptimizeEach_givesUp (b : e.Bookkept) {fs : List ObjectId} (nodup : fs.Nodup)
    (listed : ∀ f ∈ fs, f ∈ e.optimized) :
    e.GivesUp fs (e.deoptimizeEach fs).1 (e.deoptimizeEach fs).2 := by
  -- By induction over the functions; those to come are still listed after the first one.
  induction fs generalizing e with
  | nil => exact .nil b
  | cons f fs ih =>
    obtain ⟨hf, nodup⟩ := List.nodup_cons.1 nodup
    obtain ⟨c, s, handle⟩ :=
      deoptimizeFunction_discards ((b.exact f).1 (listed f List.mem_cons_self))
    have rest := ih (s.bookkept b) nodup fun g hg => by
      have ne : g ≠ f := fun e => hf (e ▸ hg)
      simp [s.listed, ne, listed g (List.mem_cons_of_mem _ hg)]
    have := s.cons b rest hf
    simpa only [deoptimizeEach, handle, Option.toList_some, List.singleton_append] using this

/-- Giving up by a test gives up the listed functions that pass it. -/
theorem deoptimizeWhere_givesUp (b : e.Bookkept) (test : Heap → Value → Bool) :
    e.GivesUp (e.optimized.filter fun f => test e.heap (.object f)) (e.deoptimizeWhere test).1
      (e.deoptimizeWhere test).2 :=
  deoptimizeEach_givesUp b (b.nodup.filter _) fun _ hf => (List.mem_filter.1 hf).1

theorem deoptimizeFunction_kept (e : Engine) (v : Value) :
    (e.deoptimizeFunction v).2.stubCache = e.stubCache ∧
      (e.deoptimizeFunction v).2.config = e.config := by
  unfold deoptimizeFunction
  split
  · split
    · exact ⟨rfl, rfl⟩
    · split
      · dsimp only
        split <;> exact ⟨rfl, rfl⟩
      · exact ⟨rfl, rfl⟩
  · exact ⟨rfl, rfl⟩

/-- Giving up code touches neither the stub cache nor the configuration. -/
theorem deoptimizeEach_kept (e : Engine) (fs : List ObjectId) :
    (e.deoptimizeEach fs).2.stubCache = e.stubCache ∧
      (e.deoptimizeEach fs).2.config = e.config := by
  induction fs generalizing e with
  | nil => exact ⟨rfl, rfl⟩
  | cons f fs ih =>
    have first := e.deoptimizeFunction_kept (.object f)
    have rest := ih (e.deoptimizeFunction (.object f)).2
    exact ⟨rest.1.trans first.1, rest.2.trans first.2⟩

/-- Entries of the shape leave the stub cache, and then the code that depends on the shape is
given up. -/
theorem invalidateShape_eq (e : Engine) (shape : ShapeId) :
    ∃ trace, e.invalidateShape shape =
      ({ e with stubCache := (e.stubCache.evictShape shape).2, trace } : Engine).deoptimizeEach
        (e.optimized.filter (e.dependsOn shape)) := by
  unfold invalidateShape
  dsimp only
  split <;> exact ⟨_, rfl⟩

/-- Invalidating a shape gives up the functions that depend on it. -/
theorem invalidateShape_givesUp (b : e.Bookkept) (shape : ShapeId) :
    e.GivesUp (e.optimized.filter (e.dependsOn shape)) (e.invalidateShape shape).1
      (e.invalidateShape shape).2 := by
  obtain ⟨trace, same⟩ := e.invalidateShape_eq shape
  rw [same]
  have evicted : Bookkept
      { e with stubCache := (e.stubCache.evictShape shape).2, trace } :=
    b.step (.refl _) rfl rfl b.registry
  have g := deoptimizeEach_givesUp evicted (b.nodup.filter (e.dependsOn shape))
    fun _ hf => (List.mem_filter.1 hf).1
  exact ⟨g.bookkept, g.grows, g.listed, g.handles, g.live, g.pending, g.others⟩

/-- Whether a function depends on a shape, read off its code. -/
theorem dependsOn_iff {shape : ShapeId} :
    e.dependsOn shape f ↔
      ∃ c, e.codeOf? f = some c ∧ shape ∈ (e.codeSpace.get c).dependentShapes := by
  unfold dependsOn
  cases hc : e.currentCode? (some (.object f)) with
  | none => simp [codeOf?, hc]
  | some c => simp [codeOf?, hc]

/-- Once a shape is invalidated, no function runs code that depends on it. -/
theorem invalidateShape_dependents (b : e.Bookkept) {shape : ShapeId}
    (hc : (e.invalidateShape shape).2.codeOf? f = some c) :
    shape ∉ ((e.invalidateShape shape).2.codeSpace.get c).dependentShapes := by
  have g := invalidateShape_givesUp b shape
  rcases g.bookkept.code f c hc with plain | o
  · simp [plain.dependents]
  · -- Optimized code that is left is that of a function that was not picked.
    have listed := (g.bookkept.exact f).2 ⟨c, hc, o⟩
    rw [g.listed, List.mem_filter, decide_eq_true_eq] at listed
    have keeps : ¬ e.dependsOn shape f := fun d => listed.2 (List.mem_filter.2 ⟨listed.1, d⟩)
    rw [g.others f listed.2] at hc
    rw [g.grows.dependents c (b.lt_size hc)]
    exact fun hs => keeps (dependsOn_iff.2 ⟨c, hc, hs⟩)

/-- Once a shape is invalidated, no entry of the stub cache is for it. -/
theorem mem_stubCache_invalidateShape {shape : ShapeId} {entry : StubKey × Stub}
    (he : entry ∈ (e.invalidateShape shape).2.stubCache.entries.toList) :
    entry.1.shape ≠ shape := by
  obtain ⟨trace, same⟩ := e.invalidateShape_eq shape
  rw [same, (deoptimizeEach_kept _ _).1] at he
  simpa using (List.mem_filter.1 he).2

end Engine

/-! ### Operations on code -/

/-- What is done with code. -/
inductive CodeOperation where
  | add (code : Code)
  | install (function : ObjectId) (code : CodeId)
  | deoptimize (function : Value)
  | deoptimizeWhere (test : Heap → Value → Bool)
  | deoptimizeAll
  | invalidateShape (shape : ShapeId)
  | forget (handle : CodeHandle)

namespace CodeOperation

open Engine

/-- The handles of the code that is given up, and the engine after the operation. -/
def perform (e : Engine) : CodeOperation → List CodeHandle × Engine
  | add code => ([], (e.addCode code).2)
  | install function code => ([], (e.installCode function code).2)
  | deoptimize function =>
    ((e.deoptimizeFunction function).1.toList, (e.deoptimizeFunction function).2)
  | deoptimizeWhere test => e.deoptimizeWhere test
  | deoptimizeAll => e.deoptimizeAll
  | invalidateShape shape => e.invalidateShape shape
  | forget handle => ([], (e.forgetCode handle).2)

/-- Whether the operation drops an entry of the registry. -/
def drops (e : Engine) : CodeOperation → Bool
  | forget handle => (e.forgetCode handle).1
  | _ => false

/-- Only optimized code is installed. -/
def isAllowed (e : Engine) : CodeOperation → Bool
  | install _ code => (e.codeSpace.get code).isOptimized
  | _ => true

/-- What an operation does to the books. -/
structure Keeps (e : Engine) (op : CodeOperation) : Prop where
  bookkept : (op.perform e).2.Bookkept
  grows : e.codeSpace.Extends (op.perform e).2.codeSpace
  /-- Every handle stands for one of the functions that have left the list, and leads to the code
  that this function had. -/
  handles : List.Forall₂ (fun f h => ∃ c, e.codeOf? f = some c ∧ (op.perform e).2.Pending h c)
    (e.optimized.filter fun f => f ∉ (op.perform e).2.optimized) (op.perform e).1
  live : (op.perform e).2.registry.live + (op.drops e).toNat =
    e.registry.live + (op.perform e).1.length
  pending : ∀ h c, e.registry.Holds h c → op ≠ .forget h → (op.perform e).2.registry.Holds h c

variable {e : Engine}

/-- Operations that give up the code of listed functions, in the order of the list. -/
theorem keeps_of_givesUp {op : CodeOperation} {fs : List ObjectId}
    (g : e.GivesUp fs (op.perform e).1 (op.perform e).2)
    (order : e.optimized.filter (fun f => f ∈ fs) = fs) (drops : op.drops e = false) :
    Keeps e op where
  bookkept := g.bookkept
  grows := g.grows
  handles := by
    have lost : e.optimized.filter (fun f => f ∉ (op.perform e).2.optimized) = fs := by
      rw [← order, g.listed]
      refine List.filter_congr fun f hf => ?_
      simp [hf]
    rw [lost]
    exact g.handles
  live := by rw [drops, g.live]; rfl
  pending h c hc _ := g.pending h c hc

/-- Operations that give up nothing. -/
theorem keeps_of_nil {op : CodeOperation} (handles : (op.perform e).1 = [])
    (bookkept : (op.perform e).2.Bookkept) (grows : e.codeSpace.Extends (op.perform e).2.codeSpace)
    (stay : ∀ f ∈ e.optimized, f ∈ (op.perform e).2.optimized)
    (live : (op.perform e).2.registry.live + (op.drops e).toNat = e.registry.live)
    (pending : ∀ h c, e.registry.Holds h c → op ≠ .forget h →
      (op.perform e).2.registry.Holds h c) : Keeps e op where
  bookkept
  grows
  handles := by
    have lost : e.optimized.filter (fun f => f ∉ (op.perform e).2.optimized) = [] :=
      List.filter_eq_nil_iff.2 fun f hf => by simp [stay f hf]
    rw [lost, handles]
    exact .nil
  live := by rw [live, handles]; rfl
  pending

/-- Every allowed operation keeps the books. -/
theorem keeps (b : e.Bookkept) {op : CodeOperation} (allowed : op.isAllowed e) : Keeps e op := by
  -- Functions that a test picks from the list are in its order.
  have order (p : ObjectId → Bool) :
      e.optimized.filter (fun f => f ∈ e.optimized.filter p) = e.optimized.filter p :=
    List.filter_congr fun f hf => by simp [hf]
  cases op with
  | add code =>
    have x := CodeSpace.Extends.add e.codeSpace code
    exact keeps_of_nil rfl (b.step x rfl rfl b.registry) x (fun _ => id) rfl fun _ _ hc _ => hc
  | install f code =>
    obtain ⟨codes, registry⟩ := e.installCode_kept f code
    refine keeps_of_nil rfl (b.installCode allowed) ?_ (fun g => mem_optimized_installCode) ?_ ?_
    · exact codes.symm ▸ CodeSpace.Extends.refl e.codeSpace
    · exact congrArg CodeRegistry.live registry
    · intro h c hc _
      rwa [perform, registry]
  | deoptimize v =>
    by_cases runs : ∃ f, v = .object f ∧ e.RunsOptimized f
    · obtain ⟨f, rfl, runs⟩ := runs
      have listed := (b.exact f).2 runs
      obtain ⟨c, s, handle⟩ := deoptimizeFunction_discards runs
      have g := s.cons b (.nil (s.bookkept b)) List.not_mem_nil
      have given : e.GivesUp [f] (perform e (.deoptimize (.object f))).1
          (perform e (.deoptimize (.object f))).2 := by
        simpa only [perform, handle, Option.toList_some] using g
      refine keeps_of_givesUp given ?_ rfl
      have single : e.optimized.filter (fun g => g ∈ [f]) = e.optimized.filter fun g => g = f :=
        List.filter_congr fun g _ => by simp
      rw [single, List.filter_eq, List.count_eq_one_of_mem b.nodup listed]
      rfl
    · have none := e.deoptimizeFunction_of_not fun f hv h => runs ⟨f, hv, h⟩
      have same : (deoptimize v).perform e = ([], e) := by simp [perform, none]
      refine keeps_of_nil (by rw [same]) (by rwa [same]) ?_ (by simp [same]) (by rw [same]; rfl)
        fun h c hc _ => by rwa [same]
      exact congrArg (·.2.codeSpace) same ▸ .refl _
  | deoptimizeWhere test => exact keeps_of_givesUp (deoptimizeWhere_givesUp b test) (order _) rfl
  | deoptimizeAll => exact keeps_of_givesUp (deoptimizeWhere_givesUp b _) (order _) rfl
  | invalidateShape shape =>
    exact keeps_of_givesUp (invalidateShape_givesUp b shape) (order _) rfl
  | forget h =>
    refine keeps_of_nil rfl (b.step (.refl _) rfl rfl (b.registry.drop h)) (.refl _) (fun _ => id)
      (CodeRegistry.live_drop b.registry h) fun h' c hc ne => ?_
    exact hc.drop fun e => ne (e ▸ rfl)

end CodeOperation

/-! ### Any number of operations -/

namespace Engine

/-- The engine after operations on code, one after the other. -/
def runCode (e : Engine) : List CodeOperation → Engine
  | [] => e
  | op :: ops => (op.perform e).2.runCode ops

/-- How many functions lose their optimized code. -/
def discarded (e : Engine) : List CodeOperation → Nat
  | [] => 0
  | op :: ops => (op.perform e).1.length + (op.perform e).2.discarded ops

/-- How many handles are reported that had an entry. -/
def dropped (e : Engine) : List CodeOperation → Nat
  | [] => 0
  | op :: ops => (op.drops e).toNat + (op.perform e).2.dropped ops

/-- Only optimized code is ever installed. -/
def allows (e : Engine) : List CodeOperation → Bool
  | [] => true
  | op :: ops => op.isAllowed e && (op.perform e).2.allows ops

variable {e : Engine} {ops before after : List CodeOperation}

theorem runCode_append (e : Engine) (before after : List CodeOperation) :
    e.runCode (before ++ after) = (e.runCode before).runCode after := by
  induction before generalizing e with
  | nil => rfl
  | cons op before ih => exact ih _

theorem allows_append :
    e.allows (before ++ after) ↔ e.allows before ∧ (e.runCode before).allows after := by
  induction before generalizing e with
  | nil => simp [allows, runCode]
  | cons op before ih => simp [allows, runCode, ih, and_assoc]

/-- What operations on code do to the books. -/
structure KeepsAll (e : Engine) (ops : List CodeOperation) : Prop where
  bookkept : (e.runCode ops).Bookkept
  grows : e.codeSpace.Extends (e.runCode ops).codeSpace
  live : (e.runCode ops).registry.live + e.dropped ops = e.registry.live + e.discarded ops
  pending : ∀ h c, e.registry.Holds h c → .forget h ∉ ops → (e.runCode ops).registry.Holds h c

/-- So does every allowed run. -/
theorem keepsAll (b : e.Bookkept) (allowed : e.allows ops) : e.KeepsAll ops := by
  induction ops generalizing e with
  | nil => exact ⟨b, .refl _, rfl, fun _ _ hc _ => hc⟩
  | cons op ops ih =>
    rw [allows, Bool.and_eq_true] at allowed
    have first := CodeOperation.keeps b allowed.1
    have rest := ih first.bookkept allowed.2
    refine ⟨rest.bookkept, first.grows.trans rest.grows, ?_, fun h c hc out => ?_⟩
    · have := first.live
      have := rest.live
      simp only [runCode, dropped, discarded]
      omega
    · simp only [List.mem_cons, not_or] at out
      exact rest.pending h c (first.pending h c hc (Ne.symm out.1)) out.2

/-- Functions run the code or fall back on it. -/
def InUse (e : Engine) (c : CodeId) : Prop :=
  (∃ s, (e.heap.sharedInfo s).code = some c) ∨ ∃ f, e.codeOf? f = some c

/-- Only functions and shared data that exist need to be looked at. -/
theorem forall_inUse_iff {p : CodeId → Prop} :
    (∀ c, e.InUse c → p c) ↔
      (∀ i < e.heap.shared.size, ∀ c ∈ (e.heap.sharedInfo ⟨i⟩).code, p c) ∧
      ∀ i < e.heap.cells.size, ∀ c ∈ e.codeOf? ⟨i⟩, p c := by
  refine ⟨fun all => ⟨fun i _ c hc => all c (.inl ⟨_, hc⟩), fun i _ c hc => all c (.inr ⟨_, hc⟩)⟩,
    fun ⟨shared, code⟩ c use => ?_⟩
  rcases use with ⟨s, hc⟩ | ⟨f, hc⟩
  · refine shared s.index (Nat.lt_of_not_le fun out => ?_) c hc
    rw [Heap.sharedInfo, Array.getD_eq_getD_getElem?, Array.getElem?_eq_none out] at hc
    cases hc
  · refine code f.index (Nat.lt_of_not_le fun out => ?_) c hc
    obtain ⟨d, hd, -⟩ := codeOf?_eq_some.1 hc
    have absent : e.heap.object? f = none := by
      simp [Heap.object?, Heap.cell?, Array.getElem?_eq_none out]
    simp [Heap.functionData?, Heap.asObject?, Value.objectId?, absent] at hd

/-- No function runs optimized code yet, and nothing is registered. Functions may have code, and
something to fall back on. -/
structure Untouched (e : Engine) : Prop where
  optimized : e.optimized = []
  registry : e.registry = {}
  code : ∀ c, e.InUse c → c.index < e.codeSpace.size ∧ ¬ (e.codeSpace.get c).isOptimized

/-- No code that functions run or fall back on embeds shapes. Shapes are embedded by the optimizing
compiler, on the strength of feedback, and unoptimized code is made with none (`Code.unoptimized`); but
the code space takes any code. -/
def EmbedsNoShapes (e : Engine) : Prop :=
  ∀ c, e.InUse c → (e.codeSpace.get c).dependentShapes = []

instance (e : Engine) : Decidable e.Untouched :=
  decidable_of_iff (e.optimized = [] ∧ e.registry = {} ∧ _)
    ⟨fun ⟨optimized, registry, code⟩ => ⟨optimized, registry, forall_inUse_iff.2 code⟩,
      fun u => ⟨u.optimized, u.registry, forall_inUse_iff.1 u.code⟩⟩

instance (e : Engine) : Decidable e.EmbedsNoShapes := decidable_of_iff _ forall_inUse_iff.symm

/-- Books that were never touched are kept. -/
theorem Untouched.bookkept (u : e.Untouched) (plain : e.EmbedsNoShapes) : e.Bookkept where
  nodup := u.optimized ▸ .nil
  exact f := by
    rw [u.optimized]
    refine ⟨nofun, ?_⟩
    rintro ⟨c, hc, o⟩
    exact absurd o (u.code c (.inr ⟨f, hc⟩)).2
  shared s c hc :=
    have use : e.InUse c := .inl ⟨s, hc⟩
    ⟨(u.code c use).1, (u.code c use).2, plain c use⟩
  code f c hc :=
    have use : e.InUse c := .inr ⟨f, hc⟩
    .inl ⟨(u.code c use).1, (u.code c use).2, plain c use⟩
  registry := u.registry ▸ CodeRegistry.valid_empty

/-- **The books of optimized code are right.** Let code be added, installed and given up in any way,
starting with functions that run unoptimized code without shapes in it, and let only optimized code be
installed. Then

* the list names the functions that run optimized code, each once;
* as many entries are registered as functions have lost their code and handles have not been
  reported;
* an operation that takes functions off the list returns one handle for each; the code that this
  function had is marked, and it stays registered until the handle is reported, which leads to it as
  long as handles have room for all places of the registry;
* giving up all code empties the list;
* once a shape is invalidated no function runs code that depends on it, no entry of the stub cache
  is for it, and functions whose code does not depend on it run the code that they did. -/
theorem optimized_bookkeeping {start : Engine} (untouched : start.Untouched)
    (plain : start.EmbedsNoShapes) (ops : List CodeOperation) (allowed : start.allows ops) :
    (start.runCode ops).optimized.Nodup ∧
    (∀ f, f ∈ (start.runCode ops).optimized ↔ (start.runCode ops).RunsOptimized f) ∧
    (start.runCode ops).registry.live + start.dropped ops = start.discarded ops ∧
    (∀ before op after, ops = before ++ op :: after →
      let e := start.runCode before
      let e' := (op.perform e).2
      List.Forall₂
        (fun f h => ∃ c, e.codeOf? f = some c ∧ (e.codeSpace.get c).isOptimized ∧
          ((start.runCode ops).codeSpace.get c).markedForDeoptimization ∧
          (.forget h ∉ after → (start.runCode ops).registry.contains c ∧
            ((start.runCode ops).registry.entries.size ≤ 2 ^ 32 →
              (start.runCode ops).registry.get? h = some c)))
        (e.optimized.filter fun f => f ∉ e'.optimized) (op.perform e).1) ∧
    (start.runCode ops).deoptimizeAll.2.optimized = [] ∧
    ∀ shape,
      let e' := ((start.runCode ops).invalidateShape shape).2
      (∀ f c, e'.codeOf? f = some c → shape ∉ (e'.codeSpace.get c).dependentShapes) ∧
      (∀ entry ∈ e'.stubCache.entries.toList, entry.1.shape ≠ shape) ∧
      ∀ f, ¬ (start.runCode ops).dependsOn shape f →
        e'.codeOf? f = (start.runCode ops).codeOf? f := by
  have initial := untouched.bookkept plain
  have all := keepsAll initial allowed
  refine ⟨all.bookkept.nodup, all.bookkept.exact, ?_, ?_, ?_, fun shape => ⟨?_, ?_, ?_⟩⟩
  · have live := all.live
    rw [untouched.registry] at live
    simpa using live
  -- The run is cut at `op`: the books balance before it, it gives the code up, and what follows
  -- keeps the code pending until it is forgotten.
  · rintro before op after rfl
    obtain ⟨ab, allowed⟩ := allows_append.1 allowed
    obtain ⟨ao, aa⟩ := Bool.and_eq_true_iff.1 allowed
    have b := (keepsAll initial ab).bookkept
    have now := CodeOperation.keeps b ao
    have later := keepsAll now.bookkept aa
    have lost : ∀ f ∈ (start.runCode before).optimized.filter
        (fun f => f ∉ (op.perform (start.runCode before)).2.optimized),
        (start.runCode before).RunsOptimized f :=
      fun f hf => (b.exact f).1 (List.mem_filter.1 hf).1
    refine ((List.forall₂_and_left _ _).2 ⟨lost, now.handles⟩).imp ?_
    rintro f h ⟨⟨c, hc, o⟩, c', hc', pending⟩
    obtain rfl := Option.some.inj (hc.symm.trans hc')
    simp only [runCode_append, runCode]
    refine ⟨c, hc, o, later.grows.marked c pending.present pending.marked, fun out => ?_⟩
    have held := later.pending h c pending.handle out
    exact ⟨held.contains, fun fits => (CodeRegistry.Fits.get?_eq_some_iff fits).2 held⟩
  · have gone := (deoptimizeWhere_givesUp all.bookkept fun _ _ => true).listed
    rw [deoptimizeAll, gone]
    simp
  · exact fun f c => invalidateShape_dependents all.bookkept
  · exact fun entry => mem_stubCache_invalidateShape
  · intro f keeps
    refine (invalidateShape_givesUp all.bookkept shape).others f fun hf => keeps ?_
    exact (List.mem_filter.1 hf).2

/-- Two closures share their optimized code. Both are optimized; the first one is given up, is
optimized again, and is given up with the second one when a shape is invalidated. One handle is
reported, twice. -/
theorem optimized_bookkeeping_shared :
    let start : Engine := ((do
      let shared ← Engine.onHeap (Heap.newShared "f" 0 none)
      let (_, _) ← compileBaseline shared 128 {}
      let _ ← Engine.onHeap (Heap.newFunction shared)
      return : Engine.Action Unit) (Engine.ofConfig {})).2
    let code : Code := { Code.optimized ⟨2⟩ 64 0 {} with dependentShapes := [Heap.objectShape] }
    let first : CodeHandle := ⟨0, 0⟩
    let ops : List CodeOperation := [
      .add code, .install ⟨11⟩ ⟨10⟩, .install ⟨13⟩ ⟨10⟩,
      .deoptimizeWhere fun _ v => v = .object ⟨11⟩, .install ⟨11⟩ ⟨10⟩, .forget first,
      .invalidateShape Heap.objectShape, .forget first]
    start.Untouched ∧ start.EmbedsNoShapes ∧ start.allows ops ∧ start.discarded ops = 3 ∧
      (start.runCode ops).registry.live = 2 := by
  intro start code first ops
  have untouched : start.Untouched := by decide +kernel
  have plain : start.EmbedsNoShapes := by decide +kernel
  have allowed : start.allows ops := by decide +kernel
  have live := (optimized_bookkeeping untouched plain ops allowed).2.2.1
  have dropped : start.dropped ops = 1 := by decide +kernel
  have discarded : start.discarded ops = 3 := by decide +kernel
  exact ⟨untouched, plain, allowed, discarded, by omega⟩

end Engine

end Speculation
