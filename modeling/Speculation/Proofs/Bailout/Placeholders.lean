import Speculation.Proofs.Bailout.Grammar
import Speculation.Proofs.Bailout.Success

/-!
# Placeholders

A slot that stands for a number or an arguments object gets a placeholder, and what it stands for waits
in a list beside the frames. `Bailout.waitingFor` looks up what waits for a word: exactly one record if
the slot of the word stands for such a value, and none otherwise. So once all records are filled in, no
slot is left with a placeholder in place of its value.

There is one word that is copied from another. The lowest word of a constructor's frame repeats the
receiver's word as it is before anything is filled in, and nothing waits for the copy. If the receiver
is a value that has to wait, the copy keeps the placeholder (`allocated_object_kept_placeholder`).
-/

namespace Speculation

/-! ### Looking up what waits -/

/-- What has to be filled into the word of a slot. -/
def Slot.waiting : Slot → List Recovered
  | value (.number d) => [.number d]
  | value (.arguments vs) => [.arguments vs]
  | _ => []

/-- The slot of a word, in frames with these layouts. -/
def Layout.slotAt? (ls : List Layout) (i o : Nat) : Option Slot := (ls[i]?).bind fun l => l.at? o

/-- What waits for a word of a bailout. -/
def Bailout.waitingFor (b : Bailout) (i o : Nat) : List Recovered :=
  ((b.numbers.filter fun d => d.frame == i && d.offset == o).map fun d => .number d.value) ++
    (b.arguments.filter fun d => d.frame == i && d.offset == o).map fun d => .arguments d.values

/-- A record of a number is for the place that it was made for. -/
theorem DeferredNumber.of?_eq_some (j : Nat) (p : Nat × Recovered) (d : DeferredNumber)
    (h : of? j p = some d) : d.frame = j ∧ d.offset = p.1 := by
  obtain ⟨o, v⟩ := p
  cases v <;> cases h
  exact ⟨rfl, rfl⟩

/-- A record of arguments is for the place that it was made for. -/
theorem DeferredArguments.of?_eq_some (j : Nat) (p : Nat × Recovered) (d : DeferredArguments)
    (h : of? j p = some d) : d.frame = j ∧ d.offset = p.1 := by
  obtain ⟨o, v⟩ := p
  cases v <;> cases h
  exact ⟨rfl, rfl⟩

/-- An element that a test selects from a list in which it selects no two. -/
theorem filter_eq_singleton {α : Type} {p : α → Bool} {xs : List α} {x : α}
    (apart : xs.Pairwise fun y z => p y = true → p z = false) (hx : x ∈ xs) (px : p x = true) :
    xs.filter p = [x] := by
  induction apart with
  | nil => cases hx
  | @cons y ys later _ ih =>
    rcases List.mem_cons.mp hx with rfl | hx
    · rw [List.filter_cons_of_pos px, List.filter_eq_nil_iff.mpr]
      intro z hz
      simp [later z hz px]
    · have py : p y = false := by
        cases hy : p y with
        | false => rfl
        | true => exact absurd (later x hx hy) (by simp [px])
      rw [List.filter_cons_of_neg (by simp [py]), ih hx]

namespace Layout

variable {ls : List Layout}

theorem mem_placedFrom_zero {i o : Nat} {v : Recovered} :
    (i, o, v) ∈ placedFrom 0 ls ↔ slotAt? ls i o = some (.value v) := by
  simp [mem_placedFrom, slotAt?, Option.bind_eq_some_iff]

/-- At most one value stands in a word. -/
theorem filter_placedFrom (ls : List Layout) (i o : Nat) :
    (placedFrom 0 ls).filter (fun p => p.1 == i && p.2.1 == o) = [] ∧
        (∀ v, slotAt? ls i o ≠ some (.value v)) ∨
      ∃ v, (placedFrom 0 ls).filter (fun p => p.1 == i && p.2.1 == o) = [(i, o, v)] ∧
        slotAt? ls i o = some (.value v) := by
  have apart : (placedFrom 0 ls).Pairwise fun p q =>
      (p.1 == i && p.2.1 == o) = true → (q.1 == i && q.2.1 == o) = false := by
    refine (pairwise_placedFrom 0 ls).imp ?_
    rintro ⟨j, p, v⟩ ⟨j', p', v'⟩ apart here
    simp only [Bool.and_eq_true, beq_iff_eq] at here
    obtain ⟨rfl, rfl⟩ := here
    simp only [Bool.and_eq_false_iff, beq_eq_false_iff_ne]
    by_cases same : j' = j
    · exact .inr (apart same.symm).symm
    · exact .inl same
  by_cases value : ∃ v, slotAt? ls i o = some (.value v)
  · obtain ⟨v, hv⟩ := value
    exact .inr ⟨v, filter_eq_singleton apart (mem_placedFrom_zero.mpr hv) (by simp), hv⟩
  · refine .inl ⟨List.filter_eq_nil_iff.mpr ?_, fun v hv => value ⟨v, hv⟩⟩
    rintro ⟨j, p, v⟩ hp here
    simp only [Bool.and_eq_true, beq_iff_eq] at here
    obtain ⟨rfl, rfl⟩ := here
    exact value ⟨v, mem_placedFrom_zero.mp hp⟩

/-- Records name the word of the value that they are made from. -/
theorem filter_records {α : Type} {record : Nat → Nat × Recovered → Option α} {frame offset : α → Nat}
    (named : ∀ j p d, record j p = some d → frame d = j ∧ offset d = p.1) (ps : List (Nat × Nat × Recovered))
    (i o : Nat) :
    (ps.filterMap fun p => record p.1 p.2).filter (fun d => frame d == i && offset d == o) =
      (ps.filter fun p => p.1 == i && p.2.1 == o).filterMap fun p => record p.1 p.2 := by
  rw [List.filter_filterMap, List.filterMap_filter]
  congr 1
  funext p
  cases hd : record p.1 p.2 with
  | none => simp
  | some d =>
    obtain ⟨hj, ho⟩ := named _ _ _ hd
    rw [← hj, ← ho, Option.filter_some]

end Layout

namespace Bailout

variable {b b' c : Bailout} {e e' k : Engine} {ls : List Layout}

/-- **Every placeholder has exactly one record**, and nothing else waits. -/
theorem LaidOut.waitingFor (laid : b.LaidOut ls) (i o : Nat) :
    b.waitingFor i o = ((Layout.slotAt? ls i o).map Slot.waiting).getD [] := by
  rw [Bailout.waitingFor, laid.numbers, laid.arguments, Layout.numbersFrom_eq, Layout.argumentsFrom_eq,
    Layout.filter_records DeferredNumber.of?_eq_some, Layout.filter_records DeferredArguments.of?_eq_some]
  rcases Layout.filter_placedFrom ls i o with ⟨empty, no⟩ | ⟨v, one, slot⟩
  · rw [empty]
    cases hs : Layout.slotAt? ls i o with
    | none => rfl
    | some slot =>
      cases slot with
      | word w => rfl
      | value v => exact absurd hs (no v)
  · rw [one, slot]
    cases v <;> rfl

/-- The words of a rebuilt frame are the contents of its slots. -/
theorem LaidOut.word? (laid : b.LaidOut ls) (i o : Nat) :
    b.word? i o = (Layout.slotAt? ls i o).map Slot.content := by
  rw [Bailout.word?, Layout.slotAt?]
  cases hf : b.frames[i]? with
  | none =>
    have beyond : ls[i]? = none := by
      rw [List.getElem?_eq_none_iff] at hf ⊢
      rwa [← laid.length]
    rw [beyond]
    rfl
  | some f =>
    have inside : i < ls.length := by
      rw [← laid.length]
      exact (List.getElem?_eq_some_iff.mp hf).1
    have hl := List.getElem?_eq_getElem inside
    rw [hl, Option.bind_some, Option.bind_some]
    exact Layout.words_getElem? (laid.words i f _ hf hl) o

/-- Once everything is filled in, each word is what its slot should hold. -/
theorem LaidOut.holds (laid : b.LaidOut ls) (h : b.materialize e = (.ok c, k)) {i o : Nat} {slot : Slot}
    (hs : Layout.slotAt? ls i o = some slot) : ∃ w, c.word? i o = some w ∧ slot.Holds k.heap w := by
  obtain ⟨l, hl, hslot⟩ := Option.bind_eq_some_iff.mp hs
  obtain ⟨d, j, boxed, made⟩ := materialize_steps h
  exact holds_of_fill laid boxed made hl hslot

end Bailout

/-! ### Frames of constructors -/

/-- The highest word of a constructor's frame is the receiver's, and the lowest repeats its placeholder. -/
theorem Rebuilt.construct {s : Scene} {prev : Option Frame} {opener : Command} {passed : List Int}
    {positions : List Position} {l : Layout} {f : Frame}
    (h : Rebuilt s prev opener passed positions l f) (opens : opener.opcode = .constructStubFrame) :
    ∃ receiver : Recovered, l.at? (f.size - 1) = some (.value receiver) ∧
      l.at? 0 = some (.word (.tagged receiver.placeholder)) := by
  cases h.described with
  | @construct _ _ receiver parameters =>
    exact ⟨receiver, h.at?_parameter (k := 0) (by simp), Rebuilt.at?_body (k := 1) (by simp)⟩
  | _ => cases opens

/-! ### Bailouts -/

/-- Materializing succeeds after frames were rebuilt, unless they were for the debugger. -/
theorem Bailout.materialize_of_rebuilt {b b' : Bailout} {e e' : Engine}
    (h : b.rebuildFrames e = (.ok b', e')) (live : b.reason ≠ .debugger)
    (allowed : e.heap.allocationAllowed = true) : ∃ c k, b'.materialize e' = (.ok c, k) := by
  obtain ⟨data, entry, n, a, -, -, run, rfl, he'⟩ := rebuildFrames_ok h
  obtain ⟨count, records, ls, -, walked⟩ := Assembly.run_walked run
  refine materialize_of_readable (by rw [he']; exact allowed) live (.of_walked walked) ?_
  rw [walked.numbers]
  exact Layout.pairwise_numbersFrom 0 ls

/-- **Every placeholder is filled in.** Frames that a bailout has rebuilt have the layouts that the recipe
describes. Each word is written as its slot says, and exactly one record waits for it if the slot stands
for a number or an arguments object, and none otherwise. Unless the frames are for the debugger, what
waits can be filled in, and then every word of every frame is what its slot should hold.

The lowest word of a constructor's frame has no slot of its own for the receiver: it keeps the word that
stood for the receiver before. This is the receiver if it is a tagged value, and else a placeholder. -/
theorem placeholders_filled {b b' : Bailout} {e e' : Engine} (h : b.rebuildFrames e = (.ok b', e')) :
    ∃ (data : BailoutData) (entry : BailoutEntry) (count : UInt32) (records : List FrameRecord)
      (ls : List Layout), (e.codeSpace.get b.code).bailouts = some data ∧
      data.entries[b.entry]? = some entry ∧
      Walked (b.scene e data) (data.recipes.drop entry.recipe) count records ls b'.frames b'.numbers
        b'.arguments ∧
      (∀ i o, b'.word? i o = (Layout.slotAt? ls i o).map Slot.content ∧
        b'.waitingFor i o = ((Layout.slotAt? ls i o).map Slot.waiting).getD []) ∧
      (b.reason ≠ .debugger → e.heap.allocationAllowed = true →
        ∃ c k, b'.materialize e' = (.ok c, k)) ∧
      ∀ c k, b'.materialize e' = (.ok c, k) →
        (∀ i o, (c.word? i o).isSome = (b'.word? i o).isSome ∧ ∀ w, c.word? i o = some w →
          ∃ slot, Layout.slotAt? ls i o = some slot ∧ slot.Holds k.heap w) ∧
        ∀ (i : Nat) r f, records[i]? = some r → r.opener.opcode = .constructStubFrame →
          b'.frames[i]? = some f → ∃ receiver : Recovered,
            Layout.slotAt? ls i (f.size - 1) = some (.value receiver) ∧
            c.word? i 0 = some (.tagged receiver.placeholder) ∧
            ∀ v, receiver = .tagged v → c.word? i (f.size - 1) = c.word? i 0 := by
  obtain ⟨data, entry, count, records, ls, known, found, walked, -⟩ := rebuildFrames_follows h
  have laid : b'.LaidOut ls := .of_walked walked
  refine ⟨data, entry, count, records, ls, known, found, walked,
    fun i o => ⟨laid.word? i o, laid.waitingFor i o⟩, Bailout.materialize_of_rebuilt h, ?_⟩
  intro c k filled
  refine ⟨fun i o => ⟨Bailout.word?_isSome_of_refills (Bailout.materialize_refills filled) i o, ?_⟩, ?_⟩
  · intro w hw
    have some' : (b'.word? i o).isSome := by
      rw [← Bailout.word?_isSome_of_refills (Bailout.materialize_refills filled), hw]
      rfl
    rw [laid.word?, Option.isSome_map] at some'
    obtain ⟨slot, hs⟩ := Option.isSome_iff_exists.mp some'
    obtain ⟨w', hw', holds⟩ := laid.holds filled hs
    obtain rfl : w = w' := Option.some.inj (hw.symm.trans hw')
    exact ⟨slot, hs, holds⟩
  · intro i r f hr opens hf
    obtain ⟨r', l, hr', hl, rebuilt⟩ := walked.follows.rebuilt hf
    obtain rfl : r = r' := Option.some.inj (hr.symm.trans hr')
    obtain ⟨receiver, highest, lowest⟩ := rebuilt.construct opens
    have slotAt (o : Nat) : Layout.slotAt? ls i o = l.at? o := by rw [Layout.slotAt?, hl, Option.bind_some]
    rw [← slotAt] at highest lowest
    obtain ⟨w, hw, rfl⟩ := laid.holds filled lowest
    refine ⟨receiver, highest, hw, ?_⟩
    -- A receiver that is a value has no placeholder, so both slots hold it.
    rintro v rfl
    obtain ⟨u, hu, rfl⟩ := laid.holds filled highest
    rw [hw, hu]
    rfl

/-- A double that is passed twice to a constructor: each of the two words has its record. -/
theorem placeholders_filled_twice : ∃ (b' c : Bailout) (e' k : Engine) (ls : List Layout),
    Sample.bailout.rebuildFrames (Sample.engineWith Sample.construction) = (.ok b', e') ∧
    b'.materialize e' = (.ok c, k) ∧
    b'.waitingFor 0 7 = [.number ⟨0x3FE0000000000000⟩] ∧
    b'.waitingFor 0 6 = [.number ⟨0x3FE0000000000000⟩] ∧
    ∀ i o w, c.word? i o = some w → ∃ slot, Layout.slotAt? ls i o = some slot ∧ slot.Holds k.heap w := by
  have waiting : (Sample.bailout.rebuildFrames (Sample.engineWith Sample.construction)).1.toOption.map
      (fun b => (b.waitingFor 0 7, b.waitingFor 0 6)) =
        some ([.number ⟨0x3FE0000000000000⟩], [.number ⟨0x3FE0000000000000⟩]) := by decide +kernel
  obtain ⟨b', ok, same⟩ := Option.map_eq_some_iff.mp waiting
  obtain ⟨first, second⟩ := Prod.mk.inj same
  have rebuilt := Computation.eq_ok_of_toOption ok
  obtain ⟨data, entry, count, records, ls, -, -, -, -, fills, holds⟩ := placeholders_filled rebuilt
  obtain ⟨c, k, filled⟩ := fills (by decide) (by decide +kernel)
  exact ⟨b', c, _, k, ls, rebuilt, filled, first, second, fun i o => ((holds c k filled).1 i o).2⟩

/-- Rebuilds the frames of a recipe and fills in what waits. -/
def Sample.filled (recipe : List Int) : Option Bailout :=
  match bailout.rebuildFrames (engineWith recipe) with
  | (.ok b, e) => (b.materialize e).1.toOption
  | (.error _, _) => none

/-- The new object of a constructor call is the receiver, but if the receiver had to wait, only its own
word is filled in. -/
theorem allocated_object_kept_placeholder :
    (Sample.filled Sample.construction).map (fun c => (c.word? 0 0, decide (c.word? 0 7 = c.word? 0 0))) =
      some (some (.tagged (.smi 0)), false) := by
  decide +kernel

end Speculation
