import Speculation.Proofs.Bailout.Records

/-!
# Recipes that a walk accepts

A walk that ends without a violation has read a `begin` command and as many records as it announces,
and each record is proper (`FrameRecord.Proper`): a frame command, and then as many positions as this
command asks for. Every position is a value command behind any number of marks, and the first one has
no mark, so a mark always has a value of its own frame to repeat.

One place is not checked. The command for the receiver of an accessor call is passed over as it is, so
any command may stand there, also one that opens a frame (`accessor_receiver_unchecked`).
-/

namespace Speculation

open Recipe

/-- The first position of a record is not marked. -/
theorem Denoted.first_unmarked {s : Scene} {ps : List Position} {vs : List Recovered}
    (h : Denoted s ps vs) {p : Position} (first : ps.head? = some p) : p.marks = 0 := by
  rw [List.head?_eq_getElem?] at first
  have inside : 0 < vs.length := by
    rw [h.length]
    exact (List.getElem?_eq_some_iff.mp first).1
  obtain ⟨j, q, hj, hq, denotes, -⟩ := h.value 0 _ (List.getElem?_eq_getElem inside)
  obtain rfl : j = 0 := by omega
  obtain rfl : p = q := Option.some.inj (first.symm.trans hq)
  exact denotes.1

/-- Only frame commands have a plan. -/
theorem Scene.opensFrame_of_plan? {s : Scene} {c : Command} {plan : FramePlan}
    (h : s.plan? c = some plan) : c.opcode.opensFrame = true := by
  cases c with
  | jsFrame | argumentsAdaptorFrame | constructStubFrame | getterStubFrame | setterStubFrame
  | compiledStubFrame => rfl
  | _ => cases h

/-- A record in which no command is out of place, but for the receiver of an accessor. -/
structure FrameRecord.Proper (s : Scene) (r : FrameRecord) : Prop extends r.Complete s where
  opens : r.opener.opcode.opensFrame = true
  values : ∀ p ∈ r.positions, p.opcode.isValue = true
  first : ∀ p, r.positions.head? = some p → p.marks = 0

/-- A walk that was given records of values only has proper records. -/
theorem Walked.proper {s : Scene} {bytes : List UInt8} {count : UInt32} {records : List FrameRecord}
    {ls : List Layout} {frames : List Frame} {numbers : List DeferredNumber}
    {arguments : List DeferredArguments}
    (w : Walked s bytes count records ls frames numbers arguments)
    (values : ∀ r ∈ records, ∀ p ∈ r.positions, p.opcode.isValue = true) :
    ∀ r ∈ records, r.Proper s := by
  intro r hr
  obtain ⟨prev, l, f, rebuilt⟩ := w.rebuilt hr
  exact
    { toComplete := rebuilt.complete
      opens := Scene.opensFrame_of_plan? rebuilt.plan
      values := values r hr
      first := fun p => rebuilt.denoted.first_unmarked }

/-- **A walk that ends without a violation has read proper records.** What it has consumed is a `begin`
command and as many records as it announces, and nothing else; there is a frame for each. In each record
every position behind the frame command is a value command, possibly behind marks, of which the first
has none. Only the one command for the receiver of an accessor may be any command. -/
theorem walk_reads_records {s : Scene} {cursor : Cursor} {n : Nat} {a : Assembly}
    (h : Assembly.run s { cursor } = (.ok n, a)) :
    ∃ (count js : UInt32) (is : List Int) (records : List FrameRecord),
      Command.ofParts? .begin is = some (.begin count js) ∧
      Spells cursor.rest ((Opcode.begin.number : Int) :: is ++ records.flatMap FrameRecord.ints)
        a.cursor.rest ∧
      n = count.toNat ∧ records.length = n ∧ a.frames.length = n ∧ ∀ r ∈ records, r.Proper s := by
  obtain ⟨count, js, is, records, ls, rfl, parts, spelled, values, walked⟩ := Assembly.run_reads h
  refine ⟨count, js, is, records, parts, spelled, rfl, walked.announced, ?_, walked.proper values⟩
  rw [walked.follows.length.2, walked.announced]

namespace Sample

/-- The bailout data of `outer` with another recipe. -/
def dataOf (recipe : List Int) : BailoutData :=
  { recipes := bytes recipe
    entries := [{ node := ⟨1⟩, recipe := 0, argumentsHeight := 0, pc := 12 }]
    literals := [.object ⟨11⟩, .object ⟨12⟩] }

/-- An engine that is stopped in optimized code of `outer` with this recipe. -/
def engineWith (recipe : List Int) : Engine :=
  { engine with
    codeSpace := engine.codeSpace.modify bailout.code fun c => { c with bailouts := some (dataOf recipe) } }

/-- What the bailout of `outer` reads. -/
def scene (recipe : List Int) : Scene := bailout.scene (engineWith recipe) (dataOf recipe)

/-- The walk over a recipe. -/
def walk (recipe : List Int) : Except Fault Nat × Assembly :=
  Assembly.run (scene recipe) { cursor := .start (bytes recipe) 0 }

/-- A setter that is called from a constructor. The new object is passed twice. -/
def construction : List Int := [0, 2, 0, 2, 1, 2, 10, 0, 17, 17, 7, 0, 4, 0, 15, 0, 12, 1]

end Sample

/-- Marks in front of a value command, and a receiver that is passed over. -/
theorem walk_reads_records_setter : ∃ (a : Assembly) (count js : UInt32) (is : List Int)
    (records : List FrameRecord), Sample.walk Sample.construction = (.ok 2, a) ∧
      Command.ofParts? .begin is = some (.begin count js) ∧
      Spells (Sample.bytes Sample.construction)
        ((Opcode.begin.number : Int) :: is ++ records.flatMap FrameRecord.ints) a.cursor.rest ∧
      records.length = 2 ∧ ∀ r ∈ records, r.Proper (Sample.scene Sample.construction) := by
  have walked : (Sample.walk Sample.construction).1.toOption = some 2 := by decide +kernel
  have run := Computation.eq_ok_of_toOption walked
  obtain ⟨count, js, is, records, parts, spelled, -, length, -, proper⟩ := walk_reads_records run
  exact ⟨_, count, js, is, records, run, parts, spelled, length, proper⟩

/-- The command for a getter's receiver may open a recipe or a frame, or be a mark with no value before
it. Where the receiver of a constructor call should be, each of them is a violation. -/
theorem accessor_receiver_unchecked :
    [[0, 1, 0], [3, 0], [17]].map (fun c => (Sample.walk ([0, 1, 0, 3, 0] ++ c)).1.toOption) =
      [some 1, some 1, some 1] ∧
    [[0, 1, 0], [3, 0], [17, 15, 0]].map
      (fun c => (Sample.walk ([0, 1, 0, 2, 0, 1] ++ c)).1.toOption) = [none, none, none] := by
  decide +kernel

end Speculation
