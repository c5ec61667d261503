import Speculation.Proofs.Bailout.Inspection
import Speculation.Proofs.Bailout.Records
import Speculation.Proofs.Double.Integers

/-!
# The arguments of inlined functions

The arguments of an inlined function are read straight from the optimized frame: a search over the
recipe passes over commands until it comes to the function's record, or to that of an adaptor frame
right before it, and the commands behind the receiver then say where the arguments are. No frames are
built. `inlinedArguments_agree` says that for a well-formed recipe this gives the parameters that the
debugger shows, which come from rebuilt frames.

The search is followed record by record (`search_finds`), in terms of the integers in front of the
reader. What is read at the place of a command agrees with what the command stands for
(`SameArgument.of_position`).
-/

namespace Speculation

open Recipe

namespace ArgumentPlace

variable {data : BailoutData} {frame : Frame} {wanted formals fuel k : Nat} {c c' : Cursor}
  {places : List ArgumentPlace} {o : Opcode} {is xs : List Int} {rest : List UInt8}

/-! ### Passing over commands -/

/-- The next command is read, if its integers are known. -/
theorem skip_spelled {r : Unit} (length : is.length = o.arity) (spelled : Spells c.rest (is ++ xs) rest)
    (h : Cursor.skip o.arity c = (.ok r, c')) : Spells c'.rest xs rest := by
  obtain ⟨js, length', read⟩ := Cursor.skip_ok h
  exact (read.consume_append spelled (length'.trans length.symm)).2

/-- What the search does with a command. -/
theorem search_step (h : search data frame wanted formals fuel k c = (.ok places, c'))
    (spelled : Spells c.rest ((o.number : Int) :: (is ++ xs)) rest) : ∃ fuel' d,
      Spells d.rest (is ++ xs) rest ∧
      (match o, k with
        | .argumentsAdaptorFrame, 0 => do
          match ← Cursor.operandsOf .argumentsAdaptorFrame with
          | .argumentsAdaptorFrame _ height => behindReceiver data frame (height.toNat - 1)
          | c => Cursor.violate (.notAnArgument c)
        | .jsFrame, 0 => do
          Cursor.skip Opcode.jsFrame.arity
          behindReceiver data frame formals
        | .jsFrame, n + 1 => do
          Cursor.skip Opcode.jsFrame.arity
          search data frame wanted formals fuel' n
        | o, n => do
          Cursor.skip o.arity
          search data frame wanted formals fuel' n : Cursor.Reader (List ArgumentPlace)) d =
        (.ok places, c') := by
  cases fuel with
  | zero => cases h
  | succ fuel =>
    rw [search, Computation.get_bind] at h
    split at h
    · obtain ⟨o', d, opcode, h⟩ := Computation.bind_eq_ok h
      obtain ⟨same, spelled'⟩ := (Cursor.nextOpcode_ok opcode).consume_cons spelled
      obtain rfl := Opcode.number_inj same
      refine ⟨fuel, d, spelled', ?_⟩
      -- The two functions agree on what comes next for every opcode and count.
      cases o' <;> cases k <;> exact h
    · cases h

/-- Commands that are not of interest are passed over. -/
theorem search_pass (h : search data frame wanted formals fuel k c = (.ok places, c'))
    (spelled : Spells c.rest ((o.number : Int) :: (is ++ xs)) rest) (length : is.length = o.arity)
    (function : o ≠ .jsFrame) (adaptor : o = .argumentsAdaptorFrame → k ≠ 0) : ∃ fuel' d,
      Spells d.rest xs rest ∧ search data frame wanted formals fuel' k d = (.ok places, c') := by
  obtain ⟨fuel', d, spelled', step⟩ := search_step h spelled
  have passed : ∃ e, Cursor.skip o.arity d = (.ok (), e) ∧
      search data frame wanted formals fuel' k e = (.ok places, c') := by
    cases o with
    | jsFrame => exact absurd rfl function
    | argumentsAdaptorFrame =>
      cases k with
      | zero => exact absurd rfl (adaptor rfl)
      | succ k =>
        obtain ⟨_, e, skipped, step⟩ := Computation.bind_eq_ok step
        exact ⟨e, skipped, step⟩
    | _ =>
      obtain ⟨_, e, skipped, step⟩ := Computation.bind_eq_ok step
      exact ⟨e, skipped, step⟩
  obtain ⟨e, skipped, found⟩ := passed
  exact ⟨fuel', e, skip_spelled length spelled' skipped, found⟩

theorem search_pass_position {p : Position}
    (h : search data frame wanted formals fuel k c = (.ok places, c'))
    (spelled : Spells c.rest (p.ints ++ xs) rest) (value : p.opcode.isValue = true) : ∃ fuel' d,
      Spells d.rest xs rest ∧ search data frame wanted formals fuel' k d = (.ok places, c') := by
  rw [p.ints_append] at spelled
  generalize p.marks = m at spelled
  induction m generalizing fuel c with
  | zero =>
    refine search_pass h spelled p.complete (fun same => ?_) fun same => ?_
    · rw [same] at value
      cases value
    · rw [same] at value
      cases value
  | succ m ih =>
    rw [List.replicate_succ, List.cons_append] at spelled
    obtain ⟨fuel', d, spelled', h'⟩ := @search_pass data frame wanted formals fuel k c c' places
      .duplicate [] _ rest h spelled rfl nofun nofun
    exact ih h' spelled'

/-- The search reads past positions of frames that it does not look for. -/
theorem search_pass_positions {ps : List Position}
    (h : search data frame wanted formals fuel k c = (.ok places, c'))
    (spelled : Spells c.rest (ps.flatMap Position.ints ++ xs) rest)
    (values : ∀ p ∈ ps, p.opcode.isValue = true) : ∃ fuel' d,
      Spells d.rest xs rest ∧ search data frame wanted formals fuel' k d = (.ok places, c') := by
  induction ps generalizing fuel c with
  | nil => exact ⟨fuel, c, spelled, h⟩
  | cons p ps ih =>
    rw [List.flatMap_cons, List.append_assoc] at spelled
    obtain ⟨fuel', d, spelled', h'⟩ := search_pass_position h spelled (values p (.head _))
    exact ih h' spelled' fun q hq => values q (.tail _ hq)

/-- A frame's record whose positions can all be passed over. -/
structure Passable (r : FrameRecord) : Prop where
  values : ∀ p ∈ r.positions, p.opcode.isValue = true
  receiver : r.passed = [] ∨ ∃ (o : Opcode) (is : List Int),
    o.isValue = true ∧ is.length = o.arity ∧ r.passed = (o.number : Int) :: is

/-- What the search has to know of a frame follows from the recipe being well formed. -/
theorem Passable.of_wellFormed {s : Scene} {bytes : List UInt8} {records : List FrameRecord}
    {r : FrameRecord} (wellFormed : WellFormed s bytes records) (hr : r ∈ records) : Passable r where
  values := wellFormed.values r hr
  receiver := by
    cases passes : r.opener.passesReceiver with
    | true => exact .inr (wellFormed.receivers r hr passes)
    | false => exact .inl ((wellFormed.complete r hr).nothing passes)

/-- What is left of a record behind its frame command is passed over. -/
theorem search_pass_rest {r : FrameRecord} (passable : Passable r)
    (h : search data frame wanted formals fuel k c = (.ok places, c'))
    (spelled : Spells c.rest (r.passed ++ (r.positions.flatMap Position.ints ++ xs)) rest) :
    ∃ fuel' d, Spells d.rest xs rest ∧ search data frame wanted formals fuel' k d = (.ok places, c') := by
  rcases passable.receiver with none | ⟨o, is, value, length, some⟩
  · rw [none] at spelled
    exact search_pass_positions h spelled passable.values
  · rw [some] at spelled
    obtain ⟨fuel', d, spelled', h'⟩ := search_pass h spelled length
      (fun same => by rw [same] at value; cases value) fun same => by rw [same] at value; cases value
    exact search_pass_positions h' spelled' passable.values

theorem FrameRecord.ints_append (r : FrameRecord) (xs : List Int) : r.ints ++ xs =
    (r.opener.opcode.number : Int) ::
      (r.operands ++ (r.passed ++ (r.positions.flatMap Position.ints ++ xs))) := by
  simp [FrameRecord.ints]

/-! ### Where the arguments are -/

/-- The reader stands in front of the positions of a record, behind its frame command. -/
structure Reaches (data : BailoutData) (frame : Frame) (n : Nat) (r : FrameRecord)
    (places : List ArgumentPlace) : Prop where
  found : ∃ (c c' : Cursor) (xs : List Int) (rest : List UInt8),
    Spells c.rest (r.positions.flatMap Position.ints ++ xs) rest ∧
      behindReceiver data frame n c = (.ok places, c')

/-- The record `r`, at place `i`, of the frame that has the arguments of the function whose record is at
place `j`, and their number: those of an adaptor frame right before it, or as many as it is declared
with. -/
inductive RecordOf (records : List FrameRecord) (j formals : Nat) : Nat → FrameRecord → Nat → Prop
  | adapted {i : Nat} {r : FrameRecord} {literal height : UInt32} (next : j = i + 1)
    (found : records[i]? = some r) (opener : r.opener = .argumentsAdaptorFrame literal height) :
    RecordOf records j formals i r (height.toNat - 1)
  | own {r : FrameRecord} (found : records[j]? = some r)
    (plain : ∀ i q, j = i + 1 → records[i]? = some q → q.opener.opcode ≠ .argumentsAdaptorFrame) :
    RecordOf records j formals j r formals

/-- The record that is looked for is one of the records. -/
theorem RecordOf.found {records : List FrameRecord} {i j n : Nat} {r : FrameRecord}
    (h : RecordOf records j formals i r n) : records[i]? = some r := by
  cases h with
  | adapted _ found _ => exact found
  | own found _ => exact found

/-- A record in front, which adapts no arguments of the first one. -/
theorem RecordOf.cons {records : List FrameRecord} {i j n : Nat} {r q : FrameRecord}
    (h : RecordOf records j formals i r n)
    (other : j = 0 → q.opener.opcode ≠ .argumentsAdaptorFrame) :
    RecordOf (q :: records) (j + 1) formals (i + 1) r n := by
  cases h with
  | adapted next found opener => exact .adapted (by omega) found opener
  | own found plain =>
    refine .own found fun m x next hx => ?_
    obtain rfl : i = m := by omega
    cases i with
    | zero =>
      cases hx
      exact other rfl
    | succ i => exact plain i x rfl hx

/-- The search stops at a function's record if none is to be passed over. -/
theorem search_function {s : Scene} {r : FrameRecord} (complete : r.Complete s)
    (function : r.opener.opcode = .jsFrame)
    (h : search data frame wanted formals fuel 0 c = (.ok places, c'))
    (spelled : Spells c.rest (r.ints ++ xs) rest) : Reaches data frame formals r places := by
  rw [FrameRecord.ints_append] at spelled
  obtain ⟨fuel', d, spelled', step⟩ := search_step h spelled
  have length := Command.length_of_ofParts? r.opens
  rw [function] at step length
  obtain ⟨_, e, skipped, step⟩ := Computation.bind_eq_ok step
  have behind := skip_spelled length spelled' skipped
  have nothing : r.passed = [] := complete.nothing (by simp [Command.passesReceiver_eq, function])
  rw [nothing] at behind
  exact ⟨e, c', _, _, behind, step⟩

/-- The search stops at an adaptor's record if no function is to be passed over. -/
theorem search_adaptor {s : Scene} {r : FrameRecord} {literal height : UInt32} (complete : r.Complete s)
    (adaptor : r.opener = .argumentsAdaptorFrame literal height)
    (h : search data frame wanted formals fuel 0 c = (.ok places, c'))
    (spelled : Spells c.rest (r.ints ++ xs) rest) :
    Reaches data frame (height.toNat - 1) r places := by
  rw [FrameRecord.ints_append] at spelled
  obtain ⟨fuel', d, spelled', step⟩ := search_step h spelled
  have opens := r.opens
  have nothing : r.passed = [] := complete.nothing (by rw [adaptor]; rfl)
  rw [adaptor] at step opens
  obtain ⟨command, e, operands, step⟩ := Computation.bind_eq_ok step
  obtain ⟨js, parts, read⟩ := Cursor.operandsOf_ok operands
  have length : js.length = r.operands.length :=
    (Command.length_of_ofParts? parts).trans (Command.length_of_ofParts? opens).symm
  obtain ⟨rfl, behind⟩ := read.consume_append spelled' length
  obtain rfl : command = .argumentsAdaptorFrame literal height :=
    Option.some.inj (parts.symm.trans opens)
  rw [nothing] at behind
  exact ⟨e, c', _, _, behind, step⟩

/-- A record is passed over; that of a function counts. -/
theorem search_pass_record {r : FrameRecord} (passable : Passable r)
    (h : search data frame wanted formals fuel (k + if r.opener.opcode = .jsFrame then 1 else 0) c =
      (.ok places, c'))
    (spelled : Spells c.rest (r.ints ++ xs) rest)
    (adaptor : r.opener.opcode = .argumentsAdaptorFrame → k ≠ 0) :
    ∃ fuel' d, Spells d.rest xs rest ∧ search data frame wanted formals fuel' k d = (.ok places, c') := by
  rw [FrameRecord.ints_append] at spelled
  have length := Command.length_of_ofParts? r.opens
  by_cases function : r.opener.opcode = .jsFrame
  · rw [if_pos function] at h
    obtain ⟨fuel', d, spelled', step⟩ := search_step h spelled
    rw [function] at step length
    obtain ⟨_, e, skipped, step⟩ := Computation.bind_eq_ok step
    exact search_pass_rest passable step (skip_spelled length spelled' skipped)
  · rw [if_neg function, Nat.add_zero] at h
    obtain ⟨fuel', d, spelled', h'⟩ := search_pass h spelled length function adaptor
    exact search_pass_rest passable h' spelled'

/-- The search stops at the right record. -/
theorem search_finds {s : Scene} {records : List FrameRecord} {j : Nat} {r : FrameRecord}
    (h : search data frame wanted formals fuel k c = (.ok places, c'))
    (spelled : Spells c.rest (records.flatMap FrameRecord.ints ++ xs) rest)
    (complete : ∀ q ∈ records, q.Complete s) (passable : ∀ q ∈ records, Passable q)
    (adapted : ∀ (i : Nat) q, records[i]? = some q → q.opener.opcode = .argumentsAdaptorFrame →
      ∃ q', records[i + 1]? = some q' ∧ q'.opener.opcode = .jsFrame)
    (found : records[j]? = some r) (function : r.opener.opcode = .jsFrame)
    (before : (records.take j).countP (·.opener.opcode == .jsFrame) = k) :
    ∃ i q n, RecordOf records j formals i q n ∧ Reaches data frame n q places := by
  -- By induction on the records, with `k` functions left to pass before the one that is looked
  -- for.
  induction records generalizing j k fuel c with
  | nil => simp at found
  | cons q records ih =>
    rw [List.flatMap_cons, List.append_assoc] at spelled
    cases j with
    | zero =>
      obtain rfl : q = r := Option.some.inj found
      cases before
      have plain : ∀ i x, 0 = i + 1 → (q :: records)[i]? = some x →
        x.opener.opcode ≠ .argumentsAdaptorFrame := fun i x next => by omega
      exact ⟨0, q, formals, .own rfl plain, search_function (complete q (.head _)) function h spelled⟩
    | succ j =>
      rw [List.take_succ_cons, List.countP_cons] at before
      let skipped := (records.take j).countP (·.opener.opcode == .jsFrame)
      by_cases first : q.opener.opcode = .argumentsAdaptorFrame ∧ skipped = 0
      · -- The function's record follows, and it is the one that is looked for.
        obtain ⟨adaptor, none⟩ := first
        obtain ⟨x, hx, next⟩ := adapted 0 q rfl adaptor
        have last : j = 0 := by
          cases j with
          | zero => rfl
          | succ j =>
            obtain ⟨ys, rfl⟩ : ∃ ys, records = x :: ys := by
              cases records with
              | nil => cases hx
              | cons y ys =>
                cases hx
                exact ⟨ys, rfl⟩
            simp [skipped, next] at none
        have zero : k = 0 := by
          rw [← before, adaptor]
          exact none
        rw [zero] at h
        obtain ⟨literal, height, opener⟩ := Command.adaptor_of_opcode adaptor
        exact ⟨0, q, _, .adapted (by rw [last]) rfl opener,
          search_adaptor (complete q (.head _)) opener h spelled⟩
      · have counted : k = skipped + if q.opener.opcode = .jsFrame then 1 else 0 := by
          rw [← before]
          simp [skipped]
        rw [counted] at h
        obtain ⟨fuel', d, spelled', h'⟩ := search_pass_record (passable q (.head _)) h spelled
          fun adaptor none => first ⟨adaptor, none⟩
        obtain ⟨i, x, n, of, reaches⟩ := ih h' spelled' (fun x hx => complete x (.tail _ hx))
          (fun x hx => passable x (.tail _ hx)) (fun i x hx => adapted (i + 1) x hx) found rfl
        refine ⟨i + 1, x, n, of.cons fun zero adaptor => first ⟨adaptor, ?_⟩, reaches⟩
        simp [skipped, zero]

/-- The search starts behind the command that opens the recipe. -/
theorem ofRecipe_search {count js : UInt32} (h : ofRecipe data frame k formals c = (.ok places, c'))
    (parts : Command.ofParts? .begin is = some (.begin count js))
    (spelled : Spells c.rest ((Opcode.begin.number : Int) :: is ++ xs) rest) : ∃ fuel d,
      Spells d.rest xs rest ∧ search data frame k formals fuel k d = (.ok places, c') := by
  obtain ⟨command, d, read, h⟩ := Computation.bind_eq_ok h
  cases command with
  | begin count' js' =>
    obtain ⟨is', parts', read⟩ := Cursor.nextCommand_ok read
    have length : is'.length = is.length :=
      (Command.length_of_ofParts? parts').trans (Command.length_of_ofParts? parts).symm
    obtain ⟨-, spelled'⟩ := read.consume_append spelled (by simp [length])
    dsimp only at h
    split at h
    · exact ⟨_, d, spelled', h⟩
    · cases h
  | _ => cases h

/-! ### Places and values -/

/-- A position that is read as a command other than a mark. -/
theorem nextCommand_position {p : Position} {command : Command} {d : Cursor}
    (h : Cursor.nextCommand c = (.ok command, d)) (spelled : Spells c.rest (p.ints ++ xs) rest)
    (own : command ≠ .duplicate) : p.marks = 0 ∧
      Command.ofParts? p.opcode p.operands = some command ∧ Spells d.rest xs rest := by
  obtain ⟨o, e, opcode, h⟩ := Computation.bind_eq_ok h
  obtain ⟨js, parts, read⟩ := Cursor.operandsOf_ok h
  rw [p.ints_append] at spelled
  cases marks : p.marks with
  | zero =>
    rw [marks] at spelled
    obtain ⟨same, spelled'⟩ := (Cursor.nextOpcode_ok opcode).consume_cons spelled
    have same' := Opcode.number_inj same
    have length : js.length = p.operands.length := by
      rw [Command.length_of_ofParts? parts, p.complete, same']
    obtain ⟨rfl, behind⟩ := read.consume_append spelled' length
    exact ⟨rfl, same' ▸ parts, behind⟩
  | succ m =>
    rw [marks] at spelled
    obtain ⟨same, -⟩ := (Cursor.nextOpcode_ok opcode).consume_cons spelled
    rw [Opcode.number_inj same] at parts
    have mark := Command.opcode_of_ofParts? parts
    cases command with
    | duplicate => exact absurd rfl own
    | _ => cases mark

/-- The place that a position names. -/
structure Named (place : ArgumentPlace) (data : BailoutData) (frame : Frame) (p : Position) : Prop where
  own : p.marks = 0
  command : ∃ command, Command.ofParts? p.opcode p.operands = some command ∧
    ofCommand data frame command = .ok place

/-- The arguments are read off the positions that come next, in their order. -/
theorem next_named {n : Nat} {ps : List Position} (h : next data frame n c = (.ok places, c'))
    (spelled : Spells c.rest (ps.flatMap Position.ints ++ xs) rest) (enough : n ≤ ps.length) :
    places.length = n ∧ ∀ (t : Nat) place, places[t]? = some place →
      ∃ p, ps[t]? = some p ∧ place.Named data frame p := by
  induction n generalizing c ps places with
  | zero =>
    cases h
    exact ⟨rfl, by simp⟩
  | succ n ih =>
    obtain ⟨command, d, read, h⟩ := Computation.bind_eq_ok h
    obtain ⟨place, e, named, h⟩ := Computation.bind_eq_ok h
    obtain rfl : d = e := congrArg Prod.snd named
    replace named : ofCommand data frame command = .ok place := congrArg Prod.fst named
    obtain ⟨places', e, rest', h⟩ := Computation.bind_eq_ok h
    cases h
    cases ps with
    | nil => simp at enough
    | cons p ps =>
      rw [List.flatMap_cons, List.append_assoc] at spelled
      have own : command ≠ .duplicate := by
        rintro rfl
        cases named
      obtain ⟨marks, parts, spelled'⟩ := nextCommand_position read spelled own
      obtain ⟨length, later⟩ := ih rest' spelled' (by simpa using enough)
      refine ⟨by simp [length], fun t place' ht => ?_⟩
      cases t with
      | zero =>
        cases ht
        exact ⟨p, rfl, marks, command, parts, named⟩
      | succ t => exact later t place' ht

/-- The places behind the receiver, in a record whose first position is not marked. -/
theorem Reaches.named {n : Nat} {r : FrameRecord} (h : Reaches data frame n r places)
    (first : ∀ p, r.positions.head? = some p → p.marks = 0) (enough : n ≤ r.positions.length - 1) :
    places.length = n ∧ ∀ (t : Nat) place, places[t]? = some place →
      ∃ p, r.positions[t + 1]? = some p ∧ place.Named data frame p := by
  obtain ⟨c, c', xs, rest, spelled, done⟩ := h.found
  obtain ⟨o, d, opcode, done⟩ := Computation.bind_eq_ok done
  obtain ⟨_, e, skipped, done⟩ := Computation.bind_eq_ok done
  cases positions : r.positions with
  | nil =>
    -- Without a receiver there are no arguments either.
    obtain rfl : n = 0 := by simpa [positions] using enough
    cases done
    exact ⟨rfl, by simp⟩
  | cons p ps =>
    rw [positions, List.flatMap_cons, List.append_assoc, p.ints_append,
      first p (by rw [positions]; rfl)] at spelled
    obtain ⟨same, spelled'⟩ := (Cursor.nextOpcode_ok opcode).consume_cons spelled
    rw [Opcode.number_inj same] at skipped
    have behind := skip_spelled p.complete spelled' skipped
    rw [positions, List.length_cons] at enough
    exact next_named done behind (by omega)

/-- What a value at a place is, once it has been read. -/
def Gives (frame : Frame) (h : Heap) : ArgumentPlace → Value → Prop
  | tagged o, v => frame.words[o]? = some (.tagged v)
  | int32 o, v => ∃ i, frame.words[o]? = some (.int i) ∧ h.IsNumber (Double.ofInt (wrapInt32 i)) v
  | uint32 o, v => ∃ i, frame.words[o]? = some (.int i) ∧ h.IsNumber (Double.ofInt (wrapUint32 i)) v
  | double o, v => ∃ d, frame.words[o]? = some (.double d) ∧ h.IsNumber d v
  | literal u, v => v = u

theorem Gives.retains {place : ArgumentPlace} {v : Value} {g h : Heap} (gives : place.Gives frame g v)
    (retains : g.Retains h) : place.Gives frame h v := by
  cases place with
  | tagged o | literal u => exact gives
  | int32 o | uint32 o | double o =>
    obtain ⟨i, word, number⟩ := gives
    exact ⟨i, word, retains.isNumber number⟩

theorem integerAt_ok {o : Nat} {i : Int} (h : integerAt frame o = .ok i) :
    frame.words[o]? = some (.int i) := by
  obtain ⟨w, word, h⟩ := Computation.except_bind_eq_ok h
  cases w <;> cases h
  exact Frame.slot_ok word

/-- Reading a place gives the value that stands there; boxing a number retains the heap. -/
theorem value_gives {place : ArgumentPlace} {v : Value} {g h : Heap}
    (ok : place.value frame g = (.ok v, h)) : place.Gives frame h v ∧ g.Retains h := by
  -- Reading leaves the heap alone, so only a number that has no small integer is new.
  cases place with
  | tagged o =>
    obtain ⟨w, g₁, word, ok⟩ := Computation.bind_eq_ok ok
    obtain rfl : g = g₁ := congrArg Prod.snd word
    cases w <;> cases ok
    exact ⟨Frame.slot_ok (congrArg Prod.fst word), .refl _⟩
  | literal u =>
    cases ok
    exact ⟨rfl, .refl _⟩
  | int32 o | uint32 o =>
    obtain ⟨i, g₁, read, ok⟩ := Computation.bind_eq_ok ok
    obtain rfl : g = g₁ := congrArg Prod.snd read
    obtain ⟨number, retains, -⟩ := Heap.newNumber_ok ok
    exact ⟨⟨i, integerAt_ok (congrArg Prod.fst read), number⟩, retains⟩
  | double o =>
    obtain ⟨w, g₁, word, ok⟩ := Computation.bind_eq_ok ok
    obtain rfl : g = g₁ := congrArg Prod.snd word
    cases w with
    | double d =>
      obtain ⟨number, retains, -⟩ := Heap.newNumber_ok ok
      exact ⟨⟨d, Frame.slot_ok (congrArg Prod.fst word), number⟩, retains⟩
    | _ => cases ok

/-- Reading all places gives their values one by one. -/
theorem values_give {vs : List Value} {g h : Heap} (ok : values frame places g = (.ok vs, h)) :
    vs.length = places.length ∧ g.Retains h ∧ ∀ (t : Nat) place v, places[t]? = some place →
      vs[t]? = some v → place.Gives frame h v := by
  induction places generalizing vs g with
  | nil =>
    cases ok
    exact ⟨rfl, .refl _, by simp⟩
  | cons place places ih =>
    obtain ⟨v, g₁, first, ok⟩ := Computation.bind_eq_ok ok
    obtain ⟨us, g₂, later, ok⟩ := Computation.bind_eq_ok ok
    cases ok
    obtain ⟨gives, retains⟩ := value_gives first
    obtain ⟨length, retains', rest'⟩ := ih later
    refine ⟨by simp [length], retains.trans retains', fun t place' v' hp hv => ?_⟩
    cases t with
    | zero =>
      cases hp
      cases hv
      exact gives.retains retains'
    | succ t => exact rest' t place' v' hp hv

end ArgumentPlace

/-! ### Agreement -/

/-- The number that an untagged word of a frame stands for. -/
inductive Frame.Untagged (f : Frame) : Double → Prop
  | int32 {o : Nat} {i : Int} (word : f.words[o]? = some (.int i)) :
    Untagged f (Double.ofInt (i.bmod (2 ^ 32)))
  | uint32 {o : Nat} {i : Int} (word : f.words[o]? = some (.int i)) :
    Untagged f (Double.ofInt (i % 2 ^ 32))
  | double {o : Nat} {d : Double} (word : f.words[o]? = some (.double d)) : Untagged f d

/-- The same tagged value, or numbers in two heaps made of the same untagged word. -/
inductive SameArgument (frame : Frame) (h h' : Heap) (x y : Value) : Prop
  | tagged (same : x = y)
  | number {d : Double} (word : frame.Untagged d) (left : h.IsNumber d x) (right : h'.IsNumber d y)

section Agreement

variable {frame : Frame} {h h' : Heap} {x y : Value} {v : Recovered}

theorem Frame.wordAt?_of_offset {i : Int} {o : Nat} (ok : frame.offsetOfIndex i = .ok o) :
    frame.wordAt? i = frame.words[o]? := by
  simp only [offsetOfIndex] at ok
  split at ok
  · rename_i inside
    cases ok
    simp only [wordAt?, inside.1, if_true]
  · cases ok

/-- A small integer is shown as it is, and a number made of it is the same. -/
theorem SameArgument.of_integer {i : Int} (integer : v.IsInteger i) (word : frame.Untagged (Double.ofInt i))
    (made : h.IsNumber (Double.ofInt i) x) (shown : v.ShownIn h' y) : SameArgument frame h h' x y := by
  unfold Recovered.IsInteger at integer
  split at integer
  · rename_i small
    have fits : Value.fitsSmi i = true := by
      apply decide_eq_true
      unfold Value.smiMin Value.smiMax
      omega
    rw [Heap.IsNumber, Heap.smiOfNumber?_ofInt fits] at made
    rw [integer] at shown
    exact .tagged (made.trans shown.symm)
  · rw [integer] at shown
    exact .number word made shown

/-- What is read at the place of a position agrees with what the position stands for. -/
theorem SameArgument.of_position {s : Scene} {p : Position} {place : ArgumentPlace}
    (named : place.Named s.data s.input p) (denotes : p.Denotes s v)
    (gives : place.Gives s.input h x) (shown : v.ShownIn h' y) : SameArgument s.input h h' x y := by
  obtain ⟨command, parts, ok⟩ := named.command
  obtain ⟨-, command', parts', denotes⟩ := denotes
  obtain rfl : command = command' := Option.some.inj (parts.symm.trans parts')
  -- Arguments come from the stack or the literals, so only these five commands name a place.
  cases denotes with
  | stackSlot at' =>
    obtain ⟨o, offset, ok⟩ := Computation.except_bind_eq_ok ok
    cases ok
    rw [Frame.wordAt?_of_offset offset, gives] at at'
    cases at'
    exact .tagged shown.symm
  | int32StackSlot at' integer =>
    obtain ⟨o, offset, ok⟩ := Computation.except_bind_eq_ok ok
    cases ok
    obtain ⟨i, word, made⟩ := gives
    rw [Frame.wordAt?_of_offset offset, word] at at'
    cases at'
    rw [wrapInt32_eq_bmod] at made
    exact .of_integer integer (.int32 word) made shown
  | uint32StackSlot at' integer =>
    obtain ⟨o, offset, ok⟩ := Computation.except_bind_eq_ok ok
    cases ok
    obtain ⟨i, word, made⟩ := gives
    rw [Frame.wordAt?_of_offset offset, word] at at'
    cases at'
    rw [wrapUint32_eq_emod] at made
    exact .of_integer integer (.uint32 word) made shown
  | doubleStackSlot at' =>
    obtain ⟨o, offset, ok⟩ := Computation.except_bind_eq_ok ok
    cases ok
    obtain ⟨d, word, made⟩ := gives
    rw [Frame.wordAt?_of_offset offset, word] at at'
    cases at'
    exact .number (.double word) made shown
  | literal at' =>
    obtain ⟨u, known, ok⟩ := Computation.except_bind_eq_ok ok
    cases ok
    rw [BailoutData.literal_ok known] at at'
    cases at'
    exact .tagged (gives.trans shown.symm)
  | register _ | int32Register _ _ | uint32Register _ _ | doubleRegister _ | arguments _ _
  | unknownArguments => cases ok

end Agreement

namespace Engine

variable {e e₁ e₂ : Engine} {frame : Frame} {c : CodeId} {data : BailoutData} {i k n : Nat}
  {entry : BailoutEntry} {vs : List Value}

theorem inlinedArguments_ok (stopped : StoppedAt e frame c data i entry)
    (h : inlinedArguments k n e = (.ok vs, e₂)) : ∃ places c',
      ArgumentPlace.ofRecipe data frame k n (.start data.recipes entry.recipe) = (.ok places, c') ∧
      ArgumentPlace.values frame places e.heap = (.ok vs, e₂.heap) ∧ e.Keeps e₂ := by
  have data' : (e.codeSpace.get c).bailoutData = .ok data := by simp [Code.bailoutData, stopped.known]
  have entry' : data.entry i = .ok entry := by simp [BailoutData.entry, stopped.point]
  rw [inlinedArguments, Computation.bind_ok (topFrame_of_top _ stopped.top), argumentsInFrame,
    Computation.get_bind, stopped.code] at h
  dsimp only at h
  rw [data', Computation.liftM_ok_bind, stopped.first] at h
  dsimp only at h
  rw [entry', Computation.liftM_ok_bind] at h
  rcases found : ArgumentPlace.ofRecipe data frame k n (.start data.recipes entry.recipe) with
    ⟨places | places, c'⟩
  · rw [found] at h
    cases h
  · rw [found] at h
    dsimp only at h
    rw [Computation.liftM_ok_bind] at h
    rcases read : ArgumentPlace.values frame places e.heap with ⟨values, heap⟩
    simp only [onHeap, read] at h
    cases h
    exact ⟨places, c', rfl, read, rfl⟩

end Engine

/-- A function's arguments are in one frame. -/
theorem ArgumentsOf.unique {fs : List Frame} {i i' j : Nat} {g g' : Frame} (h : ArgumentsOf fs j i g)
    (h' : ArgumentsOf fs j i' g') : i = i' ∧ g = g' := by
  have same : i = i' := by
    cases h with
    | adapted next found type =>
      cases h' with
      | adapted next' _ _ => omega
      | own _ plain => exact absurd type (plain i g next found)
    | own _ plain =>
      cases h' with
      | adapted next found type => exact absurd type (plain i' g' next found)
      | own _ _ => rfl
  subst same
  exact ⟨rfl, Option.some.inj (h.found.symm.trans h'.found)⟩

theorem countP_take_of_map {α β : Type} {p : α → Bool} {q : β → Bool} {xs : List α} {ys : List β}
    (same : xs.map p = ys.map q) (n : Nat) : (xs.take n).countP p = (ys.take n).countP q := by
  have split {γ : Type} (r : γ → Bool) (zs : List γ) :
      (zs.take n).countP r = ((zs.map r).take n).countP id := by
    rw [← List.map_take, List.countP_map]
    rfl
  rw [split p, split q, same]

section Records

variable {s : Scene} {prev : Option Frame} {opener : Command} {passed : List Int}
  {positions : List Position} {l : Layout} {f : Frame} {ps : List Recovered}

/-- Parameters come first. -/
theorem Layout.values_eq (parameters : l.parameters = ps.map .value) : ∃ es, l.values = ps ++ es := by
  rw [values, placed_eq, parameters, List.map_append, Slot.snd_placed]
  exact ⟨_, rfl⟩

/-- The arguments of a frame are among the positions of its record. -/
theorem Rebuilt.area_le (h : Rebuilt s prev opener passed positions l f)
    (parameters : l.parameters = ps.map .value) : f.area ≤ positions.length := by
  obtain ⟨es, values⟩ := Layout.values_eq parameters
  rw [h.area, parameters, List.length_map, ← h.denoted.length, values, List.length_append]
  omega

/-- A position that is not marked stands for what it denotes itself. -/
theorem Rebuilt.denotes {k : Nat} {p : Position} {v : Recovered}
    (h : Rebuilt s prev opener passed positions l f) (parameters : l.parameters = ps.map .value)
    (hp : positions[k]? = some p) (own : p.marks = 0) (hv : ps[k]? = some v) : p.Denotes s v := by
  obtain ⟨es, values⟩ := Layout.values_eq parameters
  refine h.denoted.own hp own ?_
  rw [values, List.getElem?_append_left (List.getElem?_eq_some_iff.mp hv).1, hv]

/-- The parameter area of a function's frame has room for the receiver and the declared parameters. -/
theorem Rebuilt.area_of_function {n : Nat} {x : Value}
    (h : Rebuilt s prev opener passed positions l f) (type : f.type = .javaScript)
    (known : f.function = some x) (formals : (s.heap.functionShared? x).map (·.formals) = some n) :
    f.area = n + 1 := by
  have function := h.function type
  have plan := h.plan
  rw [known] at function
  cases h.described with
  | @javaScript _ _ _ y d _ _ literal data =>
    obtain rfl : x = y := Word.tagged.inj (Option.some.inj function)
    simp only [Heap.functionShared?, data, Option.map_some, Option.some.injEq] at formals
    simp [literal, data, formals] at plan
    exact h.area.trans (by simp [plan.2.1])
  | _ =>
    have type' := h.type_iff.1.mp type
    cases type'

/-- The frame that has the arguments, for the record that the search has stopped at. -/
theorem ArgumentPlace.RecordOf.holder {records : List FrameRecord} {ls : List Layout}
    {fs : List Frame} {r : FrameRecord} {i j n formals : Nat} (follows : Follows s none records ls fs)
    (h : RecordOf records j formals i r n) (found : fs[j]? = some f) (type : f.type = .javaScript)
    (own : f.area = formals + 1) : ∃ (g : Frame) (l : Layout) (ps : List Recovered),
      ArgumentsOf fs j i g ∧ ls[i]? = some l ∧
      (∃ prev, Rebuilt s prev r.opener r.passed r.positions l g) ∧ l.parameters = ps.map .value ∧
      g.parameterCount = n := by
  cases h with
  | @adapted i r literal height next found' opener =>
    have inside : i < fs.length := by
      have := (List.getElem?_eq_some_iff.mp found).1
      omega
    obtain ⟨r', l, hr, hl, rebuilt⟩ := follows.rebuilt (List.getElem?_eq_getElem inside)
    obtain rfl : r = r' := Option.some.inj (found'.symm.trans hr)
    have adaptor : fs[i].type = .argumentsAdaptor := rebuilt.type_iff.2.mpr (by rw [opener]; rfl)
    obtain ⟨ps, parameters⟩ := rebuilt.adaptor adaptor
    refine ⟨fs[i], l, ps, .adapted next (List.getElem?_eq_getElem inside) adaptor, hl, ⟨_, rebuilt⟩,
      parameters, ?_⟩
    have plan := rebuilt.plan
    rw [opener] at plan
    simp only [Scene.plan?_argumentsAdaptorFrame, Option.some.injEq, FramePlan.mk.injEq] at plan
    rw [Frame.parameterCount, rebuilt.area, ← plan.2.1]
  | own found' plain =>
    obtain ⟨r', l, hr, hl, rebuilt⟩ := follows.rebuilt found
    obtain rfl : r = r' := Option.some.inj (found'.symm.trans hr)
    obtain ⟨ps, -, parameters, -⟩ := rebuilt.javaScript type
    refine ⟨f, l, ps, .own found fun m x next hx adaptor => ?_, hl, ⟨_, rebuilt⟩, parameters, ?_⟩
    · obtain ⟨q, _, hq, -, before⟩ := follows.rebuilt hx
      exact plain m q next hq (before.type_iff.2.mp adaptor)
    · rw [Frame.parameterCount, own, Nat.add_sub_cancel]

end Records

/-- **The arguments of an inlined function are those that the debugger shows.** The frame on top of the
stack is stopped at a bailout point with a well-formed recipe, and the debugger can look at its `k`th
function, which is declared with `n` parameters. Then its arguments are what the debugger shows as
its parameters, one by one, and neither of the two changes anything but the heap and the trace. -/
theorem inlinedArguments_agree {e e₁ e₂ : Engine} {frame : Frame} {c : CodeId} {data : BailoutData}
    {i k n : Nat} {entry : BailoutEntry} {records : List FrameRecord} {v : FrameView} {vs : List Value}
    (stopped : StoppedAt e frame c data i entry)
    (wellFormed : WellFormed (e.inspection frame c data) (data.recipes.drop entry.recipe) records)
    (looks : Engine.inspect k e = (.ok v, e₁))
    (formals : (e.heap.functionShared? v.function).map (·.formals) = some n)
    (reads : Engine.inlinedArguments k n e = (.ok vs, e₂)) :
    vs.length = v.parameters.length ∧
      (∀ (t : Nat) x y, vs[t]? = some x → v.parameters[t]? = some y →
        SameArgument frame e₂.heap e₁.heap x y) ∧
      e.Keeps e₁ ∧ e.Keeps e₂ := by
  obtain ⟨_, a, b, e', run, begun, frames, numbers, arguments, view⟩ := Engine.inspect_ok stopped looks
  obtain ⟨count, records', ls, -, walked⟩ := Assembly.run_walked run
  rw [← frames, ← numbers, ← arguments] at walked
  obtain ⟨count', js, is, rest, parts, length, -, spelled⟩ := wellFormed.spelled
  obtain ⟨rfl, rfl⟩ := walked.records_eq parts spelled length wellFormed.complete
  -- What the debugger shows.
  obtain ⟨j, f, v₀, nth, parameters, expressions, function, -, fold⟩ := Bailout.viewNth_ok view
  obtain ⟨r, l, hr, hl, rebuilt⟩ := walked.follows.rebuilt nth.found
  obtain ⟨ps, -, hps, -, positive⟩ := rebuilt.javaScript nth.type
  obtain ⟨i', of⟩ := Bailout.argumentsFrame_eq nth.found
  have area : 0 < f.area := by rwa [rebuilt.area, hps, List.length_map]
  obtain ⟨same, keeps, -, shown, -⟩ := Bailout.fillViews_shown (.of_walked walked)
    walked.follows.stacked nth.found area of parameters expressions fold
  -- Where the arguments are read.
  obtain ⟨places, c', found, read, keeps'⟩ := Engine.inlinedArguments_ok stopped reads
  obtain ⟨fuel, d, spelled', search⟩ := ArgumentPlace.ofRecipe_search found parts spelled
  have before : (records'.take j).countP (·.opener.opcode == .jsFrame) = k := by
    rw [← nth.before]
    exact (countP_take_of_map walked.follows.functions j).symm
  have own : f.area = n + 1 := by
    obtain ⟨x, known, -⟩ := Option.map_eq_some_iff.mp (rebuilt.function nth.type)
    have callee : v.function = x := by rw [same.frame, function, known]; rfl
    exact rebuilt.area_of_function nth.type known (callee ▸ formals)
  obtain ⟨i₂, q, m, record, reaches⟩ := ArgumentPlace.search_finds search
    (show Spells d.rest (records'.flatMap FrameRecord.ints ++ []) rest by simpa using spelled')
    wellFormed.complete (fun q hq => .of_wellFormed wellFormed hq) wellFormed.adapted hr
    (rebuilt.type_iff.1.mp nth.type) before
  obtain ⟨g, l', ps', of', hl', ⟨prev, rebuilt'⟩, parameters', count⟩ :=
    record.holder walked.follows nth.found nth.type own
  obtain ⟨rfl, holder⟩ := of.unique of'
  have enough : m ≤ q.positions.length - 1 := by
    have := rebuilt'.area_le parameters'
    rw [← count, Frame.parameterCount]
    omega
  obtain ⟨placesLength, named⟩ := reaches.named (wellFormed.first q (List.mem_of_getElem? record.found))
    enough
  obtain ⟨valuesLength, -, gives⟩ := ArgumentPlace.values_give read
  have shownLength : v.parameters.length = m := by
    rw [same.parameters, (Frame.parameterValues_ok parameters).1, holder, count]
  refine ⟨by omega, fun t x y hx hy => ?_, ?_, keeps'⟩
  · have inside : t < g.parameterCount := by
      rw [count, ← shownLength]
      exact (List.getElem?_eq_some_iff.mp hy).1
    have place : places[t]? = some places[t] := List.getElem?_eq_getElem (by omega)
    obtain ⟨p, hp, namedp⟩ := named t _ place
    have some' : t + 1 < ps'.length := by
      have := rebuilt'.area
      rw [parameters', List.length_map] at this
      unfold Frame.parameterCount at inside
      omega
    have value : ps'[t + 1]? = some ps'[t + 1] := List.getElem?_eq_getElem some'
    have denotes := rebuilt'.denotes parameters' hp namedp.own value
    have slot : l'.at? (g.size - 2 - t) = some (.value ps'[t + 1]) := by
      have := rebuilt'.at?_parameter (k := t + 1) (by rwa [parameters', List.length_map])
      rw [parameters', List.getElem?_map, value] at this
      rw [show g.size - 2 - t = g.size - 1 - (t + 1) by omega]
      exact this
    rw [holder] at shown
    obtain ⟨y', hy', shown⟩ := shown t l' _ hl' inside slot
    obtain rfl : y = y' := Option.some.inj (hy.symm.trans hy')
    exact .of_position namedp denotes (gives t _ x place hx) shown
  · have first : e.Keeps e' := by rw [begun]; rfl
    exact first.trans keeps

namespace Sample

/-- The records of the recipe. -/
def records : List FrameRecord :=
  [{ opener := .jsFrame ⟨1⟩ 0 2, operands := [1, 0, 2], passed := [], opens := by decide
     positions := [⟨0, .stackSlot, [-2], by decide, rfl⟩, ⟨0, .stackSlot, [-1], by decide, rfl⟩,
       ⟨0, .doubleRegister, [0], by decide, rfl⟩, ⟨2, .register, [0], by decide, rfl⟩] },
   { opener := .argumentsAdaptorFrame 1 3, operands := [1, 3], passed := [], opens := by decide
     positions := [⟨0, .stackSlot, [0], by decide, rfl⟩, ⟨0, .int32StackSlot, [1], by decide, rfl⟩,
       ⟨0, .literal, [0], by decide, rfl⟩] },
   { opener := .jsFrame ⟨2⟩ 1 1, operands := [2, 1, 1], passed := [], opens := by decide
     positions := [⟨0, .stackSlot, [0], by decide, rfl⟩, ⟨0, .int32StackSlot, [1], by decide, rfl⟩,
       ⟨0, .argumentsObject, [1, 0, 1], by decide, rfl⟩] }]

/-- The recipe of the sample is well formed. -/
theorem wellFormed : WellFormed (engine.inspection bailout.input ⟨11⟩ data)
    (data.recipes.drop entry.recipe) records where
  spelled := by
    refine ⟨3, 2, [3, 2], [], by decide, rfl, by decide, .of_readInts (n := recipe.length) ?_⟩
    decide +kernel
  complete r hr := by
    simp only [records, List.mem_cons, List.not_mem_nil, or_false] at hr
    rcases hr with rfl | rfl | rfl
    all_goals exact ⟨by decide +kernel, nofun, fun _ => rfl⟩
  values := by decide
  receivers r hr passes := by
    simp only [records, List.mem_cons, List.not_mem_nil, or_false] at hr
    rcases hr with rfl | rfl | rfl
    all_goals cases passes
  first r hr p hp := by
    simp only [records, List.mem_cons, List.not_mem_nil, or_false] at hr
    rcases hr with rfl | rfl | rfl
    all_goals
      cases hp
      rfl
  adapted i r hr adaptor := by
    match i with
    | 1 => exact ⟨_, rfl, rfl⟩
    | 0 | 2 =>
      cases hr
      cases adaptor
    | i + 3 => cases hr

end Sample

/-- The two arguments of the inlined function: an integer that needs a box, and a literal. -/
theorem inlinedArguments_agree_inlined : ∃ v e₁ vs e₂,
    Engine.inspect 1 Sample.engine = (.ok v, e₁) ∧
    Engine.inlinedArguments 1 1 Sample.engine = (.ok vs, e₂) ∧
    (vs.length, vs[1]?) = (2, some (.object ⟨11⟩)) ∧ vs.length = v.parameters.length ∧
    (∀ (t : Nat) x y, vs[t]? = some x → v.parameters[t]? = some y →
      SameArgument Sample.bailout.input e₂.heap e₁.heap x y) ∧
    e₁.stack = Sample.engine.stack ∧ e₂.stack = Sample.engine.stack := by
  have shown : (Engine.inspect 1 Sample.engine).1.toOption.map
      (fun v => (Sample.engine.heap.functionShared? v.function).map (·.formals)) = some (some 1) := by
    decide +kernel
  obtain ⟨v, seen, formals⟩ := Option.map_eq_some_iff.mp shown
  have read : (Engine.inlinedArguments 1 1 Sample.engine).1.toOption.map
      (fun vs => (vs.length, vs[1]?)) = some (2, some (.object ⟨11⟩)) := by decide +kernel
  obtain ⟨vs, given, values⟩ := Option.map_eq_some_iff.mp read
  have looks := Computation.eq_ok_of_toOption seen
  have reads := Computation.eq_ok_of_toOption given
  obtain ⟨length, agree, keeps, keeps'⟩ :=
    inlinedArguments_agree Sample.stopped Sample.wellFormed looks formals reads
  exact ⟨v, _, vs, _, looks, reads, values, length, agree, keeps.stack, keeps'.stack⟩

end Speculation
