import Mathlib.Data.List.Forall2
import Speculation.Proofs.Bailout.Restoring
import Speculation.Proofs.Recipe.Canonical

/-!
# Abandoned replacements

A replacement visits the words of the interpreted frame from the top down, in two loops around the
fixed part, and reads one position of the recipe for each of them. It is abandoned at the first word
that is in the way: one that is not tagged, or whose value the command of its position does not take.

Nothing is written to the engine before all words have been moved. `Visits` says what a step of the
replacement does to a list of offsets, and passes through sequences, so there is one line for each
step; positions can be told apart, so the obstacle that was met first is the highest one of all
(`Visited.highest`). `replacement_abandoned` says this of the whole operation.
-/

namespace Speculation

open Recipe

/-! ### Words in the way -/

/-- Why the place that a command names does not take a value, if it does not: an integer or a double is
asked for, and the value is none. -/
def Command.refusal? (h : Heap) (v : Value) : Command → Option OsrObstacle
  | int32Register _ | int32StackSlot _ =>
    if (h.toInt32? v).isNone then some (.notInt32 (h.describe v)) else none
  | uint32Register _ | uint32StackSlot _ =>
    if (h.toUint32? v).isNone then some (.notUint32 (h.describe v)) else none
  | doubleRegister _ | doubleStackSlot _ =>
    if (h.numberValue? v).isNone then some (.notNumber (h.describe v)) else none
  | _ => none

/-- The `k`th position of a recipe has the command `c`, behind any number of marks. -/
def Recipe.Names (bytes : List UInt8) (k : Nat) (c : Command) : Prop :=
  ∃ (ps : List Position) (p : Position) (rest : List UInt8), ps.length = k ∧
    Spells bytes (ps.flatMap Position.ints ++ p.ints) rest ∧
    Command.ofParts? p.opcode p.operands = some c

/-- The word at an offset of the interpreted frame is in the way, if it belongs to the `k`th position
of the recipe. -/
inductive Obstructs (h : Heap) (input : Frame) (bytes : List UInt8) (k offset : Nat) :
    OsrObstacle → Prop
  | untagged {w : Word} (word : input.slot offset = .ok w) (untagged : ∀ v, w ≠ .tagged v) :
    Obstructs h input bytes k offset .untaggedInput
  | refused {v : Value} {c : Command} {why : OsrObstacle} (word : input.slot offset = .ok (.tagged v))
      (named : Names bytes k c) (refused : c.refusal? h v = some why) :
    Obstructs h input bytes k offset why

/-- The word at an offset is moved by a position. -/
inductive Admits (h : Heap) (input : Frame) (offset : Nat) (p : Position) : Prop
  | intro {v : Value} {c : Command} (word : input.slot offset = .ok (.tagged v))
      (parts : Command.ofParts? p.opcode p.operands = some c) (takes : c.refusal? h v = none)

/-! ### Positions of a recipe -/

namespace Recipe

variable {bytes mid rest : List UInt8} {is js : List Int} {ps : List Position} {p : Position} {k : Nat}
  {c c' : Command}

/-- Two readings of the same bytes agree as far as both go. -/
theorem Spells.agree (h : Spells bytes is mid) (h' : Spells bytes js rest) :
    ∃ xs ys, is ++ xs = js ++ ys := by
  rcases Nat.le_total is.length js.length with short | short
  · obtain ⟨ks, same, -⟩ := h.consume h' short
    exact ⟨ks, [], by rw [same, List.append_nil]⟩
  · obtain ⟨ks, same, -⟩ := h'.consume h short
    exact ⟨[], ks, by rw [same, List.append_nil]⟩

theorem Spells.fits (h : Spells bytes is rest) : is.all fitsInt32 := by
  induction h with
  | nil => rfl
  | cons head _ ih => simp [fits_of_readInt head, ih]

/-- A position that was read is the one that a recipe names. -/
theorem Names.parts (named : Names bytes k c) (spelled : Spells bytes (ps.flatMap Position.ints) rest)
    (hp : ps[k]? = some p) : Command.ofParts? p.opcode p.operands = some c := by
  obtain ⟨qs, q, rest', length, spelled', parts⟩ := named
  obtain ⟨inside, at'⟩ := List.getElem?_eq_some_iff.mp hp
  have split : ps = ps.take k ++ p :: ps.drop (k + 1) := by
    rw [← at', ← List.drop_eq_getElem_cons inside, List.take_append_drop]
  -- Both lists have `k` positions before the one in question.
  obtain ⟨xs, ys, same⟩ := spelled.agree spelled'
  rw [split, List.flatMap_append, List.flatMap_cons, List.append_assoc, List.append_assoc,
    List.append_assoc] at same
  have lengths : (ps.take k).length = qs.length := by
    rw [List.length_take, length]
    omega
  obtain ⟨-, same'⟩ := @flatMap_append_inj Position (fun _ => True) Position.ints
    (fun _ _ => Position.ints_append_inj) _ _ _ _ (by simp) (by simp) lengths same
  rw [(Position.ints_append_inj same').1]
  exact parts

/-- The same bytes name one command. -/
theorem Names.unique (named : Names bytes k c) (named' : Names bytes k c') : c = c' := by
  obtain ⟨ps, p, rest, rfl, spelled, parts⟩ := named
  have whole : Spells bytes ((ps ++ [p]).flatMap Position.ints) rest := by
    simpa using spelled
  have last : (ps ++ [p])[ps.length]? = some p := by simp
  have parts' := named'.parts whole last
  exact Option.some.inj (parts.symm.trans parts')

/-- Positions are counted on over what has been read. -/
theorem Names.shift (spelled : Spells bytes (ps.flatMap Position.ints) mid) (named : Names mid k c) :
    Names bytes (ps.length + k) c := by
  obtain ⟨qs, q, rest, rfl, spelled', parts⟩ := named
  refine ⟨ps ++ qs, q, rest, List.length_append, ?_, parts⟩
  rw [List.flatMap_append, List.append_assoc]
  exact spelled.append spelled'

end Recipe

section Obstacles

variable {h : Heap} {input : Frame} {bytes mid rest : List UInt8} {k offset : Nat} {ps : List Position}
  {p : Position} {why why' : OsrObstacle}

/-- An obstacle behind positions that were passed is one further on. -/
theorem Obstructs.shift (spelled : Spells bytes (ps.flatMap Position.ints) mid)
    (o : Obstructs h input mid k offset why) : Obstructs h input bytes (ps.length + k) offset why := by
  cases o with
  | untagged word untagged => exact .untagged word untagged
  | refused word named refused => exact .refused word (named.shift spelled) refused

/-- A word is in the way for one reason only. -/
theorem Obstructs.unique (o : Obstructs h input bytes k offset why)
    (o' : Obstructs h input bytes k offset why') : why = why' := by
  cases o with
  | untagged word untagged =>
    cases o' with
    | untagged _ _ => rfl
    | refused word' _ _ => exact absurd (Except.ok.inj (word.symm.trans word')) (untagged _)
  | refused word named refused =>
    cases o' with
    | untagged word' untagged => exact absurd (Except.ok.inj (word'.symm.trans word)) (untagged _)
    | refused word' named' refused' =>
      obtain rfl := named.unique named'
      obtain rfl := Word.tagged.inj (Except.ok.inj (word.symm.trans word'))
      exact Option.some.inj (refused.symm.trans refused')

/-- A word that is moved is not in the way. -/
theorem Admits.not_obstructs (a : Admits h input offset p)
    (spelled : Spells bytes (ps.flatMap Position.ints) rest) (hp : ps[k]? = some p) :
    ¬ Obstructs h input bytes k offset why := by
  obtain ⟨word, parts, takes⟩ := a
  intro o
  cases o with
  | untagged word' untagged => exact untagged _ (Except.ok.inj (word'.symm.trans word))
  | refused word' named refused =>
    obtain rfl := Option.some.inj (parts.symm.trans (named.parts spelled hp))
    obtain rfl := Word.tagged.inj (Except.ok.inj (word.symm.trans word'))
    rw [takes] at refused
    cases refused

end Obstacles

/-! ### Visiting words -/

/-- What visiting the words at some offsets comes to, with positions from `bytes`: a terminal fault, an
obstacle at one of the offsets behind words that were moved, or the end of the list. -/
inductive Visited {α : Type} (h : Heap) (input : Frame) (offsets : List Nat) (bytes : List UInt8) :
    Except Fault α × Replacement → Prop
  | failed {f : Fault} {b : Replacement} (terminal : f.isTerminal = true) :
    Visited h input offsets bytes (.error f, b)
  | stopped {before after : List Nat} {slot : Nat} {ps : List Position} {mid : List UInt8}
    {why : OsrObstacle} {b : Replacement} (split : offsets = before ++ slot :: after)
    (moved : List.Forall₂ (Admits h input) before ps)
    (spelled : Spells bytes (ps.flatMap Position.ints) mid)
    (obstructs : Obstructs h input mid 0 slot why) :
    Visited h input offsets bytes (.error (.osrAborted slot why), b)
  | passed {x : α} {ps : List Position} {b : Replacement}
    (moved : List.Forall₂ (Admits h input) offsets ps)
    (spelled : Spells bytes (ps.flatMap Position.ints) b.cursor.rest) :
    Visited h input offsets bytes (.ok x, b)

namespace Visited

variable {α β : Type} {h : Heap} {input : Frame} {offsets offsets' : List Nat}
  {bytes mid : List UInt8} {ps : List Position}

/-- The first word is in the way. -/
theorem met {slot : Nat} {why : OsrObstacle} {b : Replacement}
    (obstructs : Obstructs h input bytes 0 slot why) :
    @Visited α h input [slot] bytes (.error (.osrAborted slot why), b) := by
  have split : [slot] = [] ++ slot :: [] := rfl
  exact .stopped split .nil .nil obstructs

/-- Words that were moved before count as moved. -/
theorem after {r : Except Fault α × Replacement} (moved : List.Forall₂ (Admits h input) offsets ps)
    (spelled : Spells bytes (ps.flatMap Position.ints) mid) (v : Visited h input offsets' mid r) :
    Visited h input (offsets ++ offsets') bytes r := by
  cases v with
  | failed terminal => exact .failed terminal
  | @stopped before behind slot qs mid' why b split moved' spelled' obstructs =>
    refine .stopped (by rw [split, List.append_assoc]) (List.rel_append moved moved') ?_ obstructs
    rw [List.flatMap_append]
    exact spelled.append spelled'
  | passed moved' spelled' =>
    refine .passed (List.rel_append moved moved') ?_
    rw [List.flatMap_append]
    exact spelled.append spelled'

/-- Words that were moved are not in the way. -/
theorem not_obstructs {k slot : Nat} {rest : List UInt8} {why : OsrObstacle}
    (moved : List.Forall₂ (Admits h input) offsets ps)
    (spelled : Spells bytes (ps.flatMap Position.ints) rest) (at' : offsets[k]? = some slot) :
    ¬ Obstructs h input bytes k slot why := by
  obtain ⟨inside, rfl⟩ := List.getElem?_eq_some_iff.mp at'
  have inside' : k < ps.length := moved.length_eq ▸ inside
  have admits : Admits h input offsets[k] ps[k] := moved.get inside inside'
  exact admits.not_obstructs spelled (List.getElem?_eq_getElem inside')

/-- **The obstacle that was met is the highest.** No word above it is in the way, and it is in the way
for no other reason. -/
theorem highest {before below : List Nat} {slot : Nat} {why : OsrObstacle}
    (descending : (before ++ slot :: below).Pairwise (· > ·))
    (moved : List.Forall₂ (Admits h input) before ps)
    (spelled : Spells bytes (ps.flatMap Position.ints) mid)
    (obstructs : Obstructs h input mid 0 slot why) :
    Obstructs h input bytes before.length slot why ∧
      ∀ (k slot' : Nat) why', (before ++ slot :: below)[k]? = some slot' →
        Obstructs h input bytes k slot' why' → slot' < slot ∨ slot' = slot ∧ why' = why := by
  have here : Obstructs h input bytes before.length slot why := by
    rw [moved.length_eq]
    exact obstructs.shift spelled
  refine ⟨here, ?_⟩
  intro k slot' why' at' obstructs'
  rcases Nat.lt_trichotomy k before.length with above | same | under
  · -- words above have been moved
    rw [List.getElem?_append_left above] at at'
    exact absurd obstructs' (not_obstructs moved spelled at')
  · -- the word itself is in the way for one reason
    rw [same, List.getElem?_append_right (Nat.le_refl _), Nat.sub_self] at at'
    obtain rfl : slot = slot' := Option.some.inj at'
    rw [same] at obstructs'
    exact .inr ⟨rfl, obstructs'.unique here⟩
  · -- words that come later are lower
    have member : slot' ∈ below := by
      rw [List.getElem?_append_right (Nat.le_of_lt under),
        show k - before.length = k - before.length - 1 + 1 by omega] at at'
      exact List.mem_of_getElem? at'
    have order := (List.pairwise_append.mp descending).2.1
    exact .inl ((List.pairwise_cons.mp order).1 slot' member)

end Visited

namespace Replacement

variable {α β : Type} {s : Scene} {offsets offsets' : List Nat}

/-- A step that visits the words at some offsets. -/
structure Visits (s : Scene) (offsets : List Nat) (m : Step α) : Prop where
  outcome : ∀ a, Visited s.heap s.input offsets a.cursor.rest (m a)

namespace Visits

theorem bind {m : Step α} {f : α → Step β} (hm : Visits s offsets m)
    (hf : ∀ x, Visits s offsets' (f x)) : Visits s (offsets ++ offsets') (m >>= f) := ⟨by
  intro a
  have first := hm.outcome a
  rcases ran : m a with ⟨g | x, b⟩
  · rw [ran] at first
    rw [Computation.bind_error ran]
    cases first with
    | failed terminal => exact .failed terminal
    | stopped split moved spelled obstructs =>
      exact .stopped (by rw [split, List.append_assoc, List.cons_append]) moved spelled obstructs
  · rw [ran] at first
    rw [Computation.bind_ok ran]
    cases first with
    | passed moved spelled => exact .after moved spelled ((hf x).outcome b)⟩

/-- A step that visits no word. -/
theorem still {m : Step α} (fatal : Fatal m)
    (cursor : ∀ {a b x}, m a = (.ok x, b) → b.cursor = a.cursor) : Visits s [] m := ⟨by
  intro a
  rcases ran : m a with ⟨g | x, b⟩
  · exact .failed (fatal.terminal ran)
  · refine .passed .nil ?_
    rw [cursor ran]
    exact .nil⟩

theorem pure (x : α) : Visits s [] (pure x : Step α) :=
  .still (.pure x) fun h => congrArg cursor (Computation.pure_eq_ok h).2.symm

theorem throw {f : Fault} (terminal : f.isTerminal = true) : Visits s [] (throw f : Step α) :=
  .still (.throw terminal) fun h => by cases h

theorem get : Visits s [] (get : Step Replacement) :=
  .still .get fun h => by
    cases h
    rfl

protected theorem modify {f : Replacement → Replacement} (cursor : ∀ a, (f a).cursor = a.cursor) :
    Visits s [] (modify f : Step PUnit) :=
  .still (.modify f) fun h => by
    cases h
    exact cursor _

theorem setOutput (f : Frame) :
    Visits s [] (modify fun r => { r with output := f } : Step PUnit) := .modify fun _ => rfl

theorem lift {x : Except Fault α} (fatal : Except.Fatal x) : Visits s [] (liftM x : Step α) :=
  .still (.lift fatal) fun h => by
    cases h
    rfl

end Visits

theorem say_visits (s : Scene) (text : String) : Visits s [] (say s text) := by
  unfold say
  split
  · exact .modify fun _ => rfl
  · exact .pure _

/-! ### One word -/

/-- A position is a command behind marks. -/
theorem nextPlace_ok {c d : Cursor} {k : Command} (ok : nextPlace c = (.ok k, d)) :
    ∃ p : Position, Spells c.rest p.ints d.rest ∧ Command.ofParts? p.opcode p.operands = some k := by
  simp only [nextPlace, Computation.get_bind] at ok
  obtain ⟨o, e, passed, ok⟩ := Computation.bind_eq_ok ok
  obtain ⟨is, read, marks⟩ := Assembly.passMarks_ok passed
  obtain ⟨js, parts, operands⟩ := Cursor.operandsOf_ok ok
  have short := read.length_add_le
  rcases marks with ⟨no, -, -⟩ | ⟨-, command, m, rfl⟩ | long
  · exact absurd rfl no
  · refine ⟨⟨m, o, js, command, Command.length_of_ofParts? parts⟩, ?_, parts⟩
    simpa [Position.ints] using read.append operands
  · omega

/-- A value that is refused abandons the replacement. -/
theorem convert_refused {s : Scene} {c : Command} {v : Value} {why : OsrObstacle} (offset : Nat)
    (refused : c.refusal? s.heap v = some why) : convert s offset c v = abandon offset why := by
  cases c with
  | int32Register _ | int32StackSlot _ | uint32Register _ | uint32StackSlot _ | doubleRegister _
  | doubleStackSlot _ =>
    simp only [Command.refusal?, Option.isNone_iff_eq_none, Option.ite_none_right_eq_some,
      Option.some.injEq] at refused
    obtain ⟨none, rfl⟩ := refused
    simp [convert, none]
  | _ => cases refused

/-- A value that is not refused is converted, unless the command cannot stand here. -/
theorem convert_taken {s : Scene} {c : Command} {v : Value} (offset : Nat)
    (takes : c.refusal? s.heap v = none) : (∃ x, convert s offset c v = pure x) ∨
      ∃ f : Fault, f.isTerminal = true ∧ convert s offset c v = throw f := by
  cases c with
  | register _ | stackSlot _ | literal _ => exact .inl ⟨_, rfl⟩
  | int32Register _ | int32StackSlot _ | uint32Register _ | uint32StackSlot _ | doubleRegister _
  | doubleStackSlot _ =>
    simp only [Command.refusal?, ite_eq_right_iff, reduceCtorEq, imp_false, Bool.not_eq_true,
      Option.isNone_eq_false_iff, Option.isSome_iff_exists] at takes
    obtain ⟨x, found⟩ := takes
    simp only [convert, found]
    exact .inl ⟨_, rfl⟩
  | _ => exact .inr ⟨_, rfl, rfl⟩

/-- A word that is moved is put somewhere, which fails for good if it fails. -/
theorem moveWord_rest (s : Scene) (offset : Nat) (c : Command) (x : Option Word) : Visits s [] (do
    match x with
    | none => return
    | some w =>
      let f ← store (← get).output c w
      modify fun r => { r with output := f }
      say s s!"    {c.text} <- {w.display} ; [sp + {offset}]" : Step Unit) := by
  cases x with
  | none => exact .pure _
  | some w =>
    exact .bind .get fun a => .bind (.lift (store_fatal ..)) fun f =>
      .bind (.setOutput f) fun _ => say_visits ..

/-- Moving a word visits it. -/
theorem moveWord_visits (s : Scene) (offset : Nat) : Visits s [offset] (moveWord s offset) := ⟨by
  intro a
  rw [moveWord]
  rcases word : s.input.slot offset with f | w
  · exact .failed ((s.input.slot_fatal offset).terminal word)
  rw [Computation.liftM_ok_bind]
  cases w with
  | tagged v =>
    -- Only a tagged word takes a position of the recipe.
    dsimp only
    rcases ran : nextPlace a.cursor with ⟨f | c, d⟩
    · have failed : read nextPlace a = (.error f, { a with cursor := d }) := by rw [read, ran]
      rw [Computation.bind_error failed]
      exact .failed (nextPlace_fatal.terminal ran)
    · have place : read nextPlace a = (.ok c, { a with cursor := d }) := by rw [read, ran]
      obtain ⟨p, spelled, parts⟩ := nextPlace_ok ran
      rw [Computation.bind_ok place]
      cases refusal : c.refusal? s.heap v with
      | some why =>
        rw [convert_refused offset refusal]
        exact .met (.refused word ⟨[], p, d.rest, rfl, spelled, parts⟩ refusal)
      | none =>
        have moved : List.Forall₂ (Admits s.heap s.input) [offset] [p] :=
          .cons ⟨word, parts, refusal⟩ .nil
        -- What is left to do visits nothing.
        refine .after moved (by simpa using spelled) ?_
        rcases convert_taken offset refusal with ⟨x, taken⟩ | ⟨f, terminal, failed⟩
        · rw [taken]
          exact (moveWord_rest s offset c x).outcome { a with cursor := d }
        · rw [failed]
          exact .failed terminal
  | _ => exact .met (.untagged word (by simp))⟩

/-! ### All words -/

/-- The offsets of the words that are visited, from the top down: those of the parameter area and, past
the fixed part, those of the expressions. -/
def visited (area height : Nat) : List Nat :=
  (List.range' (height + fixedSlots) area).reverse ++ (List.range' 0 height).reverse

/-- Slots are visited from above. -/
theorem visited_descending (area height : Nat) : (visited area height).Pairwise (· > ·) := by
  refine List.pairwise_append.mpr ⟨List.pairwise_reverse.mpr List.pairwise_lt_range',
    List.pairwise_reverse.mpr List.pairwise_lt_range', ?_⟩
  intro o upper o' lower
  rw [List.mem_reverse, List.mem_range'_1] at upper lower
  omega

/-- Moving words visits the slots of a range, from above. -/
theorem moveWords_visits (s : Scene) (n least : Nat) :
    Visits s (List.range' least n).reverse (moveWords s n (least + n)) := by
  induction n with
  | zero => exact .pure _
  | succ n ih =>
    rw [List.range'_1_concat, List.reverse_append]
    exact .bind (moveWord_visits ..) fun _ => ih

theorem copyFixed_visits (s : Scene) (slot : FixedSlot) : Visits s [] (copyFixed s slot) := by
  refine .bind .get fun a => .bind (.lift (Frame.slot_fatal ..)) fun w => .bind .get fun _ =>
    .bind .get fun _ => .bind (.lift (Frame.setSlot_fatal ..)) fun f => ?_
  dsimp only
  exact .bind (.setOutput _) fun _ => say_visits ..

theorem copyFixedPart_visits (s : Scene) (slots : List FixedSlot) :
    Visits s [] (copyFixedPart s slots) := by
  induction slots with
  | nil => exact .pure _
  | cons slot slots ih => exact .bind (copyFixed_visits ..) fun _ => ih

/-- **A replacement visits all words but those of the fixed part.** -/
theorem run_visits (s : Scene) (name : String) (node : NodeId) (entry : BailoutEntry) {height : Nat}
    (a : Replacement) (size : a.output.area + fixedSlots + height = s.input.size) :
    Visited s.heap s.input (visited a.output.area height) a.cursor.rest
      (run s name node entry height a) := by
  rw [run, Computation.get_bind, Computation.get_bind]
  dsimp only
  -- The second loop begins where the fixed part ends, so it goes down to the last word.
  have whole : s.input.size = height + fixedSlots + a.output.area := by omega
  have past : s.input.size - a.output.area - fixedSlots = 0 + height := by omega
  have offsets : visited a.output.area height = [] ++ ((List.range' (height + fixedSlots) a.output.area).reverse
      ++ ([] ++ ((List.range' 0 height).reverse ++ []))) := by simp [visited]
  rw [past, whole, offsets]
  refine Visits.outcome (.bind (say_visits ..) fun _ => .bind (moveWords_visits ..) fun _ =>
    .bind (copyFixedPart_visits ..) fun _ => .bind (moveWords_visits ..) fun _ => ?_) a
  split
  · exact .bind .get fun _ => .bind (say_visits ..) fun _ => .pure _
  · exact .throw rfl

end Replacement

/-! ### What a replacement goes by -/

theorem Cursor.nextCommand_ints {c d : Cursor} {k : Command} (ok : Cursor.nextCommand c = (.ok k, d))
    (plain : k.opcode ≠ .argumentsObject) : Spells c.rest k.ints d.rest := by
  obtain ⟨is, parts, spelled⟩ := Cursor.nextCommand_ok ok
  have fits := spelled.fits
  rw [List.all_cons, Bool.and_eq_true] at fits
  have same := Command.operands_of_ofParts? parts fits.2
  have written : Command.writtenOperands k.opcode is = is := by
    unfold Command.writtenOperands
    split
    · rename_i arguments
      exact absurd arguments plain
    · rfl
  rwa [Command.ints, same, written]

/-- The head of a recipe by which code is entered. -/
theorem Replacement.expectedHeight_ok {node : NodeId} {c d : Cursor} {n : Nat}
    (ok : expectedHeight node c = (.ok n, d)) : ∃ js literal height : UInt32, n = height.toNat ∧
      Spells c.rest ((Command.begin 1 js).ints ++ (Command.jsFrame node literal height).ints) d.rest := by
  obtain ⟨first, e, begun, ok⟩ := Computation.bind_eq_ok ok
  have head := Cursor.nextCommand_ints begun
  split at ok
  · obtain ⟨second, e', opened, ok⟩ := Computation.bind_eq_ok ok
    have next := Cursor.nextCommand_ints opened
    split at ok
    · split at ok
      · rename_i same
        cases ok
        cases same
        exact ⟨_, _, _, rfl, (head (by simp [Command.opcode])).append (next (by simp [Command.opcode]))⟩
      · cases ok
    · cases ok
  · cases ok

/-- What the replacement of an interpreted frame goes by: the current code of the function is entered at
a point whose recipe describes one frame, of `height` expressions, and has its words in `body`. -/
structure Engine.Expects (e : Engine) (function : Value) (input : Frame) (area height : Nat)
    (body : List UInt8) : Prop where
  recipe : ∃ code data index entry node js literal count, EnteredAt e function code data index entry ∧
    data.osrNode = some node ∧ height = count.toNat ∧
    Spells (data.recipes.drop entry.recipe)
      ((Command.begin 1 js).ints ++ (Command.jsFrame node literal count).ints) body
  callee : (e.heap.functionShared? function).map (fun shared => shared.formals + 1) = some area
  size : area + fixedSlots + height = input.size

/-- The word at an offset is in the way of a replacement. -/
def Obstacle (h : Heap) (input : Frame) (area height : Nat) (body : List UInt8) (slot : Nat)
    (why : OsrObstacle) : Prop :=
  ∃ k : Nat, (Replacement.visited area height)[k]? = some slot ∧ Obstructs h input body k slot why

namespace Engine

variable {e : Engine} {function : Value} {input : Frame}

/-- A replacement that does not fail for good is that of a function with code. -/
theorem replaceOnStack_current (top : e.stack.top? = some input)
    (survives : Survives (replaceOnStack function e)) :
    function.isSmi = false ∧ ∃ code, e.currentCode? (some function) = some code := by
  let r : BailoutRequest := { reason := .osr, function := some function, address := input.pc }
  have begins : replaceOnStack function e = (do
      let b ← beginBailout r input
      let b ← b.rebuild
      resume b) e := by
    rw [replaceOnStack, Computation.bind_ok (topFrame_of_top _ top)]
  rcases begun : beginBailout r input e with ⟨f | b, e₁⟩
  · rw [Computation.bind_error begun] at begins
    exact absurd ((beginBailout_fatal r input).terminal begun) (survives.not_terminal begins)
  obtain ⟨code, leaves, -, -⟩ := beginBailout_ok begun
  cases small : function.isSmi with
  | true =>
    -- A small integer is taken for no function, which has no code.
    have callee : r.callee = none := by simp [r, BailoutRequest.callee, Option.filter, small]
    rw [callee] at leaves
    cases leaves
  | false =>
    have callee : r.callee = some function := r.callee_eq rfl small
    have counted : e.counted r = e := by
      rw [Engine.counted, callee]
      rfl
    rw [counted, callee] at leaves
    exact ⟨rfl, code, leaves⟩

/-- A replacement that does not fail for good visits the words of the frame, and then either replaces
the frame or leaves everything as it was. -/
theorem replaceOnStack_visits (top : e.stack.top? = some input)
    (survives : Survives (replaceOnStack function e)) : ∃ area height body moved t trace,
      e.Expects function input area height body ∧
      Visited e.heap input (Replacement.visited area height) body (moved, t) ∧
      (∀ f, moved = .error f → replaceOnStack function e = (.error f, { e with trace })) ∧
      ∀ frame, moved = .ok frame → replaceOnStack function e =
        (.ok ⟨[frame]⟩, { e with trace, stack := e.stack.replaceTop [frame] }) := by
  obtain ⟨object, code, current⟩ := replaceOnStack_current top survives
  obtain ⟨b, trace, callee, rfl, rfl, begins⟩ := replaceOnStack_begins top object current
  -- The replacement enters the code or fails for good before it visits a word.
  rcases b.replaceFrame_cases { e with trace } with ⟨f, k, terminal, failed⟩ |
    ⟨function', data, node, index, entry, height, cursor, shared, output, moved, t, enters, ran, outcome⟩
  · rw [Computation.bind_error failed] at begins
    exact absurd terminal (survives.not_terminal begins)
  obtain rfl : function = function' := Option.some.inj (callee.symm.trans enters.callee)
  obtain ⟨js, literal, count, rfl, spelled⟩ := Replacement.expectedHeight_ok enters.expects
  obtain ⟨-, area, -, -⟩ := Frame.make_ok enters.made
  have size : output.area + fixedSlots + count.toNat = b.input.size := by
    rw [area]
    exact enters.size
  have visits := Replacement.run_visits (b.scene { e with trace } data) shared.name node entry
    { cursor, output } size
  rw [ran] at visits
  have found : data.osrNode.bind data.entryForNode? = some index := by
    rw [enters.enters, Option.bind_some, enters.found]
  refine ⟨output.area, count.toNat, cursor.rest, moved, t, trace ++ t.trace.map fun text => ⟨.replacement, text⟩,
    ⟨?_, ?_, size⟩, visits, ?_, ?_⟩
  · exact ⟨b.code, data, index, entry, node, js, literal, count,
      ⟨current, enters.known, found, enters.point⟩, enters.enters, rfl, spelled⟩
  · rw [area, show e.heap.functionShared? function = some shared from enters.info]
    rfl
  · rintro f rfl
    rw [begins, Computation.bind_error outcome]
    rfl
  · rintro frame rfl
    rw [begins, Computation.bind_ok outcome]
    rfl

end Engine

/-- **An abandoned replacement changes nothing and reports the highest word in the way.** Of the words
that a replacement visits, some are in the way exactly if it is abandoned; it then reports the highest of
them for the only reason there is, and all that it leaves is a line of the trace. If no word is in the way,
a new frame takes the place of the one on top of the stack, and nothing else changes. -/
theorem replacement_abandoned {e : Engine} {function : Value} {input : Frame}
    (top : e.stack.top? = some input) (survives : Survives (Engine.replaceOnStack function e)) :
    ∃ area height body, e.Expects function input area height body ∧
      ((∃ slot why, (Engine.replaceOnStack function e).1 = .error (.osrAborted slot why)) ↔
        ∃ slot why, Obstacle e.heap input area height body slot why) ∧
      (∀ slot why k, Engine.replaceOnStack function e = (.error (.osrAborted slot why), k) →
        Obstacle e.heap input area height body slot why ∧
        (∀ slot' why', Obstacle e.heap input area height body slot' why' →
          slot' < slot ∨ slot' = slot ∧ why' = why) ∧
        k = { e with trace := k.trace }) ∧
      ((¬ ∃ slot why, Obstacle e.heap input area height body slot why) →
        ∃ frame k, Engine.replaceOnStack function e = (.ok ⟨[frame]⟩, k) ∧
          k = { e with trace := k.trace, stack := ⟨frame :: e.stack.frames.tail⟩ }) := by
  obtain ⟨area, height, body, moved, t, trace, expects, visited, failed, done⟩ :=
    Engine.replaceOnStack_visits top survives
  refine ⟨area, height, body, expects, ?_⟩
  -- The run over the slots fails for another reason, stops at an obstacle, or passes them all.
  cases visited with
  | failed terminal => exact absurd terminal (survives.not_terminal (failed _ rfl))
  | @stopped before below slot ps mid why _ split moved spelled obstructs =>
    -- The slots are visited from the top down, so the first obstacle met is the highest.
    have descending := Replacement.visited_descending area height
    rw [split] at descending
    obtain ⟨here, highest⟩ := Visited.highest descending moved spelled obstructs
    have met : Obstacle e.heap input area height body slot why := by
      refine ⟨before.length, ?_, here⟩
      rw [split, List.getElem?_append_right (Nat.le_refl _), Nat.sub_self]
      rfl
    have aborted := failed _ rfl
    refine ⟨⟨fun _ => ⟨slot, why, met⟩, fun _ => ⟨slot, why, by rw [aborted]⟩⟩, ?_, ?_⟩
    · intro slot' why' k same
      rw [aborted] at same
      cases same
      refine ⟨met, ?_, rfl⟩
      rintro slot' why' ⟨k, at', obstructs'⟩
      rw [split] at at'
      exact highest k slot' why' at' obstructs'
    · exact fun none => absurd ⟨slot, why, met⟩ none
  | @passed frame ps _ moved spelled =>
    have clear : ¬ ∃ slot why, Obstacle e.heap input area height body slot why := by
      rintro ⟨slot, why, k, at', obstructs⟩
      exact Visited.not_obstructs moved spelled at' obstructs
    have replaced := done frame rfl
    refine ⟨⟨?_, fun some => absurd some clear⟩, ?_, fun _ => ⟨frame, _, replaced, rfl⟩⟩
    · rintro ⟨slot, why, aborted⟩
      rw [replaced] at aborted
      cases aborted
    · intro slot why k aborted
      rw [replaced] at aborted
      cases aborted

namespace Sample

/-- The frame of the loop, with a word that is no integer where one is asked for, and an untagged word
under it. -/
def stuckFrame : Frame := (loopFrame.write 1 (.tagged .undefined)).write 0 (.int 7)

/-- An engine that interprets the loop with that frame. -/
def stuckEngine : Engine := { loopEngine with stack := loopEngine.stack.setTop stuckFrame }

end Sample

/-- With two words in the way behind three that are moved, the upper one of the two is reported. -/
theorem replacement_abandoned_loop : ∃ area height body,
    Sample.stuckEngine.Expects (.object ⟨11⟩) Sample.stuckFrame area height body ∧
    Obstacle Sample.stuckEngine.heap Sample.stuckFrame area height body 1 (.notInt32 "undefined") ∧
    (∀ slot why, Obstacle Sample.stuckEngine.heap Sample.stuckFrame area height body slot why →
      slot < 1 ∨ slot = 1 ∧ why = .notInt32 "undefined") ∧
    ∃ k, Engine.replaceOnStack (.object ⟨11⟩) Sample.stuckEngine =
        (.error (.osrAborted 1 (.notInt32 "undefined")), k) ∧
      k = { Sample.stuckEngine with trace := k.trace } := by
  have top : Sample.stuckEngine.stack.top? = some Sample.stuckFrame := by decide +kernel
  have failed : (Engine.replaceOnStack (.object ⟨11⟩) Sample.stuckEngine).1.map (fun _ => ()) =
      .error (.osrAborted 1 (.notInt32 "undefined")) := by decide +kernel
  have aborted := Computation.eq_error_of_map failed
  have survives : Survives (Engine.replaceOnStack (.object ⟨11⟩) Sample.stuckEngine) := by
    intro f t same
    rw [aborted] at same
    cases same
    rfl
  obtain ⟨area, height, body, expects, -, reports, -⟩ := replacement_abandoned top survives
  obtain ⟨met, highest, unchanged⟩ := reports _ _ _ aborted
  exact ⟨area, height, body, expects, met, highest, _, aborted, unchanged⟩

end Speculation
