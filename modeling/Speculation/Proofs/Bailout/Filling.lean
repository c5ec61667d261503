import Speculation.Bailout.Materialize
import Speculation.Proofs.Bailout.Rebuilding
import Speculation.Proofs.Heap.Growth

/-!
# Filling in what had to wait

After the walk, numbers get their boxes and frames their arguments objects. A slot of a layout says
what its word is in the end (`Slot.Holds`): a value that had to wait is replaced by the number or by
an arguments object, and every other word stays. `Bailout.materialize_ok` says this of all words of
all frames.

Writing words changes nothing else about a frame: its `blank` form, with the words wiped, is the same
as before.
-/

namespace Speculation

/-! ### Numbers and arguments objects in the heap -/

namespace Heap

variable {g h : Heap} {d : Double} {v : Value}

/-- What a new number is: a small integer if possible, and a box otherwise. -/
def IsNumber (h : Heap) (d : Double) (v : Value) : Prop :=
  match smiOfNumber? d with
  | some w => v = w
  | none => h.get? v = some (.number d)

/-- A number can be made: it needs no box, or objects may be allocated. -/
def AdmitsNumber (h : Heap) (d : Double) : Prop :=
  (smiOfNumber? d).isSome ∨ h.allocationAllowed = true

/-- Numbers, strings and the classes of objects stay as they are. -/
structure Retains (g h : Heap) : Prop where
  primitive : ∀ {id : ObjectId} {c : Cell}, g.cell? id = some c → (∀ o, c ≠ .object o) →
    h.cell? id = some c
  object : ∀ {id : ObjectId} {o : JsObject}, g.object? id = some o →
    ∃ o', h.object? id = some o' ∧ o'.objectClass = o.objectClass
  allocation : h.allocationAllowed = g.allocationAllowed

namespace Retains

theorem refl (h : Heap) : h.Retains h := ⟨fun hc _ => hc, fun ho => ⟨_, ho, rfl⟩, rfl⟩

theorem trans {k : Heap} (a : g.Retains h) (b : h.Retains k) : g.Retains k where
  primitive hc hp := b.primitive (a.primitive hc hp) hp
  object ho := by
    obtain ⟨o', ho', class'⟩ := a.object ho
    obtain ⟨o'', ho'', class''⟩ := b.object ho'
    exact ⟨o'', ho'', class''.trans class'⟩
  allocation := b.allocation.trans a.allocation

theorem of_eq (cells : h.cells = g.cells) (allocation : h.noAllocation = g.noAllocation) :
    g.Retains h where
  primitive hc _ := by rwa [cell?, cells]
  object ho := ⟨_, by rwa [object?, cell?, cells], rfl⟩
  allocation := by rw [allocationAllowed, allocationAllowed, allocation]

theorem push (g : Heap) (c : Cell) : g.Retains { g with cells := g.cells.push c } :=
  ⟨fun hc _ => cell?_push hc,
    fun ho => ⟨_, object?_eq_some.mpr (cell?_push (object?_eq_some.mp ho)), rfl⟩, rfl⟩

theorem modifyObject (g : Heap) (id : ObjectId) {f : JsObject → JsObject}
    (same : ∀ o, (f o).objectClass = o.objectClass) : g.Retains (g.modifyObject id f) where
  primitive {j c} hc hp := by
    by_cases hj : id = j
    · subst hj
      have none : g.object? id = none := by
        rw [object?, hc]
        cases c with
        | number _ | string _ _ => rfl
        | object o => exact absurd rfl (hp o)
      rwa [modifyObject_of_none none]
    · rwa [cell?_modifyObject_ne hj]
  object {j o} ho := by
    rw [object?_modifyObject]
    split
    · exact ⟨f o, by rw [ho]; rfl, same o⟩
    · exact ⟨o, ho, rfl⟩
  allocation := rfl

theorem isNumber (r : g.Retains h) (n : g.IsNumber d v) : h.IsNumber d v := by
  unfold IsNumber at *
  split
  · rename_i hs
    rwa [hs] at n
  · rename_i hs
    rw [hs] at n
    cases v with
    | object id => exact r.primitive n (by simp)
    | _ => cases n

theorem isArguments (r : g.Retains h) (a : g.isArguments v = true) : h.isArguments v = true := by
  unfold Heap.isArguments classOf? asObject? at *
  cases v with
  | object id =>
    cases ho : g.object? id with
    | none => simp [ho, Value.objectId?] at a
    | some o =>
      obtain ⟨o', ho', same⟩ := r.object ho
      simpa [ho, ho', same, Value.objectId?] using a
  | _ => simp [Value.objectId?] at a

theorem admits (r : g.Retains h) (a : h.AdmitsNumber d) : g.AdmitsNumber d := by
  rwa [AdmitsNumber, r.allocation] at a

end Retains

/-- An allocation that succeeds adds one cell behind all others. -/
theorem allocate_ok {c : Cell} {id : ObjectId} (ok : allocate c g = (.ok id, h)) :
    g.allocationAllowed = true ∧ id = ⟨g.cells.size⟩ ∧ h = { g with cells := g.cells.push c } := by
  simp only [allocate, Computation.get_bind] at ok
  split at ok
  · cases ok
    exact ⟨‹_›, rfl, rfl⟩
  · cases ok

theorem allocate_of_allowed (c : Cell) (allowed : g.allocationAllowed = true) :
    allocate c g = (.ok ⟨g.cells.size⟩, { g with cells := g.cells.push c }) := by
  simp only [allocate, Computation.get_bind, allowed, if_true]
  rfl

/-- A new number is the double that it was made for, and had to be admitted. -/
theorem newNumber_ok (ok : newNumber d g = (.ok v, h)) :
    h.IsNumber d v ∧ g.Retains h ∧ g.AdmitsNumber d := by
  unfold newNumber at ok
  unfold IsNumber AdmitsNumber
  cases hs : smiOfNumber? d with
  | some w =>
    rw [hs] at ok
    cases ok
    exact ⟨rfl, .refl _, .inl rfl⟩
  | none =>
    rw [hs] at ok
    obtain ⟨id, _, allocated, ok⟩ := Computation.bind_eq_ok ok
    cases ok
    obtain ⟨allowed, rfl, rfl⟩ := allocate_ok allocated
    exact ⟨by simp [get?, Value.objectId?, cell?], .push .., .inr allowed⟩

theorem newNumber_of_admits (a : g.AdmitsNumber d) : ∃ v h, newNumber d g = (.ok v, h) := by
  unfold newNumber
  cases hs : smiOfNumber? d with
  | some w => exact ⟨w, g, rfl⟩
  | none =>
    have allowed : g.allocationAllowed = true := by simpa [AdmitsNumber, hs] using a
    exact ⟨_, _, Computation.bind_ok (allocate_of_allowed (.number d) allowed)⟩

theorem transitionTarget_cells (h : Heap) (s : ShapeId) (t : Descriptor) :
    (h.transitionTarget s t).2.cells = h.cells ∧
      (h.transitionTarget s t).2.noAllocation = h.noAllocation := by
  unfold transitionTarget
  split
  · split <;> exact ⟨rfl, rfl⟩
  · exact ⟨rfl, rfl⟩

theorem addProperty_retains (h : Heap) (id : ObjectId) (name : Name) (v : Value) (a : Attributes) :
    h.Retains (h.addProperty id name v a) := by
  unfold addProperty
  split
  · exact .refl h
  · dsimp only
    split
    · exact .modifyObject h id fun _ => rfl
    · obtain ⟨cells, allocation⟩ := transitionTarget_cells h _ _
      exact (Retains.of_eq cells allocation).trans (.modifyObject _ id fun _ => rfl)

/-- A new arguments object is one, and the rest of the heap is retained. -/
theorem newArguments_ok {callee : Value} {values : List Value} {strict : Bool} {id : ObjectId}
    (ok : newArguments callee values strict g = (.ok id, h)) :
    h.isArguments (.object id) = true ∧ g.Retains h := by
  obtain ⟨_, k, allocated, ok⟩ := Computation.bind_eq_ok ok
  cases ok
  simp only [allocateObject, Computation.get_bind] at allocated
  obtain ⟨-, rfl, hk⟩ := allocate_ok allocated
  have fresh : k.isArguments (.object ⟨g.cells.size⟩) = true := by
    simp [hk, isArguments, classOf?, asObject?, object?, cell?, Value.objectId?]
  have added := addProperty_retains k ⟨g.cells.size⟩ .length (.smi values.length) { dontEnum := true }
  exact ⟨added.isArguments fresh, (hk ▸ Retains.push g _).trans added⟩

/-- Where allocation is allowed, an arguments object can be made. -/
theorem newArguments_of_allowed (callee : Value) (values : List Value) (strict : Bool)
    (allowed : g.allocationAllowed = true) :
    ∃ id h, newArguments callee values strict g = (.ok id, h) :=
  ⟨_, _, Computation.bind_ok (allocate_of_allowed _ allowed)⟩

end Heap

/-! ### Slots by their offset -/

namespace Slot

/-- A value is placed where its slot is, counted from below. -/
theorem mem_placed {below o : Nat} {v : Recovered} {slots : List Slot} :
    (o, v) ∈ placed below slots ↔ below ≤ o ∧ slots.reverse[o - below]? = some (.value v) := by
  -- The slots are listed from the last one written, so the head of the list is the highest
  -- offset.
  induction slots with
  | nil => simp [placed]
  | cons slot slots ih =>
    have last : below ≤ o → slots.length ≤ o - below →
        (slots.reverse ++ [slot])[o - below]? = some (.value v) →
          o = below + slots.length ∧ slot = .value v := by
      intro above beyond found
      rw [List.getElem?_append_right (by simpa using beyond), List.getElem?_singleton] at found
      split at found
      · rename_i same
        rw [List.length_reverse] at same
        exact ⟨by omega, Option.some.inj found⟩
      · cases found
    have later : (o, v) ∈ placed below slots ↔ below ≤ o ∧ o - below < slots.length ∧
        (slot :: slots).reverse[o - below]? = some (.value v) := by
      rw [ih, List.reverse_cons]
      constructor
      · rintro ⟨above, found⟩
        have inside : o - below < slots.reverse.length := (List.getElem?_eq_some_iff.mp found).1
        exact ⟨above, by simpa using inside, by rwa [List.getElem?_append_left inside]⟩
      · rintro ⟨above, inside, found⟩
        rw [List.getElem?_append_left (by simpa using inside)] at found
        exact ⟨above, found⟩
    cases slot with
    | word w =>
      rw [placed, later]
      refine ⟨fun h => ⟨h.1, h.2.2⟩, fun h => ⟨h.1, Nat.lt_of_not_le fun beyond => ?_, h.2⟩⟩
      obtain ⟨-, no⟩ := last h.1 beyond (by simpa using h.2)
      cases no
    | value u =>
      rw [placed, List.mem_cons, later]
      constructor
      · rintro (same | h)
        · cases same
          refine ⟨Nat.le_add_right .., ?_⟩
          rw [Nat.add_sub_cancel_left, List.reverse_cons, List.getElem?_append_right (by simp)]
          simp
        · exact ⟨h.1, h.2.2⟩
      · rintro ⟨above, found⟩
        by_cases inside : o - below < slots.length
        · exact .inr ⟨above, inside, found⟩
        · obtain ⟨rfl, same⟩ := last above (by omega) (by simpa using found)
          cases same
          exact .inl rfl

/-- Slots are filled from above, so offsets fall. -/
theorem pairwise_placed (below : Nat) (slots : List Slot) :
    (placed below slots).Pairwise fun p q => q.1 < p.1 := by
  induction slots with
  | nil => exact .nil
  | cons slot slots ih =>
    cases slot with
    | word w => exact ih
    | value v =>
      refine .cons (fun p hp => ?_) ih
      obtain ⟨above, found⟩ := mem_placed.mp (show (p.1, p.2) ∈ placed below slots from hp)
      have inside := (List.getElem?_eq_some_iff.mp found).1
      rw [List.length_reverse] at inside
      show p.1 < below + slots.length
      omega

/-- What the word of a slot is once nothing waits any more. -/
def Holds (h : Heap) : Slot → Word → Prop
  | word x, w => w = x
  | value (.tagged v), w => w = .tagged v
  | value (.number d), w => ∃ v, w = .tagged v ∧ h.IsNumber d v
  | value (.arguments _), w => ∃ v, w = .tagged v ∧ h.isArguments v = true

end Slot

namespace Layout

/-- The slot at an offset. -/
def at? (l : Layout) (o : Nat) : Option Slot := l.slots.reverse[o]?

/-- The slots are listed from the top down. -/
theorem at?_down {l : Layout} {k : Nat} (inside : k < l.slots.length) :
    l.at? (l.slots.length - 1 - k) = l.slots[k]? := by
  rw [at?, List.getElem?_reverse (by omega)]
  congr 1
  omega

/-- A fixed word. -/
def fixed (l : Layout) : FixedSlot → Word
  | .callerPc => l.callerPc
  | .callerFp => l.callerFp
  | .context => l.context
  | .function => l.function

/-- Between parameters and body stands the fixed part. -/
theorem at?_fixed (l : Layout) (slot : FixedSlot) :
    l.at? (l.body.length + fixedSlots - 1 - slot.depth) = some (.word (l.fixed slot)) := by
  have parts : l.slots.reverse = l.body.reverse ++ ([.word l.function, .word l.context,
      .word l.callerFp, .word l.callerPc] ++ l.parameters.reverse) := by
    simp [slots, upper]
  have behind : l.body.reverse.length ≤ l.body.length + fixedSlots - 1 - slot.depth := by
    rw [List.length_reverse]
    cases slot <;> simp [FixedSlot.depth, fixedSlots]
  rw [at?, parts, List.getElem?_append_right behind]
  have place : l.body.length + fixedSlots - 1 - slot.depth - l.body.reverse.length =
      fixedSlots - 1 - slot.depth := by
    rw [List.length_reverse]
    have := slot.depth_lt
    omega
  rw [place]
  cases slot <;> rfl

/-- The words of a frame are the contents of its slots. -/
theorem words_getElem? {l : Layout} {f : Frame} (words : f.down = l.words) (o : Nat) :
    f.words[o]? = (l.at? o).map Slot.content := by
  have same : f.words = (l.slots.map Slot.content).reverse := by
    rw [← List.reverse_reverse f.words]
    exact congrArg List.reverse words
  rw [same, ← List.map_reverse, List.getElem?_map, at?]

variable {ls : List Layout}

/-- The values of frames with these layouts, each with the index of its frame and with its offset. The
first frame has index `i`. -/
def placedFrom (i : Nat) (ls : List Layout) : List (Nat × Nat × Recovered) :=
  (ls.zipIdx i).flatMap fun p => p.1.placed.map (Prod.mk p.2)

theorem placedFrom_cons (i : Nat) (l : Layout) (ls : List Layout) :
    placedFrom i (l :: ls) = l.placed.map (Prod.mk i) ++ placedFrom (i + 1) ls := by
  simp [placedFrom]

/-- A value is placed in the frame and at the offset of its slot. -/
theorem mem_placedFrom {i j o : Nat} {v : Recovered} : (j, o, v) ∈ placedFrom i ls ↔ ∃ l, i ≤ j ∧
    ls[j - i]? = some l ∧ l.at? o = some (.value v) := by
  rw [placedFrom, List.mem_flatMap]
  constructor
  · rintro ⟨⟨l, k⟩, hl, hv⟩
    obtain ⟨⟨o', v'⟩, placed, same⟩ := List.mem_map.mp hv
    cases same
    obtain ⟨above, found⟩ := List.mk_mem_zipIdx_iff_le_and_getElem?_sub.mp hl
    exact ⟨l, above, found, (Slot.mem_placed.mp placed).2⟩
  · rintro ⟨l, above, found, slot⟩
    refine ⟨(l, j), List.mk_mem_zipIdx_iff_le_and_getElem?_sub.mpr ⟨above, found⟩, ?_⟩
    exact List.mem_map.mpr ⟨(o, v), Slot.mem_placed.mpr ⟨Nat.zero_le _, slot⟩, rfl⟩

/-- No two values stand in the same word. -/
theorem pairwise_placedFrom (i : Nat) (ls : List Layout) :
    (placedFrom i ls).Pairwise fun p q => p.1 = q.1 → p.2.1 ≠ q.2.1 := by
  induction ls generalizing i with
  | nil => exact .nil
  | cons l ls ih =>
    rw [placedFrom_cons, List.pairwise_append, List.pairwise_map]
    refine ⟨?_, ih (i + 1), ?_⟩
    · refine (Slot.pairwise_placed 0 l.slots).imp ?_
      intro p q less _
      exact Nat.ne_of_gt less
    · rintro p hp ⟨j, o, v⟩ hq same
      obtain ⟨x, -, rfl⟩ := List.mem_map.mp hp
      obtain ⟨-, above, -⟩ := mem_placedFrom.mp hq
      change i = j at same
      omega

/-- The records of numbers are those of the values placed that are numbers. -/
theorem numbersFrom_eq (i : Nat) (ls : List Layout) :
    numbersFrom i ls = (placedFrom i ls).filterMap fun p => DeferredNumber.of? p.1 p.2 := by
  simp only [numbersFrom, placedFrom, List.filterMap_flatMap, List.filterMap_map]
  rfl

/-- The records of arguments are those of the values placed that are arguments. -/
theorem argumentsFrom_eq (i : Nat) (ls : List Layout) :
    argumentsFrom i ls = (placedFrom i ls).filterMap fun p => DeferredArguments.of? p.1 p.2 := by
  simp only [argumentsFrom, placedFrom, List.filterMap_flatMap, List.filterMap_map]
  rfl

/-- There is a record of a number wherever a slot holds one that waits. -/
theorem mem_numbersFrom {i : Nat} {d : DeferredNumber} : d ∈ numbersFrom i ls ↔ ∃ l, i ≤ d.frame ∧
    ls[d.frame - i]? = some l ∧ l.at? d.offset = some (.value (.number d.value)) := by
  rw [numbersFrom_eq, List.mem_filterMap, ← mem_placedFrom]
  constructor
  · rintro ⟨⟨j, o, v⟩, placed, made⟩
    cases v <;> cases made
    exact placed
  · intro placed
    exact ⟨_, placed, rfl⟩

/-- There is a record of arguments wherever a slot holds some that wait. -/
theorem mem_argumentsFrom {i : Nat} {d : DeferredArguments} : d ∈ argumentsFrom i ls ↔ ∃ l,
    i ≤ d.frame ∧ ls[d.frame - i]? = some l ∧
      l.at? d.offset = some (.value (.arguments d.values)) := by
  rw [argumentsFrom_eq, List.mem_filterMap, ← mem_placedFrom]
  constructor
  · rintro ⟨⟨j, o, v⟩, placed, made⟩
    cases v <;> cases made
    exact placed
  · intro placed
    exact ⟨_, placed, rfl⟩

/-- A number that waits for a slot is what the slot stands for. -/
theorem at?_of_number {i o : Nat} {l : Layout} {d : DeferredNumber} (hl : ls[i]? = some l)
    (hd : d ∈ numbersFrom 0 ls) (frame : d.frame = i) (offset : d.offset = o) :
    l.at? o = some (.value (.number d.value)) := by
  obtain ⟨l', -, hl', slot⟩ := mem_numbersFrom.mp hd
  subst frame offset
  rw [Nat.sub_zero, hl] at hl'
  cases hl'
  exact slot

theorem at?_of_arguments {i o : Nat} {l : Layout} {d : DeferredArguments} (hl : ls[i]? = some l)
    (hd : d ∈ argumentsFrom 0 ls) (frame : d.frame = i) (offset : d.offset = o) :
    l.at? o = some (.value (.arguments d.values)) := by
  obtain ⟨l', -, hl', slot⟩ := mem_argumentsFrom.mp hd
  subst frame offset
  rw [Nat.sub_zero, hl] at hl'
  cases hl'
  exact slot

/-- No two numbers wait for the same word. -/
theorem pairwise_numbersFrom (i : Nat) (ls : List Layout) :
    (numbersFrom i ls).Pairwise fun c d => c.frame = d.frame → c.offset ≠ d.offset := by
  rw [numbersFrom_eq]
  refine (pairwise_placedFrom i ls).filterMap _ fun p q apart c hc d hd => ?_
  obtain ⟨j, o, v⟩ := p
  obtain ⟨j', o', v'⟩ := q
  cases v <;> cases hc
  cases v' <;> cases hd
  exact apart

end Layout

/-! ### What stays outside the heap -/

namespace Engine

variable {e e' k : Engine} {α β : Type}

/-- Nothing but the heap and the trace has changed. -/
def Keeps (e e' : Engine) : Prop := e' = { e with heap := e'.heap, trace := e'.trace }

theorem Keeps.refl (e : Engine) : e.Keeps e := rfl

theorem Keeps.trans (a : e.Keeps e') (b : e'.Keeps k) : e.Keeps k := by
  unfold Keeps at *
  rw [b, a]

theorem Keeps.stack (a : e.Keeps e') : e'.stack = e.stack := by
  unfold Keeps at a
  rw [a]

/-- An operation that changes nothing but the heap and the trace, also if it fails. -/
structure Quiet (m : Action α) : Prop where
  keeps : ∀ e : Engine, e.Keeps (m e).2

namespace Quiet

theorem bind {m : Action α} {f : α → Action β} (hm : Quiet m) (hf : ∀ x, Quiet (f x)) :
    Quiet (m >>= f) :=
  ⟨fun e => Computation.bind_rel Keeps.trans (hm.keeps e) fun x _ => (hf x).keeps _⟩

end Quiet

end Engine

/-! ### Words of the frames -/

namespace Frame

/-- A frame with its words wiped. -/
def blank (f : Frame) : Frame :=
  { f with words := List.replicate f.words.length .zap, fits := by simpa using f.fits }

@[simp] theorem blank_write (f : Frame) (o : Nat) (w : Word) : (f.write o w).blank = f.blank := by
  simp [blank, write]

theorem outline_blank (f : Frame) : f.blank.outline = f.outline := by
  simp [outline, blank, size]

/-- Frames that differ in their words only have the same outline. -/
theorem outline_eq {f g : Frame} (same : g.blank = f.blank) : g.outline = f.outline := by
  rw [← outline_blank g, same, outline_blank]

end Frame

namespace Bailout

variable {b b' c : Bailout} {e e' k : Engine}

/-- The word at an offset of a frame. -/
def word? (b : Bailout) (i o : Nat) : Option Word := (b.frames[i]?).bind fun f => f.words[o]?

/-- Only words of frames were written, and objects made. -/
structure Refills (b b' : Bailout) (e e' : Engine) : Prop where
  bailout : b' = { b with frames := b'.frames }
  blank : b'.frames.map Frame.blank = b.frames.map Frame.blank
  engine : e.Keeps e'
  retains : e.heap.Retains e'.heap

theorem Refills.refl (b : Bailout) (e : Engine) : Refills b b e e :=
  ⟨rfl, rfl, rfl, .refl _⟩

theorem Refills.trans (r : Refills b b' e e') (r' : Refills b' c e' k) : Refills b c e k where
  bailout := by rw [r'.bailout, r.bailout]
  blank := r'.blank.trans r.blank
  engine := r.engine.trans r'.engine
  retains := r.retains.trans r'.retains

/-- Filling in records adds no words and takes none away. -/
theorem word?_isSome_of_refills (r : Refills b b' e e') (i o : Nat) :
    (b'.word? i o).isSome = (b.word? i o).isSome := by
  have size (c : Bailout) :
      (c.word? i o).isSome = ((c.frames.map Frame.blank)[i]?.bind fun f => f.words[o]?).isSome := by
    rw [word?, List.getElem?_map]
    cases c.frames[i]? with
    | none => rfl
    | some f =>
      by_cases inside : o < f.words.length
      · simp [Frame.blank, inside]
      · simp [Frame.blank, inside]
  rw [size, size, r.blank]

theorem putValue_blank (b : Bailout) (i o : Nat) (v : Value) :
    (b.putValue i o v).frames.map Frame.blank = b.frames.map Frame.blank := by
  apply List.ext_getElem?
  intro j
  simp only [putValue, List.getElem?_map, List.getElem?_modify]
  cases b.frames[j]? with
  | none => rfl
  | some f =>
    by_cases same : i = j
    · simp [same]
    · simp [same]

/-- A write changes the word that it is for. -/
theorem word?_putValue (b : Bailout) (i o j p : Nat) (v : Value) :
    (b.putValue i o v).word? j p =
      if i = j ∧ o = p then (b.word? j p).map fun _ => .tagged v else b.word? j p := by
  simp only [word?, putValue, List.getElem?_modify]
  cases b.frames[j]? with
  | none => simp
  | some f =>
    by_cases frame : i = j
    · by_cases offset : o = p
      · subst frame offset
        simp only [if_true, and_self, Option.map_eq_map, Option.map_some, Option.bind_some,
          Frame.words_write, List.getElem?_set']
        rfl
      · simp [frame, offset, Frame.words_write, List.getElem?_set_ne]
    · simp [frame]

/-- A word that the others were not written over. -/
theorem word?_putValue_self {i o : Nat} (inside : (b.word? i o).isSome) (v : Value) :
    (b.putValue i o v).word? i o = some (.tagged v) := by
  obtain ⟨w, hw⟩ := Option.isSome_iff_exists.mp inside
  simp [word?_putValue, hw]

theorem word?_putValue_ne {i o j p : Nat} (other : i = j → o ≠ p) (v : Value) :
    (b.putValue i o v).word? j p = b.word? j p := by
  rw [word?_putValue, if_neg fun same => other same.1 same.2]

/-! ### Boxing numbers -/

/-- A number that waits is made, and written to its word. -/
theorem fillNumber_new {d : DeferredNumber} (h : b.fillNumber d e = (.ok b', e')) :
    ∃ v, Heap.newNumber d.value e.heap = (.ok v, e'.heap) ∧ b' = b.putValue d.frame d.offset v ∧
      e.Keeps e' := by
  obtain ⟨v, e₁, boxed, h⟩ := Computation.bind_eq_ok h
  obtain ⟨_, e₂, said, h⟩ := Computation.bind_eq_ok h
  cases h
  rcases new : Heap.newNumber d.value e.heap with ⟨made, heap⟩
  simp only [Engine.onHeap, new] at boxed
  cases boxed
  rw [say_ok said]
  exact ⟨v, rfl, rfl, rfl⟩

/-- A record of a number gets a number of its value. -/
theorem fillNumber_ok {d : DeferredNumber} (h : b.fillNumber d e = (.ok b', e')) :
    Refills b b' e e' ∧ e.heap.AdmitsNumber d.value ∧
      ∃ v, b' = b.putValue d.frame d.offset v ∧ e'.heap.IsNumber d.value v := by
  obtain ⟨v, new, rfl, engine⟩ := fillNumber_new h
  obtain ⟨number, retains, admits⟩ := Heap.newNumber_ok new
  exact ⟨⟨rfl, putValue_blank .., engine, retains⟩, admits, v, rfl, number⟩

theorem fillNumbers_refills {ds : List DeferredNumber} (h : b.fillNumbers ds e = (.ok b', e')) :
    Refills b b' e e' := by
  induction ds generalizing b e with
  | nil =>
    cases h
    exact .refl ..
  | cons d ds ih =>
    obtain ⟨c, e₁, first, h⟩ := Computation.bind_eq_ok h
    exact (fillNumber_ok first).1.trans (ih h)

/-- Numbers that wait for different words all get there, and no other word changes. -/
theorem fillNumbers_ok {ds : List DeferredNumber} (h : b.fillNumbers ds e = (.ok b', e'))
    (apart : ds.Pairwise fun c d => c.frame = d.frame → c.offset ≠ d.offset) :
    (∀ d ∈ ds, e.heap.AdmitsNumber d.value) ∧
      (∀ d ∈ ds, (b.word? d.frame d.offset).isSome → ∃ v,
        b'.word? d.frame d.offset = some (.tagged v) ∧ e'.heap.IsNumber d.value v) ∧
      ∀ i o, (∀ d ∈ ds, d.frame = i → d.offset ≠ o) → b'.word? i o = b.word? i o := by
  induction ds generalizing b e with
  | nil =>
    cases h
    exact ⟨by simp, by simp, fun _ _ _ => rfl⟩
  | cons d ds ih =>
    obtain ⟨c, e₁, first, h⟩ := Computation.bind_eq_ok h
    obtain ⟨here, admits, v, rfl, number⟩ := fillNumber_ok first
    obtain ⟨apart, later⟩ := List.pairwise_cons.mp apart
    have refills := fillNumbers_refills h
    obtain ⟨admitted, filled, kept⟩ := ih h later
    refine ⟨?_, ?_, ?_⟩
    · rintro x (_ | ⟨_, hx⟩)
      · exact admits
      · exact here.retains.admits (admitted x hx)
    · rintro x (_ | ⟨_, hx⟩) inside
      · refine ⟨v, ?_, refills.retains.isNumber number⟩
        rw [kept _ _ fun x hx same => (apart x hx same.symm).symm]
        exact word?_putValue_self inside v
      · exact filled x hx (by rwa [word?_isSome_of_refills here])
    · intro i o other
      rw [kept i o fun x hx => other x (.tail _ hx)]
      exact word?_putValue_ne (other d (.head _)) v

theorem say_apply (b : Bailout) (channel : Channel) (text : String) (e : Engine) :
    ∃ e', b.say channel text e = (.ok (), e') := by
  unfold say
  split
  · exact ⟨_, rfl⟩
  · exact ⟨_, rfl⟩

theorem fillNumbers_of_admits {ds : List DeferredNumber}
    (admitted : ∀ d ∈ ds, e.heap.AdmitsNumber d.value) :
    ∃ b' e', b.fillNumbers ds e = (.ok b', e') := by
  induction ds generalizing b e with
  | nil => exact ⟨b, e, rfl⟩
  | cons d ds ih =>
    obtain ⟨v, heap, new⟩ := Heap.newNumber_of_admits (admitted d (.head _))
    obtain ⟨c, e₁, first⟩ : ∃ c e₁, b.fillNumber d e = (.ok c, e₁) := by
      have boxed : Engine.onHeap (Heap.newNumber d.value) e = (.ok v, { e with heap }) := by
        simp [Engine.onHeap, new]
      obtain ⟨e₁, said⟩ := b.say_apply .bailout _ { e with heap }
      exact ⟨_, e₁, (Computation.bind_ok boxed).trans (Computation.bind_ok said)⟩
    obtain ⟨here, -⟩ := fillNumber_ok first
    have admitted' : ∀ x ∈ ds, e₁.heap.AdmitsNumber x.value := fun x hx => by
      rw [Heap.AdmitsNumber, here.retains.allocation]
      exact admitted x (.tail _ hx)
    obtain ⟨b', e', rest⟩ := ih admitted'
    exact ⟨b', e', (Computation.bind_ok first).trans rest⟩

/-! ### Arguments objects -/

/-- The values of an arguments object: the actual arguments, if the call adapted their number. -/
def argumentValues (b : Bailout) (d : DeferredArguments) : Except Fault (List Value) :=
  match b.adaptorBefore? d.frame with
  | some a => a.parameterValues
  | none => .ok d.values

/-- A new arguments object is made from the words of the frame, whatever is traced. -/
theorem newArgumentsFor_eq (b : Bailout) (d : DeferredArguments) : ∃ text : List Value → String,
    b.newArgumentsFor d = (do
      let values ← (liftM (b.argumentValues d) : Engine.Action (List Value))
      let id ← Engine.onHeap
        (Heap.newArguments ((b.frame d.frame).function.getD .undefined) values false)
      b.say .bailout (text values)
      return .object id) := by
  unfold newArgumentsFor argumentValues
  cases b.adaptorBefore? d.frame with
  | some a => exact ⟨_, rfl⟩
  | none => exact ⟨_, rfl⟩

/-- The function of a frame, as its arguments object names it. -/
def callee (b : Bailout) (i : Nat) : Value := (b.frame i).function.getD .undefined

/-- The object is made for the callee of the frame and holds the values read there. -/
theorem newArgumentsFor_new {d : DeferredArguments} {v : Value}
    (h : b.newArgumentsFor d e = (.ok v, e')) : ∃ values id, b.argumentValues d = .ok values ∧
      Heap.newArguments (b.callee d.frame) values false e.heap = (.ok id, e'.heap) ∧
      v = .object id ∧ e.Keeps e' := by
  obtain ⟨text, parts⟩ := b.newArgumentsFor_eq d
  rw [parts] at h
  obtain ⟨values, e₁, found, h⟩ := Computation.bind_eq_ok h
  obtain rfl : e = e₁ := congrArg Prod.snd found
  obtain ⟨id, e₁, made, h⟩ := Computation.bind_eq_ok h
  obtain ⟨_, e₂, said, h⟩ := Computation.bind_eq_ok h
  cases h
  rcases new : Heap.newArguments ((b.frame d.frame).function.getD .undefined) values false e.heap
    with ⟨made', heap⟩
  simp only [Engine.onHeap, new] at made
  cases made
  rw [say_ok said]
  exact ⟨values, id, congrArg Prod.fst found, new, rfl, rfl⟩

theorem newArgumentsFor_ok {d : DeferredArguments} {v : Value}
    (h : b.newArgumentsFor d e = (.ok v, e')) :
    e.Keeps e' ∧ e.heap.Retains e'.heap ∧ e'.heap.isArguments v = true := by
  obtain ⟨values, id, -, new, rfl, engine⟩ := newArgumentsFor_new h
  obtain ⟨arguments, retains⟩ := Heap.newArguments_ok new
  exact ⟨engine, retains, arguments⟩

/-- One arguments object gets to its word; `made` has only arguments objects. -/
theorem fillArguments_cons {d : DeferredArguments} {ds : List DeferredArguments}
    {made : Table Nat Value} (h : b.fillArguments made (d :: ds) e = (.ok b', e'))
    (objects : ∀ i v, made.get? i = some v → e.heap.isArguments v = true) : ∃ v made' e₁,
      Refills b (b.putValue d.frame d.offset v) e e₁ ∧ e₁.heap.isArguments v = true ∧
      (∀ i u, made'.get? i = some u → e₁.heap.isArguments u = true) ∧
      (b.putValue d.frame d.offset v).fillArguments made' ds e₁ = (.ok b', e') := by
  rw [fillArguments] at h
  cases known : made.get? d.frame with
  | some v =>
    rw [known] at h
    exact ⟨v, made, e, ⟨rfl, putValue_blank .., rfl, .refl _⟩, objects _ v known, objects, h⟩
  | none =>
    rw [known] at h
    obtain ⟨v, e₁, new, h⟩ := Computation.bind_eq_ok h
    obtain ⟨engine, retains, object⟩ := newArgumentsFor_ok new
    refine ⟨v, _, e₁, ⟨rfl, putValue_blank .., engine, retains⟩, object, fun i u hu => ?_, h⟩
    rw [Table.get?_insert] at hu
    split at hu
    · cases hu
      exact object
    · exact retains.isArguments (objects i u hu)

/-- All arguments objects get to their words, and no other word changes. -/
theorem fillArguments_ok {ds : List DeferredArguments} {made : Table Nat Value}
    (h : b.fillArguments made ds e = (.ok b', e'))
    (objects : ∀ i v, made.get? i = some v → e.heap.isArguments v = true) :
    Refills b b' e e' ∧
      (∀ d ∈ ds, (b.word? d.frame d.offset).isSome → ∃ v,
        b'.word? d.frame d.offset = some (.tagged v) ∧ e'.heap.isArguments v = true) ∧
      ∀ i o, (∀ d ∈ ds, d.frame = i → d.offset ≠ o) → b'.word? i o = b.word? i o := by
  -- By induction on the records, carrying that every object made so far is an arguments object.
  induction ds generalizing b e made with
  | nil =>
    cases h
    exact ⟨.refl .., by simp, fun _ _ _ => rfl⟩
  | cons d ds ih =>
    obtain ⟨v, made', e₁, here, object, objects', h⟩ := fillArguments_cons h objects
    obtain ⟨refills, filled, kept⟩ := ih h objects'
    refine ⟨here.trans refills, ?_, ?_⟩
    · rintro x (_ | ⟨_, hx⟩) inside
      · -- A word may be written again, but only with an arguments object.
        by_cases again : ∃ y ∈ ds, y.frame = d.frame ∧ y.offset = d.offset
        · obtain ⟨y, hy, frame, offset⟩ := again
          rw [← frame, ← offset] at inside ⊢
          exact filled y hy (by rwa [word?_isSome_of_refills here])
        · refine ⟨v, ?_, refills.retains.isArguments object⟩
          rw [kept _ _ fun y hy frame offset => again ⟨y, hy, frame, offset⟩]
          exact word?_putValue_self inside v
      · exact filled x hx (by rwa [word?_isSome_of_refills here])
    · intro i o other
      rw [kept i o fun x hx => other x (.tail _ hx)]
      exact word?_putValue_ne (other d (.head _)) v

/-! ### Materializing -/

/-- The steps of materializing. -/
theorem materialize_steps (h : b.materialize e = (.ok b', e')) : ∃ c k,
    b.fillNumbers b.numbers e = (.ok c, k) ∧ c.fillArguments {} b.arguments k = (.ok b', e') := by
  unfold materialize at h
  split at h
  · cases h
  · exact Computation.bind_eq_ok h

/-- Materializing only writes to words that wait. -/
theorem materialize_refills (h : b.materialize e = (.ok b', e')) : Refills b b' e e' := by
  obtain ⟨c, k, boxed, made⟩ := materialize_steps h
  exact (fillNumbers_refills boxed).trans
    (fillArguments_ok made (by simp [Table.get?, Table.find?])).1

/-- The frames of a bailout have these layouts, and what waits is what they cannot hold yet. -/
structure LaidOut (b : Bailout) (ls : List Layout) : Prop where
  length : b.frames.length = ls.length
  words : ∀ (i : Nat) f l, b.frames[i]? = some f → ls[i]? = some l → f.down = l.words
  numbers : b.numbers = Layout.numbersFrom 0 ls
  arguments : b.arguments = Layout.argumentsFrom 0 ls

/-- What a walk over the recipe has built is laid out by its records. -/
theorem LaidOut.of_walked {b : Bailout} {ls : List Layout} {s : Scene} {bytes : List UInt8}
    {count : UInt32} {records : List FrameRecord}
    (w : Walked s bytes count records ls b.frames b.numbers b.arguments) : b.LaidOut ls where
  length := by rw [w.follows.length.1, w.follows.length.2]
  words i f l hf hl := by
    obtain ⟨r, l', -, hl', rebuilt⟩ := w.follows.rebuilt hf
    rw [hl] at hl'
    cases hl'
    exact rebuilt.words
  numbers := w.numbers
  arguments := w.arguments

end Bailout

/-- A frame `g` that was `f` before its slots got what they hold. -/
structure Layout.Filled (l : Layout) (h : Heap) (f g : Frame) : Prop where
  blank : g.blank = f.blank
  holds : ∀ (o : Nat) slot, l.at? o = some slot → ∃ w, g.words[o]? = some w ∧ slot.Holds h w

namespace Bailout

variable {b b' c : Bailout} {e e' k : Engine} {ls : List Layout}

/-- Every slot of a bailout that was materialized holds what it should. -/
theorem holds_of_fill {i o : Nat} {l : Layout} {slot : Slot} (laid : b.LaidOut ls)
    (boxed : b.fillNumbers b.numbers e = (.ok c, k))
    (made : c.fillArguments {} b.arguments k = (.ok b', e')) (hl : ls[i]? = some l)
    (hslot : l.at? o = some slot) : ∃ w, b'.word? i o = some w ∧ slot.Holds e'.heap w := by
  have refills := fillNumbers_refills boxed
  obtain ⟨-, boxed, kept⟩ := fillNumbers_ok boxed (by
    rw [laid.numbers]
    exact Layout.pairwise_numbersFrom 0 ls)
  obtain ⟨refills', made, kept'⟩ := fillArguments_ok made (by simp [Table.get?, Table.find?])
  have word : b.word? i o = some slot.content := by
    have inside : i < b.frames.length := by
      rw [laid.length]
      exact (List.getElem?_eq_some_iff.mp hl).1
    have hf : b.frames[i]? = some b.frames[i] := List.getElem?_eq_getElem inside
    rw [word?, hf, Option.bind_some, Layout.words_getElem? (laid.words i _ l hf hl), hslot]
    rfl
  have inside : (b.word? i o).isSome := by simp [word]
  -- A word is written only if its slot waits.
  have noNumber (no : ∀ d, slot ≠ .value (.number d)) : c.word? i o = some slot.content := by
    rw [kept i o fun d hd frame offset => ?_, word]
    rw [laid.numbers] at hd
    have waits := Layout.at?_of_number hl hd frame offset
    rw [hslot] at waits
    exact no _ (Option.some.inj waits)
  have noArguments (no : ∀ vs, slot ≠ .value (.arguments vs)) : b'.word? i o = c.word? i o := by
    refine kept' i o fun d hd frame offset => ?_
    rw [laid.arguments] at hd
    have waits := Layout.at?_of_arguments hl hd frame offset
    rw [hslot] at waits
    exact no _ (Option.some.inj waits)
  cases slot with
  | word w => exact ⟨w, by rw [noArguments (by simp), noNumber (by simp)]; rfl, rfl⟩
  | value v =>
    cases v with
    | tagged v => exact ⟨.tagged v, by rw [noArguments (by simp), noNumber (by simp)]; rfl, rfl⟩
    | number d =>
      have waits : (⟨i, o, d⟩ : DeferredNumber) ∈ b.numbers := by
        rw [laid.numbers]
        exact Layout.mem_numbersFrom.mpr ⟨l, Nat.zero_le _, hl, hslot⟩
      obtain ⟨v, hv, number⟩ := boxed _ waits inside
      exact ⟨.tagged v, by rw [noArguments (by simp)]; exact hv, v, rfl,
        refills'.retains.isNumber number⟩
    | arguments vs =>
      have waits : (⟨i, o, vs⟩ : DeferredArguments) ∈ b.arguments := by
        rw [laid.arguments]
        exact Layout.mem_argumentsFrom.mpr ⟨l, Nat.zero_le _, hl, hslot⟩
      obtain ⟨v, hv, object⟩ := made _ waits (by rwa [word?_isSome_of_refills refills])
      exact ⟨.tagged v, hv, v, rfl, object⟩

/-- **After materializing, every slot holds what it should.** All numbers that need a box got one. -/
theorem materialize_ok (h : b.materialize e = (.ok b', e')) (laid : b.LaidOut ls) :
    (∀ d ∈ b.numbers, e.heap.AdmitsNumber d.value) ∧
      ∀ (i : Nat) f l, b.frames[i]? = some f → ls[i]? = some l →
        ∃ g, b'.frames[i]? = some g ∧ l.Filled e'.heap f g := by
  obtain ⟨c, k, boxed, made⟩ := materialize_steps h
  obtain ⟨admitted, -⟩ := fillNumbers_ok boxed (by
    rw [laid.numbers]
    exact Layout.pairwise_numbersFrom 0 ls)
  refine ⟨admitted, fun i f l hf hl => ?_⟩
  have same : (b'.frames[i]?).map Frame.blank = some f.blank := by
    rw [← List.getElem?_map, (materialize_refills h).blank, List.getElem?_map, hf]
    rfl
  obtain ⟨g, hg, blank⟩ := Option.map_eq_some_iff.mp same
  refine ⟨g, hg, blank, fun o slot hslot => ?_⟩
  have found := holds_of_fill laid boxed made hl hslot
  rwa [word?, hg, Option.bind_some] at found

end Bailout

end Speculation
