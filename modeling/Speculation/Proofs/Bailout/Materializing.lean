import Speculation.Proofs.Bailout.Leaving
import Speculation.Proofs.Bailout.Placeholders
import Speculation.Proofs.Heap.Additions

/-!
# What materializing makes

Numbers are boxed and arguments objects made in the order in which they were put off, and each is
written to a word that may be read again later: the arguments object of a function takes its values from
the adaptor frame before it. `records_filled` says what comes of this. No two records name the same word,
each number gets what `newNumber` makes of it, all records of a frame share one new arguments object,
and no other word changes.

Objects are only added (`Heap.Gains`), so what an object was when it was made it still is in the end.
Records are listed frame by frame, so an adaptor frame has its last form when it is read.
-/

namespace Speculation

/-- Whatever a bailout does, a well-formed heap only gains objects. -/
theorem Engine.gains_tolerates (rules : Rules) :
    Tolerates fun e e' => e.heap.Obeys rules → Heap.Gains rules e.heap e'.heap where
  refl _ := .refl
  trans a b valid := (a valid).trans (b (a valid).obeys)
  trace _ _ := .refl
  newNumber _ d valid := Heap.newNumber_gains valid d
  newArguments _ callee values valid := Heap.newArguments_gains valid callee values

/-! ### Records -/

namespace Layout

variable {ls : List Layout}

/-- Values are listed frame by frame. -/
theorem sorted_placedFrom (i : Nat) (ls : List Layout) :
    (placedFrom i ls).Pairwise fun p q => p.1 ≤ q.1 := by
  induction ls generalizing i with
  | nil => exact .nil
  | cons l ls ih =>
    rw [placedFrom_cons, List.pairwise_append, List.pairwise_map]
    refine ⟨List.pairwise_of_forall fun _ _ => Nat.le_refl _, ih (i + 1), ?_⟩
    rintro p hp ⟨j, o, v⟩ hq
    obtain ⟨x, -, rfl⟩ := List.mem_map.mp hp
    obtain ⟨-, above, -⟩ := mem_placedFrom.mp hq
    exact Nat.le_of_succ_le above

theorem sorted_argumentsFrom (i : Nat) (ls : List Layout) :
    (argumentsFrom i ls).Pairwise fun c d => c.frame ≤ d.frame := by
  rw [argumentsFrom_eq]
  refine (sorted_placedFrom i ls).filterMap _ fun p q le c hc d hd => ?_
  rwa [(DeferredArguments.of?_eq_some _ _ _ hc).1, (DeferredArguments.of?_eq_some _ _ _ hd).1]

/-- Records of one sort name different words. -/
theorem nodup_records {α : Type} {record : Nat → Nat × Recovered → Option α} {frame offset : α → Nat}
    (named : ∀ j p d, record j p = some d → frame d = j ∧ offset d = p.1) (i : Nat) (ls : List Layout) :
    (((placedFrom i ls).filterMap fun p => record p.1 p.2).map fun d => (frame d, offset d)).Nodup := by
  rw [List.Nodup, List.pairwise_map]
  refine (pairwise_placedFrom i ls).filterMap _ fun p q apart c hc d hd same => ?_
  obtain ⟨hp, ho⟩ := named _ _ _ hc
  obtain ⟨hq, ho'⟩ := named _ _ _ hd
  obtain ⟨frames, offsets⟩ := Prod.mk.inj same
  exact apart (by rw [← hp, ← hq, frames]) (by rw [← ho, ← ho', offsets])

end Layout

namespace Bailout

variable {rules : Rules} {b b' c : Bailout} {e e' k : Engine} {ls : List Layout}

/-- The words that records are about: indices of frames and offsets. -/
def places (b : Bailout) : List (Nat × Nat) :=
  (b.numbers.map fun d => (d.frame, d.offset)) ++ b.arguments.map fun d => (d.frame, d.offset)

/-- A place waits if there is a record of a number or of arguments for it. -/
theorem mem_places {i o : Nat} : (i, o) ∈ b.places ↔
    (∃ d ∈ b.numbers, d.frame = i ∧ d.offset = o) ∨ ∃ d ∈ b.arguments, d.frame = i ∧ d.offset = o := by
  simp [places]

/-- **Records name different words**, and words of the frames. -/
theorem LaidOut.nodup_places (laid : b.LaidOut ls) : b.places.Nodup := by
  rw [places, laid.numbers, laid.arguments, List.nodup_append]
  refine ⟨?_, ?_, ?_⟩
  · rw [Layout.numbersFrom_eq]
    exact Layout.nodup_records DeferredNumber.of?_eq_some 0 ls
  · rw [Layout.argumentsFrom_eq]
    exact Layout.nodup_records DeferredArguments.of?_eq_some 0 ls
  · rintro ⟨i, o⟩ hp _ hq rfl
    obtain ⟨d, hd, same⟩ := List.mem_map.mp hp
    obtain ⟨d', hd', same'⟩ := List.mem_map.mp hq
    cases same
    obtain ⟨frame, offset⟩ := Prod.mk.inj same'
    obtain ⟨l, -, hl, slot⟩ := Layout.mem_numbersFrom.mp hd
    rw [Nat.sub_zero] at hl
    rw [Layout.at?_of_arguments hl hd' frame offset] at slot
    cases slot

/-- Every place that waits is inside of its frame. -/
theorem LaidOut.word?_of_mem_places (laid : b.LaidOut ls) {i o : Nat} (h : (i, o) ∈ b.places) :
    (b.word? i o).isSome := by
  have waits : ∃ v, Layout.slotAt? ls i o = some (.value v) := by
    rcases mem_places.mp h with ⟨d, hd, rfl, rfl⟩ | ⟨d, hd, rfl, rfl⟩
    · rw [laid.numbers] at hd
      obtain ⟨l, -, hl, slot⟩ := Layout.mem_numbersFrom.mp hd
      exact ⟨_, Option.bind_eq_some_iff.mpr ⟨l, hl, slot⟩⟩
    · rw [laid.arguments] at hd
      obtain ⟨l, -, hl, slot⟩ := Layout.mem_argumentsFrom.mp hd
      exact ⟨_, Option.bind_eq_some_iff.mpr ⟨l, hl, slot⟩⟩
  obtain ⟨v, slot⟩ := waits
  rw [laid.word?, slot]
  rfl

/-! ### Boxing numbers -/

/-- Each number gets to its word, and no objects with properties are made. -/
theorem fillNumbers_makes {ds : List DeferredNumber} (valid : e.heap.Obeys rules)
    (h : b.fillNumbers ds e = (.ok c, k))
    (apart : ds.Pairwise fun c d => c.frame = d.frame → c.offset ≠ d.offset) :
    (∀ d ∈ ds, (b.word? d.frame d.offset).isSome → ∃ v,
      c.word? d.frame d.offset = some (.tagged v) ∧ e.heap.Makes k.heap d.value v) ∧
      ∀ id o, k.heap.object? id = some o → e.heap.object? id = some o := by
  -- By induction on the records: the first is written now, and the later ones spare it since
  -- they go to other places.
  induction ds generalizing b e with
  | nil =>
    cases h
    exact ⟨by simp, fun _ _ ho => ho⟩
  | cons d ds ih =>
    obtain ⟨b₁, e₁, first, h⟩ := Computation.bind_eq_ok h
    obtain ⟨v, new, rfl, -⟩ := fillNumber_new first
    obtain ⟨apart, later⟩ := List.pairwise_cons.mp apart
    have gains := Heap.newNumber_gains valid d.value
    rw [new] at gains
    have rest := ((b.putValue d.frame d.offset v).fillNumbers_respects (Engine.gains_tolerates rules)
      ds).step e₁ gains.obeys
    rw [h] at rest
    obtain ⟨-, -, kept⟩ := fillNumbers_ok h later
    obtain ⟨filled, objects⟩ := ih gains.obeys h later
    refine ⟨?_, fun id o ho => ?_⟩
    · rintro x (_ | ⟨_, hx⟩) inside
      · refine ⟨v, ?_, e.heap, e₁.heap, .refl _, new, rest.toExtends⟩
        rw [kept _ _ fun x hx same => (apart x hx same.symm).symm]
        exact word?_putValue_self inside v
      · have inside' : ((b.putValue d.frame d.offset v).word? x.frame x.offset).isSome := by
          rwa [word?_putValue_ne fun same => apart x hx same]
        obtain ⟨w, hw, made⟩ := filled x hx inside'
        exact ⟨w, hw, made.mono gains.toExtends (.refl _)⟩
    · have before := objects id o ho
      refine Heap.object?_newNumber (d := d.value) ?_
      rwa [new]

/-! ### Sharing arguments objects -/

/-- What no write of a record changes. -/
theorem fillArguments_keeps {α : Type} (f : Bailout → α) {ds : List DeferredArguments}
    {made : Table Nat Value} (h : b.fillArguments made ds e = (.ok c, k))
    (same : ∀ d ∈ ds, ∀ (b : Bailout) v, f (b.putValue d.frame d.offset v) = f b) : f c = f b := by
  induction ds generalizing b e made with
  | nil =>
    cases h
    rfl
  | cons d ds ih =>
    have later : ∀ x ∈ ds, ∀ (b : Bailout) v, f (b.putValue x.frame x.offset v) = f b :=
      fun x hx => same x (.tail _ hx)
    rw [fillArguments] at h
    cases known : made.get? d.frame with
    | some v =>
      rw [known] at h
      exact (ih h later).trans (same d (.head _) b v)
    | none =>
      rw [known] at h
      obtain ⟨v, e₁, new, h⟩ := Computation.bind_eq_ok h
      exact (ih h later).trans (same d (.head _) b v)

/-- Writing words does not change whose frame it is. -/
theorem callee_putValue (b : Bailout) (i o : Nat) (v : Value) (j : Nat) :
    (b.putValue i o v).callee j = b.callee j := by
  simp only [callee, frame, putValue, List.getD_eq_getElem?_getD, List.getElem?_modify]
  cases b.frames[j]? with
  | none => rfl
  | some f =>
    by_cases same : i = j
    · simp [same, Frame.write]
    · simp [same]

/-- The values of an arguments object are a matter of the frame before. -/
theorem argumentValues_congr {d : DeferredArguments}
    (same : ∀ j, j + 1 = d.frame → c.frames[j]? = b.frames[j]?) :
    c.argumentValues d = b.argumentValues d := by
  have before : c.adaptorBefore? d.frame = b.adaptorBefore? d.frame := by
    unfold adaptorBefore?
    cases hd : d.frame with
    | zero => rfl
    | succ j => simp only [same j hd.symm]
  rw [argumentValues, argumentValues, before]

/-- What is left after records were filled in: `objects` has the arguments objects of all frames, those
in `made` and new ones. -/
structure Shares (made objects : Table Nat Value) (ds : List DeferredArguments) (c : Bailout)
    (g h : Heap) : Prop where
  keeps : ∀ {i v}, made.get? i = some v → objects.get? i = some v
  given : ∀ d ∈ ds, ∃ v, objects.get? d.frame = some v ∧
    ((c.word? d.frame d.offset).isSome → c.word? d.frame d.offset = some (.tagged v))
  new : ∀ {i v}, objects.get? i = some v → made.get? i = some v ∨ ∃ d id values,
    ds.find? (fun d => d.frame == i) = some d ∧ v = .object id ∧ g.cells.size ≤ id.index ∧
    c.argumentValues d = .ok values ∧ h.IsArgumentsOf id (c.callee i) values
  distinct : ∀ {i j v}, objects.get? i = some v → objects.get? j = some v → made.get? i ≠ some v → i = j
  only : ∀ {id o}, h.object? id = some o →
    g.object? id = some o ∨ ∃ i, objects.get? i = some (.object id)

/-- A word may be written again, but only with the same object. -/
theorem Shares.word?_head {made objects : Table Nat Value} {d : DeferredArguments}
    {ds : List DeferredArguments} {v : Value} {g h : Heap} (s : Shares made objects ds c g h)
    (rest : (b.putValue d.frame d.offset v).fillArguments made ds e = (.ok c, k))
    (own : objects.get? d.frame = some v) (inside : (c.word? d.frame d.offset).isSome) :
    c.word? d.frame d.offset = some (.tagged v) := by
  by_cases again : ∃ y ∈ ds, y.frame = d.frame ∧ y.offset = d.offset
  · obtain ⟨y, hy, frame, offset⟩ := again
    obtain ⟨u, hu, word⟩ := s.given y hy
    rw [frame, own] at hu
    cases hu
    rw [frame, offset] at word
    exact word inside
  · have kept : c.word? d.frame d.offset = (b.putValue d.frame d.offset v).word? d.frame d.offset :=
      fillArguments_keeps (·.word? d.frame d.offset) rest fun y hy b u =>
        word?_putValue_ne (fun frame offset => again ⟨y, hy, frame, offset⟩) u
    rw [kept, word?_putValue, if_pos ⟨rfl, rfl⟩] at inside ⊢
    obtain ⟨w, hw⟩ := Option.isSome_iff_exists.mp (Option.isSome_map ▸ inside)
    rw [hw]
    rfl

/-- A record of a frame that has its arguments object. -/
theorem Shares.cons_known {made objects : Table Nat Value} {d : DeferredArguments}
    {ds : List DeferredArguments} {v : Value} {g h : Heap} (s : Shares made objects ds c g h)
    (rest : (b.putValue d.frame d.offset v).fillArguments made ds e = (.ok c, k))
    (known : made.get? d.frame = some v) : Shares made objects (d :: ds) c g h where
  keeps := s.keeps
  given := by
    rintro x (_ | ⟨_, hx⟩)
    · exact ⟨v, s.keeps known, s.word?_head rest (s.keeps known)⟩
    · exact s.given x hx
  new {i u} hu := by
    rcases s.new hu with before | ⟨x, id, values, found, made⟩
    · exact .inl before
    · by_cases same : d.frame = i
      · subst same
        exact .inl (known.trans ((s.keeps known).symm.trans hu))
      · exact .inr ⟨x, id, values, by rwa [List.find?_cons_of_neg (by simpa using same)], made⟩
  distinct := s.distinct
  only := s.only

/-- The first record of a frame. -/
theorem Shares.cons_new {made objects : Table Nat Value} {d : DeferredArguments}
    {ds : List DeferredArguments} {values : List Value} {id : ObjectId} {g g' h : Heap}
    (s : Shares (made.insert d.frame (.object id)) objects ds c g' h)
    (rest : (b.putValue d.frame d.offset (.object id)).fillArguments
      (made.insert d.frame (.object id)) ds e = (.ok c, k))
    (first : made.get? d.frame = none)
    (old : ∀ {i v}, made.get? i = some v → ∃ id, v = .object id ∧ id.index < g.cells.size)
    (next : id = ⟨g.cells.size⟩) (size : g'.cells.size = g.cells.size + 1) (grown : g.Extends g')
    (read : c.argumentValues d = .ok values) (arguments : h.IsArgumentsOf id (c.callee d.frame) values) :
    Shares made objects (d :: ds) c g h := by
  have own : objects.get? d.frame = some (.object id) := s.keeps (by rw [Table.get?_insert, if_pos rfl])
  have other {i : Nat} (differ : d.frame ≠ i) :
      (made.insert d.frame (.object id)).get? i = made.get? i := by
    rw [Table.get?_insert, if_neg differ]
  -- The new object's index lies past the heap at the start, so none of the records filled before
  -- can hold it.
  have unmade (i : Nat) : made.get? i ≠ some (.object id) := fun hi => by
    obtain ⟨x, same, less⟩ := old hi
    cases same
    rw [next] at less
    exact Nat.lt_irrefl _ less
  constructor
  case keeps =>
    intro i v hi
    refine s.keeps ?_
    rw [other fun same => ?_, hi]
    rw [← same, first] at hi
    cases hi
  case given =>
    rintro x (_ | ⟨_, hx⟩)
    · exact ⟨_, own, s.word?_head rest own⟩
    · exact s.given x hx
  -- The object that the first record makes answers for its frame; the rest are as the later
  -- records made them.
  case new =>
    intro i v hi
    by_cases same : d.frame = i
    · subst same
      rw [own] at hi
      cases hi
      refine .inr ⟨d, id, values, List.find?_cons_of_pos (by simp), rfl, ?_, read, arguments⟩
      rw [next]
    · rcases s.new hi with before | ⟨x, id', values', found, rfl, fresh, made⟩
      · exact .inl (other same ▸ before)
      · refine .inr ⟨x, id', values', ?_, rfl, by omega, made⟩
        rwa [List.find?_cons_of_neg (by simpa using same)]
  case distinct =>
    intro i j v hi hj fresh
    by_cases atI : d.frame = i
    · subst atI
      rw [own] at hi
      cases hi
      by_cases atJ : d.frame = j
      · exact atJ
      · exact (s.distinct hj own (other atJ ▸ unmade j)).symm
    · exact s.distinct hi hj (other atI ▸ fresh)
  -- An object the later records did not make was there before them: in the old heap, or it is
  -- the one just made.
  case only =>
    intro x o ho
    rcases s.only ho with before | given
    · have cell := Heap.object?_eq_some.mp before
      refine (grown.cell_or cell).imp Heap.object?_eq_some.mpr fun beyond => ⟨d.frame, ?_⟩
      have inside := (Array.getElem?_eq_some_iff.mp cell).1
      obtain rfl : x = id := by
        cases x
        rw [next]
        congr 1
        simp only at beyond inside
        omega
      exact own
    · exact .inr given

/-- A frame's first record gets a new object, and the others the same one. -/
theorem fillArguments_shares {ds : List DeferredArguments} {made : Table Nat Value}
    (valid : e.heap.Obeys rules) (h : b.fillArguments made ds e = (.ok c, k))
    (sorted : ds.Pairwise fun c d => c.frame ≤ d.frame)
    (old : ∀ {i v}, made.get? i = some v → ∃ id, v = .object id ∧ id.index < e.heap.cells.size) :
    ∃ objects, Shares made objects ds c e.heap k.heap := by
  induction ds generalizing b e made with
  | nil =>
    cases h
    exact ⟨made, fun hv => hv, by simp, .inl, fun hi _ other => absurd hi other, .inl⟩
  | cons d ds ih =>
    have all := h
    obtain ⟨first, later⟩ := List.pairwise_cons.mp sorted
    rw [fillArguments] at h
    cases known : made.get? d.frame with
    | some v =>
      rw [known] at h
      obtain ⟨objects, s⟩ := ih valid h later old
      exact ⟨objects, s.cons_known h known⟩
    | none =>
      rw [known] at h
      obtain ⟨v, e₁, new, h⟩ := Computation.bind_eq_ok h
      obtain ⟨values, id, read, allocated, rfl, -⟩ := newArgumentsFor_new new
      obtain ⟨next, size, grown, arguments⟩ := Heap.newArguments_new valid allocated
      have gains := Heap.newArguments_gains valid (b.callee d.frame) values
      rw [allocated] at gains
      have old' : ∀ {i v}, (made.insert d.frame (.object id)).get? i = some v →
          ∃ id, v = .object id ∧ id.index < e₁.heap.cells.size := by
        intro i v hi
        rw [Table.get?_insert] at hi
        split at hi
        · cases hi
          exact ⟨id, rfl, by rw [next, size]; exact Nat.lt_succ_self _⟩
        · obtain ⟨id', rfl, less⟩ := old hi
          exact ⟨id', rfl, by omega⟩
      obtain ⟨objects, s⟩ := ih gains.obeys h later old'
      have rest := (((b.putValue d.frame d.offset (.object id)).fillArguments_respects
        (Engine.gains_tolerates rules) (made.insert d.frame (.object id)) ds).step e₁) gains.obeys
      rw [h] at rest
      -- The frame before is complete: records to come are about this frame and later ones.
      have same : c.argumentValues d = b.argumentValues d := by
        refine argumentValues_congr fun j before => fillArguments_keeps (·.frames[j]?) all ?_
        intro x hx b u
        refine List.getElem?_modify_ne _ _ ?_
        rcases List.mem_cons.mp hx with rfl | hx
        · omega
        · have := first x hx
          omega
      have callee : c.callee d.frame = b.callee d.frame :=
        fillArguments_keeps (·.callee d.frame) all fun x _ b u => callee_putValue ..
      refine ⟨objects, s.cons_new h known old next size grown (same.trans read) ?_⟩
      rw [callee]
      exact arguments.gains gains.obeys rest

/-! ### The objects of frames -/

/-- The arguments object that a table has for a frame. -/
def objectAt (objects : Table Nat Value) (i : Nat) : ObjectId :=
  ((objects.get? i).bind Value.objectId?).getD default

namespace Shares

variable {objects : Table Nat Value} {ds : List DeferredArguments} {g h : Heap}

/-- Where there were no objects before, all of them are new. -/
theorem fresh (s : Shares {} objects ds c g h) {i : Nat} {v : Value} (hv : objects.get? i = some v) :
    ∃ d id values, ds.find? (fun d => d.frame == i) = some d ∧ v = .object id ∧
      g.cells.size ≤ id.index ∧ c.argumentValues d = .ok values ∧
      h.IsArgumentsOf id (c.callee i) values :=
  (s.new hv).resolve_left (by simp [Table.get?, Table.find?])

/-- Each frame with records has its object. -/
theorem get?_objectAt (s : Shares {} objects ds c g h) {d : DeferredArguments} (hd : d ∈ ds) :
    objects.get? d.frame = some (.object (objectAt objects d.frame)) := by
  obtain ⟨v, hv, -⟩ := s.given d hd
  obtain ⟨x, id, values, -, rfl, -⟩ := s.fresh hv
  simp [objectAt, hv, Value.objectId?]

/-- No two frames have the same object. -/
theorem objectAt_inj (s : Shares {} objects ds c g h) {d d' : DeferredArguments} (hd : d ∈ ds)
    (hd' : d' ∈ ds) (same : objectAt objects d.frame = objectAt objects d'.frame) :
    d.frame = d'.frame :=
  s.distinct (s.get?_objectAt hd) (same ▸ s.get?_objectAt hd') (by simp [Table.get?, Table.find?])

/-- The first record of a frame says what its object holds. -/
theorem holds (s : Shares {} objects ds c g h) {i : Nat} {d : DeferredArguments}
    (found : ds.find? (fun d => d.frame == i) = some d) :
    g.cells.size ≤ (objectAt objects i).index ∧ ∃ values, c.argumentValues d = .ok values ∧
      h.IsArgumentsOf (objectAt objects i) (c.callee i) values := by
  have frame : d.frame = i := by simpa using List.find?_some found
  subst frame
  obtain ⟨x, id, values, found', same, fresh, read, arguments⟩ :=
    s.fresh (s.get?_objectAt (List.mem_of_find?_eq_some found))
  rw [found] at found'
  cases found'
  cases same
  exact ⟨fresh, values, read, arguments⟩

/-- There are no other new objects. -/
theorem object_of_new (s : Shares {} objects ds c g h) {id : ObjectId} {o : JsObject}
    (ho : h.object? id = some o) :
    g.object? id = some o ∨ ∃ d ∈ ds, id = objectAt objects d.frame := by
  refine (s.only ho).imp_right fun ⟨i, hi⟩ => ?_
  obtain ⟨d, -, -, found, -⟩ := s.fresh hi
  have mem := List.mem_of_find?_eq_some found
  have frame : d.frame = i := by simpa using List.find?_some found
  subst frame
  exact ⟨d, mem, Value.object.inj (Option.some.inj (hi.symm.trans (s.get?_objectAt mem)))⟩

end Shares

/-! ### Materializing -/

/-- What materializing a bailout `b` leaves: the frames of `c`, and the heap `h` in place of `g`. The
frames that have records of arguments have the arguments objects `objects`. -/
structure Materialized (b c : Bailout) (g h : Heap) (objects : Nat → ObjectId) : Prop where
  number : ∀ d ∈ b.numbers, ∃ v, c.word? d.frame d.offset = some (.tagged v) ∧ g.Makes h d.value v
  arguments : ∀ d ∈ b.arguments,
    c.word? d.frame d.offset = some (.tagged (.object (objects d.frame)))
  /-- The frame's first record has the values, unless an adaptor frame before it has them. -/
  object : ∀ {i d}, b.arguments.find? (fun d => d.frame == i) = some d →
    g.cell? (objects i) = none ∧ ∃ values, c.argumentValues d = .ok values ∧
      h.IsArgumentsOf (objects i) (c.callee i) values
  distinct : ∀ d ∈ b.arguments, ∀ d' ∈ b.arguments,
    objects d.frame = objects d'.frame → d.frame = d'.frame
  only : ∀ {id o}, h.object? id = some o →
    g.object? id = some o ∨ ∃ d ∈ b.arguments, id = objects d.frame
  others : ∀ {i o}, (i, o) ∉ b.places → c.word? i o = b.word? i o
  frames : c.frames.map Frame.blank = b.frames.map Frame.blank

/-- Materializing fills in what waits. -/
theorem LaidOut.materialized (laid : b.LaidOut ls) (valid : e.heap.Obeys rules)
    (h : b.materialize e = (.ok c, k)) : ∃ objects, Materialized b c e.heap k.heap objects := by
  have refills := materialize_refills h
  obtain ⟨b₁, e₁, boxed, shared⟩ := materialize_steps h
  have apart : b.numbers.Pairwise fun c d => c.frame = d.frame → c.offset ≠ d.offset := by
    rw [laid.numbers]
    exact Layout.pairwise_numbersFrom 0 ls
  obtain ⟨-, -, kept⟩ := fillNumbers_ok boxed apart
  obtain ⟨numbers, boxes⟩ := fillNumbers_makes valid boxed apart
  have gains := ((b.fillNumbers_respects (Engine.gains_tolerates rules) b.numbers).step e) valid
  rw [boxed] at gains
  have gains' := ((b₁.fillArguments_respects (Engine.gains_tolerates rules) {} b.arguments).step e₁)
    gains.obeys
  rw [shared] at gains'
  obtain ⟨table, s⟩ := fillArguments_shares gains.obeys shared
    (by rw [laid.arguments]; exact Layout.sorted_argumentsFrom 0 ls)
    fun hv => by simp [Table.get?, Table.find?] at hv
  -- No arguments object gets to the word of a number.
  have stays {i o : Nat} (other : ∀ d ∈ b.arguments, d.frame = i → d.offset ≠ o) :
      c.word? i o = b₁.word? i o :=
    fillArguments_keeps (·.word? i o) shared fun d hd b u => word?_putValue_ne (other d hd) u
  refine ⟨objectAt table, ?_⟩
  constructor
  case number =>
    intro d hd
    have inside := laid.word?_of_mem_places (mem_places.mpr (.inl ⟨d, hd, rfl, rfl⟩))
    obtain ⟨v, word, made⟩ := numbers d hd inside
    refine ⟨v, ?_, made.mono (.refl _) gains'.toExtends⟩
    rw [stays fun x hx frame offset => ?_, word]
    have nodup := laid.nodup_places
    rw [places, List.nodup_append] at nodup
    exact nodup.2.2 _ (List.mem_map_of_mem hd) _ (List.mem_map_of_mem hx) (by rw [frame, offset])
  case arguments =>
    intro d hd
    obtain ⟨v, hv, word⟩ := s.given d hd
    rw [s.get?_objectAt hd] at hv
    cases hv
    refine word ?_
    rw [word?_isSome_of_refills refills]
    exact laid.word?_of_mem_places (mem_places.mpr (.inr ⟨d, hd, rfl, rfl⟩))
  case object =>
    intro i d found
    obtain ⟨fresh, holds⟩ := s.holds found
    refine ⟨?_, holds⟩
    cases old : e.heap.cell? (objectAt table i) with
    | none => rfl
    | some cell =>
      have inside := (Array.getElem?_eq_some_iff.mp (gains.cell old)).1
      exact absurd inside (Nat.not_lt_of_le fresh)
  case distinct => exact fun d hd d' hd' => s.objectAt_inj hd hd'
  case only => exact fun ho => (s.object_of_new ho).imp_left (boxes _ _)
  case others =>
    intro i o outside
    rw [mem_places, not_or] at outside
    rw [stays fun d hd frame offset => outside.2 ⟨d, hd, frame, offset⟩]
    exact kept i o fun d hd frame offset => outside.1 ⟨d, hd, frame, offset⟩
  case frames => exact refills.blank

end Bailout

/-- **Exactly the recorded words are filled in.** Frames that an eager or lazy bailout has rebuilt have
records for different words, all inside the frames. If objects may be allocated, materializing succeeds.
It then makes a number for each record of a number, gives each frame with records of arguments one new
arguments object of its own for all of them, and changes no other word. -/
theorem records_filled {rules : Rules} {b b' : Bailout} {e e' : Engine} (valid : e.heap.Obeys rules)
    (reason : b.reason = .eager ∨ b.reason = .lazy) (h : b.rebuildFrames e = (.ok b', e')) :
    b'.places.Nodup ∧ (∀ i o, (i, o) ∈ b'.places → (b'.word? i o).isSome) ∧
      (e.heap.allocationAllowed = true → ∃ c k, b'.materialize e' = (.ok c, k)) ∧
      ∀ c k, b'.materialize e' = (.ok c, k) → ∃ objects,
        b'.Materialized c e'.heap k.heap objects := by
  have live : b.reason ≠ .debugger := by
    rcases reason with reason | reason
    · simp [reason]
    · simp [reason]
  obtain ⟨data, entry, count, records, ls, -, -, walked, -⟩ := rebuildFrames_follows h
  obtain ⟨-, -, -, -, -, -, -, -, he'⟩ := Bailout.rebuildFrames_ok h
  have laid : b'.LaidOut ls := .of_walked walked
  have heap : e'.heap = e.heap := by rw [he']
  refine ⟨laid.nodup_places, fun i o => laid.word?_of_mem_places, Bailout.materialize_of_rebuilt h live, ?_⟩
  intro c k filled
  exact laid.materialized (heap ▸ valid) filled

namespace Sample

/-- The heap of the engine is well formed. -/
theorem engine_obeys : engine.heap.Obeys {} := by
  let withCode (h : Heap) (s : SharedId) (c : CodeId) : Heap :=
    (Heap.newFunction s (h.modifyShared s fun i => { i with code := some c })).2
  have closure {h : Heap} (valid : h.Obeys {}) (s : SharedId) (c : CodeId) : (withCode h s c).Obeys {} :=
    (Heap.newFunction_leads (Heap.modifyShared_leads valid ..).obeys s).obeys
  have lawful : Host.idle.Lawful {} := Host.idle_does {} _
  let names := (Heap.newShared "inner" 1 none (Heap.newShared "outer" 1 none Heap.initial).2).2
  have named : names.Obeys {} :=
    (Heap.newShared_leads (Heap.newShared_leads (Heap.obeys_initial lawful) ..).obeys ..).obeys
  have memory : engine.heap.toMemory =
      ((withCode (withCode names ⟨2⟩ ⟨9⟩) ⟨3⟩ ⟨10⟩).setFunctionCode ⟨11⟩ (some ⟨11⟩)).toMemory := by
    decide +kernel
  have leads : Heap.Leads {} (withCode (withCode names ⟨2⟩ ⟨9⟩) ⟨3⟩ ⟨10⟩)
      ((withCode (withCode names ⟨2⟩ ⟨9⟩) ⟨3⟩ ⟨10⟩).setFunctionCode ⟨11⟩ (some ⟨11⟩)) :=
    Heap.modifyFunction_leads (closure (closure named ⟨2⟩ ⟨9⟩) ⟨3⟩ ⟨10⟩) fun _ => rfl
  have valid := leads.obeys
  exact ⟨valid.of_eq (congrArg Memory.cells memory) (congrArg Memory.shapes memory)
    (congrArg Memory.initialShapes memory), Host.idle_does {} _⟩

/-- A function that has called itself with one argument too many. The body of the inner call has its
arguments object twice. -/
def recursion : List Int :=
  [0, 3, 2,
   1, 1, 0, 2, 11, -2, 11, -1, 10, 0, 17, 17, 7, 0,
   5, 0, 3, 11, 0, 12, 1, 15, 0,
   1, 1, 0, 2, 11, 0, 12, 1, 16, 1, 0, 1, 17, 16, 1, 0, 1]

end Sample

/-- Four numbers and two records of one arguments object, whose values an adaptor frame has. -/
theorem records_filled_recursion : ∃ (b' c : Bailout) (e' k : Engine) (objects : Nat → ObjectId),
    Sample.bailout.rebuildFrames (Sample.engineWith Sample.recursion) = (.ok b', e') ∧
    b'.materialize e' = (.ok c, k) ∧
    b'.places = [(0, 1), (0, 0), (1, 6), (2, 6), (2, 1), (2, 0)] ∧
    b'.Materialized c e'.heap k.heap objects ∧
    c.word? 2 1 = some (.tagged (.object (objects 2))) ∧
    c.word? 2 0 = some (.tagged (.object (objects 2))) := by
  have places : (Sample.bailout.rebuildFrames (Sample.engineWith Sample.recursion)).1.toOption.map
      (fun b => (b.places, b.arguments.map fun d => (d.frame, d.offset))) =
        some ([(0, 1), (0, 0), (1, 6), (2, 6), (2, 1), (2, 0)], [(2, 1), (2, 0)]) := by decide +kernel
  obtain ⟨b', ok, same⟩ := Option.map_eq_some_iff.mp places
  obtain ⟨places, arguments⟩ := Prod.mk.inj same
  have rebuilt := Computation.eq_ok_of_toOption ok
  have valid : (Sample.engineWith Sample.recursion).heap.Obeys {} := Sample.engine_obeys
  obtain ⟨-, -, fills, filled⟩ := records_filled valid (.inl rfl) rebuilt
  obtain ⟨c, k, done⟩ := fills (by decide +kernel)
  obtain ⟨objects, materialized⟩ := filled c k done
  have given (i o : Nat) (h : (i, o) ∈ [(2, 1), (2, 0)]) :
      c.word? i o = some (.tagged (.object (objects i))) := by
    rw [← arguments] at h
    obtain ⟨d, hd, same⟩ := List.mem_map.mp h
    cases same
    exact materialized.arguments d hd
  exact ⟨b', c, _, k, objects, rebuilt, done, places, materialized, given 2 1 (by decide),
    given 2 0 (by decide)⟩

end Speculation
