import Mathlib.Order.WithBot
import Speculation.Proofs.Cache.Session

/-!
# Walks along prototypes

Several operations walk from a value to its prototype, and on to the prototype of that, until they
have their answer. None of them counts its steps or remembers where it has been: they end because
every prototype was there before the objects that inherit from it. `Value.rank` turns this into a
measure, in which null comes first, then the objects by their place, then the other immediate
values, and `Obeys.rank_prototypeOf_lt` says that the prototype of anything but null has a lower
rank.

`h.Walks turn v s visited r` is such a loop, without any bound: from the value `v` on, with a state
that starts as `s`, it takes a `turn` at one value after the other and leaves with `r`, having
visited the given values. `Obeys.walks` says that it ends whenever a turn at null is the last one,
and `Walks.descends` that it goes down in rank. The turns of lookups, of reading elements, of
collecting guards and of looking for dictionaries on the way to a holder follow, and what each of
these loops leaves with is the answer that the operation gives.
-/

namespace Speculation

/-- The rank of a value among those that a walk along prototypes may visit. -/
def Value.rank : Value → WithTop ℕ
  | .null => 0
  | .object id => (id.index + 1 : ℕ)
  | _ => ⊤

namespace Heap

/-! ### Prototypes have a lower rank -/

section Rank

variable {rules : Rules} {h : Heap}

/-- Whatever it was made with, an object inherits from null or from something in the heap. -/
theorem Obeys.prototypeOf_cases (ob : h.Obeys rules) (v : Value) :
    h.prototypeOf v = .null ∨ ∃ p, h.prototypeOf v = .object p := by
  cases v with
  | smi | boolean => exact .inr ⟨_, rfl⟩
  | undefined | null | hole | argumentsMarker => exact .inl rfl
  | object id =>
    cases hc : h.cell? id with
    | none => exact .inl (by simp [prototypeOf, hc])
    | some c =>
      cases c with
      | number d => exact .inr ⟨_, by simp [prototypeOf, hc]; rfl⟩
      | string t i => exact .inr ⟨_, by simp [prototypeOf, hc]; rfl⟩
      | object o =>
        have legal := ob.shape (ob.object (object?_eq_some.2 hc)).shape_lt
        simpa [prototypeOf, hc, shapeOf] using legal.prototype_reference

/-- A walk up the prototypes gets closer to its end with every step. -/
theorem Obeys.rank_prototypeOf_lt (ob : h.Obeys rules) {v : Value} (hv : v ≠ .null) :
    (h.prototypeOf v).rank < v.rank := by
  have finite : (h.prototypeOf v).rank < ⊤ := by
    obtain e | ⟨p, e⟩ := ob.prototypeOf_cases v
    · rw [e]
      exact WithTop.coe_lt_top 0
    · rw [e]
      exact WithTop.coe_lt_top _
  cases v with
  | null => exact absurd rfl hv
  | object id =>
    obtain e | ⟨p, e⟩ := ob.prototypeOf_cases (.object id)
    · rw [e]
      exact WithTop.coe_lt_coe.2 (Nat.succ_pos _)
    · have below := ob.prototypeOf_lt e
      rw [e]
      exact WithTop.coe_lt_coe.2 (Nat.succ_lt_succ below)
  | _ => exact finite

/-- Induction from null upwards. -/
theorem Obeys.prototype_induction (ob : h.Obeys rules) {P : Value → Prop} (null : P .null)
    (next : ∀ v, v ≠ .null → P (h.prototypeOf v) → P v) (v : Value) : P v := by
  induction v using (InvImage.wf Value.rank wellFounded_lt).induction with
  | _ v ih =>
    by_cases hv : v = .null
    · rw [hv]
      exact null
    · exact next v hv (ih _ (ob.rank_prototypeOf_lt hv))

/-- Going from prototype to prototype leads to null. -/
theorem Obeys.iterate_prototypeOf (ob : h.Obeys rules) (v : Value) :
    ∃ n, h.prototypeOf^[n] v = .null := by
  refine ob.prototype_induction (P := fun v => ∃ n, h.prototypeOf^[n] v = .null) ⟨0, rfl⟩ ?_ v
  rintro v - ⟨n, e⟩
  exact ⟨n + 1, e⟩

end Rank

/-! ### Walks -/

section Walks

variable {rules : Rules} {h : Heap} {σ : Type} {turn : Value → σ → ForInStep σ} {v : Value}
  {s r : σ} {visited : List Value}

/-- The loop that takes a turn at a value, then at its prototype and so on, until a turn is the
last one. -/
inductive Walks (h : Heap) (turn : Value → σ → ForInStep σ) :
    Value → σ → List Value → σ → Prop where
  | done {v : Value} {s r : σ} (e : turn v s = .done r) : Walks h turn v s [v] r
  | yield {v : Value} {s s' r : σ} {visited : List Value} (e : turn v s = .yield s')
      (rest : Walks h turn (h.prototypeOf v) s' visited r) : Walks h turn v s (v :: visited) r

/-- A walk ends with `r` and visits no value twice. -/
def WalksOnce (h : Heap) (turn : Value → σ → ForInStep σ) (v : Value) (s r : σ) : Prop :=
  ∃ visited, h.Walks turn v s visited r ∧ visited.Nodup

/-- A walk that goes no further than null ends. -/
theorem Obeys.walks (ob : h.Obeys rules) (halts : ∀ s, ∃ r, turn .null s = .done r) (v : Value)
    (s : σ) : ∃ visited r, h.Walks turn v s visited r := by
  refine ob.prototype_induction (P := fun v => ∀ s, ∃ visited r, h.Walks turn v s visited r)
    (fun s => ?_) (fun v _ ih s => ?_) v s
  · obtain ⟨r, e⟩ := halts s
    exact ⟨_, r, .done e⟩
  · cases e : turn v s with
    | done r => exact ⟨_, r, .done e⟩
    | yield s' =>
      obtain ⟨visited, r, w⟩ := ih s'
      exact ⟨_, r, .yield e w⟩

/-- A walk only goes down. -/
theorem Walks.descends (w : h.Walks turn v s visited r) (ob : h.Obeys rules)
    (halts : ∀ s, ∃ r, turn .null s = .done r) :
    (∀ a ∈ visited, a.rank ≤ v.rank) ∧ visited.Pairwise fun a b => b.rank < a.rank := by
  induction w with
  | done e => simp
  | @yield v s s' r visited e rest ih =>
    obtain ⟨below, sorted⟩ := ih
    have hv : v ≠ .null := by
      rintro rfl
      obtain ⟨r, e'⟩ := halts s
      rw [e'] at e
      cases e
    have lower := ob.rank_prototypeOf_lt hv
    refine ⟨fun a ha => ?_, List.pairwise_cons.2 ⟨fun a ha => (below a ha).trans_lt lower, sorted⟩⟩
    rcases List.mem_cons.1 ha with rfl | ha
    · exact le_rfl
    · exact (below a ha).trans lower.le

/-- A walk that goes no further than null ends, with the one result that it can have. -/
theorem Obeys.walksOnce (ob : h.Obeys rules) (halts : ∀ s, ∃ r, turn .null s = .done r)
    (result : ∀ visited r', h.Walks turn v s visited r' → r' = r) : h.WalksOnce turn v s r := by
  obtain ⟨visited, r', w⟩ := ob.walks halts v s
  obtain rfl := result _ _ w
  refine ⟨visited, w, (w.descends ob halts).2.imp fun lt e => ?_⟩
  rw [e] at lt
  exact lt.false

end Walks

/-! ### The turns of the operations -/

/-- A lookup ends at the first object where something is found, or where there is no object. -/
def lookupTurn (look : ObjectId → Lookup) (v : Value) (sofar : Lookup) : ForInStep Lookup :=
  match v.objectId? with
  | none => .done sofar
  | some id => if (look id).isFound then .done (look id) else .yield sofar

/-- Reading an element ends at the first object that has one, or where there is no object with
properties. -/
def elementTurn (h : Heap) (index : Nat) (v sofar : Value) : ForInStep Value :=
  match h.asObject? v with
  | none => .done sofar
  | some o =>
    match o.elements[index]? with
    | some e => if e.isHole then .yield sofar else .done e
    | none => .yield sofar

/-- Guards are collected up to the holder. -/
def guardTurn (h : Heap) (holder : Option ObjectId) (v : Value) (g : ChainGuards) :
    ForInStep ChainGuards :=
  match v with
  | .object id =>
    match h.object? id with
    | none => .done g
    | some o =>
      let checked := { g with prototypeChecks := g.prototypeChecks ++ [(id, o.shape)] }
      if some id = holder then .done checked
      else if (h.shapeOf o).isDictionary then
        .yield { g with absentChecks := g.absentChecks ++ [.object id] }
      else .yield checked
  | _ => .done g

/-- The guards before any prototype was visited. -/
def receiverGuards (h : Heap) (receiver : Value) : ChainGuards :=
  match h.asObject? receiver with
  | none => {}
  | some o => if (h.shapeOf o).isDictionary then { absentChecks := [.receiver] } else {}

/-- The way to a holder ends there, at an object in dictionary mode, or before null. -/
def dictionaryTurn (h : Heap) (holder : ObjectId) (v : Value) (_ : Bool) : ForInStep Bool :=
  if v.objectId? = some holder then .done false
  else if (h.asObject? v).any fun o => (h.shapeOf o).isDictionary then .done true
  else if h.prototypeOf v = .null ∨ h.prototypeOf v = v then .done false
  else .yield false

section Turns

variable {rules : Rules} {h : Heap} {v : Value} {visited : List Value}

/-- A lookup leaves with the first thing that is found along the chain. -/
theorem Walks.lookup {look : ObjectId → Lookup} {s r : Lookup} (ob : h.Obeys rules)
    (w : h.Walks (lookupTurn look) v s visited r) (hs : s = .notFound) :
    r = firstFound look (h.chain v) := by
  induction w with
  | @done v s r e =>
    cases v with
    | object id =>
      simp only [lookupTurn, Value.objectId?] at e
      rw [ob.chain_object]
      cases hl : look id <;> simp [hl, Lookup.isFound] at e
      all_goals simp [firstFound, hl, ← e]
    | _ =>
      obtain rfl : s = r := by simpa [lookupTurn, Value.objectId?] using e
      rw [chain_of_ne_object (by simp), hs]
      rfl
  | @yield v s s' r visited e rest ih =>
    cases v with
    | object id =>
      simp only [lookupTurn, Value.objectId?] at e
      cases hl : look id with
      | notFound =>
        obtain rfl : s = s' := by simpa [hl, Lookup.isFound] using e
        rw [ob.chain_object, firstFound, hl]
        exact ih hs
      | _ => simp [hl, Lookup.isFound] at e
    | _ => simp [lookupTurn, Value.objectId?] at e

/-- Reading an element leaves with the first that is there, before the chain leaves the objects with
properties. -/
theorem Walks.element {index : Nat} {s r : Value} (ob : h.Obeys rules)
    (w : h.Walks (h.elementTurn index) v s visited r) :
    r = (((h.chain v).takeWhile fun id => (h.object? id).isSome).findSome? fun id =>
      h.ownElement? id index).getD s := by
  -- By induction on the walk: its last turn stops at an element or at the end, and each turn
  -- before passes an object without one.
  induction w with
  | @done v s r e =>
    cases v with
    | object id =>
      rw [ob.chain_object]
      simp only [elementTurn, asObject?, Value.objectId?, Option.bind_some] at e
      cases ho : h.object? id with
      | none =>
        obtain rfl : s = r := by simpa [ho] using e
        simp [ho]
      | some o =>
        simp only [ho] at e
        cases he : o.elements[index]? with
        | none => simp [he] at e
        | some x =>
          simp only [he] at e
          split at e
          · cases e
          · rename_i hole
            obtain rfl : x = r := by simpa using e
            simp [ho, ownElement?, he, hole, Option.filter]
    | _ =>
      obtain rfl : s = r := by simpa [elementTurn, asObject?, Value.objectId?] using e
      rw [chain_of_ne_object (by simp)]
      rfl
  | @yield v s s' r visited e rest ih =>
    cases v with
    | object id =>
      rw [ob.chain_object]
      simp only [elementTurn, asObject?, Value.objectId?, Option.bind_some] at e
      cases ho : h.object? id with
      | none => simp [ho] at e
      | some o =>
        simp only [ho] at e
        have passed : s = s' ∧ h.ownElement? id index = none := by
          cases he : o.elements[index]? with
          | none => simpa [he, ownElement?, ho] using e
          | some x =>
            simp only [he] at e
            split at e
            · rename_i hole
              simpa [he, ownElement?, ho, hole] using e
            · cases e
        obtain ⟨rfl, absent⟩ := passed
        simpa [ho, absent] using ih
    | _ => simp [elementTurn, asObject?, Value.objectId?] at e

/-- Collecting guards adds those of the chain up to the holder. -/
theorem Walks.guards {holder : Option ObjectId} {g r : ChainGuards} (ob : h.Obeys rules)
    (w : h.Walks (h.guardTurn holder) v g visited r) :
    r = { prototypeChecks := g.prototypeChecks ++ (h.guardsAlong holder (h.chain v)).prototypeChecks
          absentChecks := g.absentChecks ++ (h.guardsAlong holder (h.chain v)).absentChecks } := by
  -- By induction on the walk, one turn for each object of the chain up to the holder.
  induction w with
  | @done v g r e =>
    cases v with
    | object id =>
      rw [ob.chain_object]
      simp only [guardTurn] at e
      cases ho : h.object? id with
      | none =>
        obtain rfl : g = r := by simpa [ho] using e
        simp [guardsAlong, ho]
      | some o =>
        simp only [ho] at e
        split at e
        · rename_i here
          simp only [ForInStep.done.injEq] at e
          simp [guardsAlong, ho, here, ← e]
        · split at e <;> cases e
    | _ =>
      obtain rfl : g = r := by simpa [guardTurn] using e
      rw [chain_of_ne_object (by simp)]
      simp [guardsAlong]
  | @yield v g g' r visited e rest ih =>
    cases v with
    | object id =>
      rw [ob.chain_object]
      simp only [guardTurn] at e
      cases ho : h.object? id with
      | none => simp [ho] at e
      | some o =>
        simp only [ho] at e
        split at e
        · cases e
        · rename_i further
          split at e
          all_goals
            rename_i mode
            simp only [ForInStep.yield.injEq] at e
            simp [guardsAlong, ho, further, mode, ih, ← e]
    | _ => simp [guardTurn] at e

/-- The search for a dictionary goes along the chain, up to the holder. -/
theorem dictionaryBefore_eq (h : Heap) (v : Value) (holder : ObjectId) :
    h.dictionaryBefore v holder =
      ((h.chain (if v.isReference then v else h.prototypeOf v)).takeWhile fun j => j ≠ holder).any
        fun j => (h.object? j).any fun o => (h.shapeOf o).isDictionary := by
  unfold dictionaryBefore
  refine congrArg (List.any _) (funext fun j => ?_)
  cases h.object? j <;> rfl

/-- No guards but the one on its shape are needed where the receiver has the property itself. -/
theorem chainGuards_holder {receiver : Value} {holder : Option ObjectId}
    (js : h.isJsObject receiver) (own : receiver.objectId? = holder) :
    h.chainGuards receiver holder = {} := by
  obtain ⟨o, ho⟩ := Option.isSome_iff_exists.1 js
  simp only [chainGuards, ho, own, if_true]

/-- A holder above the receiver is guarded by the objects in between. -/
theorem chainGuards_above {receiver : Value} {holder : Option ObjectId}
    (above : ¬ (h.isJsObject receiver ∧ receiver.objectId? = holder)) :
    let g := h.guardsAlong holder (h.chain (h.prototypeOf receiver))
    h.chainGuards receiver holder =
      { prototypeChecks := (h.receiverGuards receiver).prototypeChecks ++ g.prototypeChecks
        absentChecks := (h.receiverGuards receiver).absentChecks ++ g.absentChecks } := by
  intro g
  cases ho : h.asObject? receiver with
  | none => simp [chainGuards, receiverGuards, ho, g]
  | some o =>
    have further : receiver.objectId? ≠ holder := fun own => above ⟨by simp [isJsObject, ho], own⟩
    by_cases slow : (h.shapeOf o).isDictionary <;>
      simp [chainGuards, receiverGuards, ho, further, slow, g]

/-- A prototype is an object or the end, so the way from it starts there. -/
theorem Obeys.dictionaryBefore_prototypeOf (ob : h.Obeys rules) (v : Value) (holder : ObjectId) :
    h.dictionaryBefore (h.prototypeOf v) holder =
      ((h.chain (h.prototypeOf v)).takeWhile fun j => j ≠ holder).any
        fun j => (h.object? j).any fun o => (h.shapeOf o).isDictionary := by
  rw [dictionaryBefore_eq]
  obtain e | ⟨p, e⟩ := ob.prototypeOf_cases v <;> rw [e] <;> rfl

/-- For a value that is no object the search begins at its prototype. -/
theorem Obeys.dictionaryBefore_immediate (ob : h.Obeys rules) (holder : ObjectId)
    (hv : v.isReference = false) :
    h.dictionaryBefore v holder = h.dictionaryBefore (h.prototypeOf v) holder := by
  rw [ob.dictionaryBefore_prototypeOf, dictionaryBefore_eq, hv]
  rfl

/-- For an object the search looks at itself and goes on above. -/
theorem Obeys.dictionaryBefore_object (ob : h.Obeys rules) (id holder : ObjectId) :
    h.dictionaryBefore (.object id) holder = (decide (id ≠ holder) &&
      ((h.object? id).any (fun o => (h.shapeOf o).isDictionary) ||
        h.dictionaryBefore (h.prototypeOf (.object id)) holder)) := by
  rw [ob.dictionaryBefore_prototypeOf, dictionaryBefore_eq]
  simp only [Value.isReference, if_true, ob.chain_object]
  by_cases here : id = holder <;> simp [here]

/-- Looking for dictionaries tells whether there is one on the chain before the holder. -/
theorem Walks.dictionary {holder : ObjectId} {s r : Bool} (ob : h.Obeys rules)
    (w : h.Walks (h.dictionaryTurn holder) v s visited r) : r = h.dictionaryBefore v holder := by
  -- A walk that ends at a value with no dictionary has nothing above it to look at.
  have top {v : Value} (e : h.prototypeOf v = .null ∨ h.prototypeOf v = v) :
      h.prototypeOf v = .null := by
    by_contra hv
    have e := e.resolve_left hv
    have lower := ob.rank_prototypeOf_lt (v := v) fun hn => hv (e.trans hn)
    rw [e] at lower
    exact lower.false
  induction w with
  | @done v s r e =>
    unfold dictionaryTurn at e
    split at e
    · rename_i here
      obtain rfl : false = r := by simpa using e
      cases v with
      | object id =>
        obtain rfl : id = holder := by simpa [Value.objectId?] using here
        simp [ob.dictionaryBefore_object]
      | _ => simp [Value.objectId?] at here
    · rename_i further
      split at e
      · rename_i found
        obtain rfl : true = r := by simpa using e
        cases v with
        | object id =>
          have hid : id ≠ holder := by simpa [Value.objectId?] using further
          have hd : (h.object? id).any (fun o => (h.shapeOf o).isDictionary) := by
            simpa [asObject?, Value.objectId?] using found
          simp [ob.dictionaryBefore_object, hid, hd]
        | _ => simp [asObject?, Value.objectId?] at found
      · rename_i fast
        split at e
        · rename_i last
          obtain rfl : false = r := by simpa using e
          have null := top last
          cases v with
          | object id =>
            have hd : (h.object? id).any (fun o => (h.shapeOf o).isDictionary) = false := by
              simpa [asObject?, Value.objectId?] using fast
            rw [ob.dictionaryBefore_object, null, hd]
            simp [dictionaryBefore, Value.isReference, prototypeOf, chain_of_ne_object]
          | _ =>
            rw [ob.dictionaryBefore_immediate _ rfl, null]
            simp [dictionaryBefore, Value.isReference, prototypeOf, chain_of_ne_object]
        · cases e
  | @yield v s s' r visited e rest ih =>
    rw [ih]
    unfold dictionaryTurn at e
    split at e
    · cases e
    · rename_i further
      split at e
      · cases e
      · rename_i fast
        cases v with
        | object id =>
          have hid : id ≠ holder := by simpa [Value.objectId?] using further
          have hd : (h.object? id).any (fun o => (h.shapeOf o).isDictionary) = false := by
            simpa [asObject?, Value.objectId?] using fast
          simp [ob.dictionaryBefore_object id, hid, hd]
        | _ => rw [← ob.dictionaryBefore_immediate _ rfl]

end Turns

end Heap

/-! ### Every walk ends -/

/-- **Prototype chains are well founded.** In every heap that a session can bring about, whatever
its objects were made to inherit from, the prototype of a value is null or an object, and the
prototype of an object lies below it; so going from prototype to prototype leads from every value to
null. Looking a name up along the whole chain, or among the prototypes alone, reading an element,
collecting guards up to a holder and looking for dictionaries before one are loops that end, visit
no value twice and leave with the answer of the operation. -/
theorem prototype_walks_end {session : Session} (reachable : session.Reachable {}) :
    let h := session.engine.heap
    (∀ v, h.prototypeOf v = .null ∨
      ∃ p, h.prototypeOf v = .object p ∧ ∀ id, v = .object id → p.index < id.index) ∧
    (∀ v, ∃ n, h.prototypeOf^[n] v = .null) ∧
    (∀ receiver name, h.WalksOnce (Heap.lookupTurn (h.own · name)) (h.lookupStart receiver)
      .notFound (h.lookup receiver name)) ∧
    (∀ id name, h.WalksOnce (Heap.lookupTurn (h.ownReal · name)) (h.prototypeOf (.object id))
      .notFound (h.lookupInPrototypes id name)) ∧
    (∀ receiver index,
      ((h.indexedString? receiver).bind fun s => (Text.units s)[index]?) = none →
      ∃ v, Heap.getElement receiver index h = (.ok v, h) ∧
        h.WalksOnce (h.elementTurn index) (h.lookupStart receiver) .undefined v) ∧
    (∀ receiver holder,
      if h.isJsObject receiver ∧ receiver.objectId? = holder then
        h.chainGuards receiver holder = {}
      else h.WalksOnce (h.guardTurn holder) (h.prototypeOf receiver) (h.receiverGuards receiver)
        (h.chainGuards receiver holder)) ∧
    ∀ receiver holder, h.WalksOnce (h.dictionaryTurn holder) receiver false
      (h.dictionaryBefore receiver holder) := by
  intro h
  have ob : h.Obeys {} := reachable.sound.engine.heap
  -- All five walks end for one reason, that prototypes have smaller indices; each then gives what
  -- its turn collects.
  refine ⟨fun v => ?_, ob.iterate_prototypeOf, fun receiver name => ?_, fun id name => ?_,
    fun receiver index absent => ?_, fun receiver holder => ?_, fun receiver holder => ?_⟩
  · obtain e | ⟨p, e⟩ := ob.prototypeOf_cases v
    · exact .inl e
    · exact .inr ⟨p, e, fun id hid => ob.prototypeOf_lt (hid ▸ e)⟩
  · exact ob.walksOnce (fun _ => ⟨_, rfl⟩) fun _ _ w => w.lookup ob rfl
  · exact ob.walksOnce (fun _ => ⟨_, rfl⟩) fun _ _ w => w.lookup ob rfl
  · refine ⟨h.chainElement receiver index, ?_, ob.walksOnce (fun _ => ⟨_, rfl⟩)
      fun _ _ w => w.element ob⟩
    simp only [Heap.getElement, Computation.get_bind, absent, Computation.pure_apply]
  · split
    · rename_i own
      exact Heap.chainGuards_holder own.1 own.2
    · rename_i above
      exact ob.walksOnce (fun _ => ⟨_, rfl⟩) fun _ _ w =>
        (w.guards ob).trans (Heap.chainGuards_above above).symm
  · exact ob.walksOnce (fun _ => ⟨_, rfl⟩) fun _ _ w => w.dictionary ob

/-- Objects that inherit from an object, the global proxy, a string, a number and nothing. -/
theorem prototype_walks_end_mixed :
    let inheriting (p : Value) : Operation := .onHeap (.objectWithPrototype p)
    let ops : List Operation := [
      .onHeap .object, .onHeap (.string "ab"), .onHeap (.boxedNumber (.ofInt 1)),
      inheriting (.object ⟨10⟩), inheriting (.object Heap.globalProxy), inheriting (.object ⟨11⟩),
      inheriting (.object ⟨12⟩), inheriting (.smi 3), .newSite .load {},
      .onHeap (.normalize ⟨10⟩), .onHeap (.setElement (.object ⟨10⟩) 0 (.smi 7)),
      .atSite 0 (.load (.object ⟨14⟩) ⟨"x"⟩)]
    let session := (Session.ofConfig {}).run ops
    let h := session.engine.heap
    session.Reachable {} ∧
    [13, 14, 15, 16, 17].map (fun i => h.prototypeOf (.object ⟨i⟩)) =
      [.object ⟨10⟩, .object Heap.globalProxy, .object ⟨11⟩, .object ⟨12⟩, .null] ∧
    (∃ n, h.prototypeOf^[n] (.object ⟨15⟩) = .null) ∧
    h.WalksOnce (Heap.lookupTurn (h.own · ⟨"x"⟩)) (.object ⟨14⟩) .notFound .notFound ∧
    h.WalksOnce (h.elementTurn 0) (.object ⟨13⟩) .undefined (.smi 7) ∧
    h.WalksOnce (h.dictionaryTurn Heap.objectPrototype) (.object ⟨13⟩) false true := by
  intro inheriting ops session h
  -- Every prototype given is older than the object that inherits from it.
  have may {h : Heap} {id : ObjectId} (lt : id.index < h.cells.size) :
      Heap.MayInherit {} h (.object id) :=
    ⟨fun e => Value.object.inj e ▸ lt, by simp⟩
  have reachable : session.Reachable {} := by
    refine .run (.initial {}) ⟨trivial, trivial, trivial, may ?_, may ?_, may ?_, may ?_,
      ⟨by simp, by simp⟩, trivial, trivial, trivial, trivial, trivial⟩ <;> decide +kernel
  obtain ⟨-, ends, lookup, -, element, -, dictionary⟩ := prototype_walks_end reachable
  refine ⟨reachable, by decide +kernel, ends _, ?_, ?_, ?_⟩
  · have found : h.lookup (.object ⟨14⟩) ⟨"x"⟩ = .notFound := by decide +kernel
    have start : h.lookupStart (.object ⟨14⟩) = .object ⟨14⟩ := by decide +kernel
    have walk := lookup (.object ⟨14⟩) ⟨"x"⟩
    rwa [found, start] at walk
  · obtain ⟨v, read, walk⟩ := element (.object ⟨13⟩) 0 (by decide +kernel)
    have value : (Heap.getElement (.object ⟨13⟩) 0 h).1.toOption = some (.smi 7) := by decide +kernel
    have start : h.lookupStart (.object ⟨13⟩) = .object ⟨13⟩ := by decide +kernel
    rw [read] at value
    obtain rfl : v = .smi 7 := Option.some.inj value
    rwa [start] at walk
  · have before : h.dictionaryBefore (.object ⟨13⟩) Heap.objectPrototype = true := by
      decide +kernel
    have walk := dictionary (.object ⟨13⟩) Heap.objectPrototype
    rwa [before] at walk

end Speculation
