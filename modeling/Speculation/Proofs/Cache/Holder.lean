import Speculation.Proofs.Cache.Misses

/-!
# Where cached calls end

A stub for a call of a property that a lookup found is made only if no object in dictionary mode
stands between the receiver and the holder. So, where prototypes are objects, its guards pin every
object on the way (`Obeys.path_to_holder`). In any later heap in which they hold, a lookup ends at
the same holder, or at the receiver where it did so before (`CallOrigin.ends`). This holds for
numbers and strings, too, whose chains begin at a fixed prototype.

A global proxy on the way has to be passed with care. It owns what the global object owns, which
comes right after it.
-/

namespace Speculation

namespace Heap

variable {rules : Rules} {h₀ h h' : Heap} {name : Name} {receiver receiver₀ : Value}
  {holder : ObjectId} {spec : StubSpec}

/-! ### The way to a holder -/

/-- Every prototype is null or an object with properties. -/
def ObjectPrototypes (h : Heap) : Prop :=
  ∀ {id : ObjectId} {o : JsObject}, h.object? id = some o →
    (h.shapeOf o).prototype = .null ∨ h.isJsObject (h.shapeOf o).prototype

/-- A program that keeps to the rule of this name has such heaps. -/
theorem Obeys.objectPrototypes (ob : h.Obeys rules) (r : rules.objectPrototypes) :
    h.ObjectPrototypes := fun ho => (ob.shape (ob.object ho).shape_lt).prototype_object r

/-- Numbers, strings and booleans have prototypes that are there from the beginning. -/
theorem Obeys.object_of_primitive (ob : h.Obeys rules) {v : Value} (primitive : ¬ h.isJsObject v)
    {p : ObjectId} (e : h.prototypeOf v = .object p) : ∃ o, h.object? p = some o := by
  have root {q : ObjectId} {x : JsObject} (hq : Heap.roots.object? q = some x) :
      ∃ o, h.object? q = some o := by
    obtain ⟨o, ho, -⟩ := ob.roots.object hq
    exact ⟨o, ho⟩
  cases v with
  | smi i =>
    cases e
    exact root rfl
  | boolean b =>
    cases e
    exact root rfl
  | object id =>
    cases hc : h.cell? id with
    | none => simp [prototypeOf, hc] at e
    | some c =>
      simp only [prototypeOf, hc] at e
      cases c with
      | number d =>
        cases e
        exact root rfl
      | string t i =>
        cases e
        exact root rfl
      | object o =>
        refine absurd ?_ primitive
        simp [isJsObject, asObject?, Value.objectId?, object?_eq_some.2 hc]
  | _ => cases e

/-- A prototype that is an object stands in the heap. -/
theorem Obeys.object_of_prototypeOf (ob : h.Obeys rules) (objects : h.ObjectPrototypes) {v : Value}
    {p : ObjectId} (e : h.prototypeOf v = .object p) : ∃ o, h.object? p = some o := by
  by_cases js : h.isJsObject v
  · cases v with
    | object id =>
      obtain ⟨o, ho⟩ := Option.isSome_iff_exists.1 js
      have hc : h.cell? id = some (.object o) := object?_eq_some.1 ho
      simp only [prototypeOf, hc] at e
      rcases objects ho with null | js
      · rw [e] at null
        cases null
      · rw [e] at js
        exact Option.isSome_iff_exists.1 js
    | _ => cases js
  · exact ob.object_of_primitive js e

/-- Where all prototypes are objects, those above any value are. -/
theorem Obeys.objectsAbove (ob : h.Obeys rules) (objects : h.ObjectPrototypes) (v : Value) :
    h.ObjectsAbove v := by
  have walk : ∀ v, (∀ id, v = .object id → ∃ o, h.object? id = some o) →
      ∀ j ∈ h.chain v, ∃ o, h.object? j = some o := by
    refine ob.chain_induction (P := fun v ids =>
      (∀ id, v = .object id → ∃ o, h.object? id = some o) → ∀ j ∈ ids, ∃ o, h.object? j = some o)
      (by simp) fun id ih start j hj => ?_
    rcases List.mem_cons.1 hj with rfl | hj
    · exact start j rfl
    · exact ih (fun p e => ob.object_of_prototypeOf objects e) j hj
  exact fun j hj => Option.isSome_iff_exists.2
    (walk _ (fun p e => ob.object_of_prototypeOf objects e) j hj)

/-- All of the chain are objects if everything above the receiver is. -/
theorem Obeys.object_of_mem_chain (ob : h.Obeys rules) (objects : h.ObjectsAbove receiver)
    {j : ObjectId} (hj : j ∈ h.chain (h.lookupStart receiver)) : ∃ o, h.object? j = some o := by
  unfold lookupStart at hj
  split at hj
  · rename_i js
    obtain ⟨o, ho⟩ := Option.isSome_iff_exists.1 js
    obtain ⟨id, rfl, ho⟩ := object_of_asObject? ho
    rw [ob.chain_object] at hj
    rcases List.mem_cons.1 hj with rfl | hj
    · exact ⟨o, ho⟩
    · exact Option.isSome_iff_exists.1 (objects j hj)
  · exact Option.isSome_iff_exists.1 (objects j hj)

/-- What follows an object in a chain is the chain of its prototype. -/
theorem Obeys.tail_of_chain (ob : h.Obeys rules) {v : Value} {before after : List ObjectId}
    {k : ObjectId} (e : h.chain v = before ++ k :: after) :
    after = h.chain (h.prototypeOf (.object k)) := by
  revert before
  refine ob.chain_induction (P := fun _ ids => ∀ {before}, ids = before ++ k :: after →
    after = h.chain (h.prototypeOf (.object k))) (by simp) (fun id ih before e => ?_) v
  cases before with
  | nil =>
    cases e
    rfl
  | cons j before =>
    injection e with _ e
    exact ih e

/-- No object in dictionary mode comes before the holder. -/
theorem isFast_of_dictionaryBefore (ob : h.Obeys rules)
    (direct : h.dictionaryBefore receiver holder = false) (known : (h.object? holder).isSome)
    {passed rest : List ObjectId} (e : h.chain (h.lookupStart receiver) = passed ++ rest)
    (ne : ∀ k ∈ passed, k ≠ holder) {k : ObjectId} (hk : k ∈ passed) {o : JsObject}
    (ho : h.object? k = some o) : h.isFast k := by
  have taken : k ∈ (h.chain (h.lookupStart receiver)).takeWhile fun id => id ≠ holder := by
    rw [e, List.takeWhile_append_of_pos (by simpa using ne)]
    exact List.mem_append_left _ hk
  have before : k ∈ (h.chain (if receiver.isReference then receiver
      else h.prototypeOf receiver)).takeWhile fun id => id ≠ holder := by
    cases receiver with
    | object id =>
      by_cases js : h.isJsObject (.object id)
      · simpa only [lookupStart, js, if_true, Value.isReference] using taken
      · -- A number or a string stands before its prototype.
        have hne : id ≠ holder := by
          rintro rfl
          exact js known
        simp only [lookupStart, js, Bool.false_eq_true, if_false, Value.isReference, if_true,
          ob.chain_object] at taken ⊢
        rw [List.takeWhile_cons_of_pos (by simpa using hne)]
        exact List.mem_cons_of_mem _ taken
    | _ => exact taken
  have all := List.any_eq_false.1 direct k before
  refine isFast_eq_true.2 ⟨o, ho, ?_⟩
  simpa [ho] using all

/-- A proxy has what its global object has. -/
theorem own_resolveProxy (ob : h.Obeys rules) (id : ObjectId) (name : Name) :
    h.own (h.resolveProxy id) name = h.own id name := by
  simp only [own, ob.resolveProxy_resolveProxy]

/-- The objects that a cached call passes on its way to the holder are fast. They own nothing under
the name, or, in the case of a proxy, what the holder owns. -/
theorem Obeys.path_to_holder (ob : h.Obeys rules) (objects : h.ObjectsAbove receiver)
    (direct : h.dictionaryBefore receiver holder = false)
    (found : (h.lookup receiver name).holder? = some holder) :
    h.own holder name = h.lookup receiver name ∧ ∃ passed after,
      h.chain (h.lookupStart receiver) = passed ++ holder :: after ∧
      ∀ k ∈ passed, k ≠ holder ∧ h.isFast k ∧
        (h.resolveProxy k = k ∧ h.own k name = .notFound ∨ h.resolveProxy k = holder) := by
  obtain ⟨before, j, after, chain, nothing, hj⟩ := firstFound_split (rfl : h.lookup receiver name = _)
    fun h0 => by rw [h0] at found; cases found
  have hn : h.own j name ≠ .notFound := fun h0 => by rw [← hj, h0] at found; cases found
  -- The walk stops at `j`, which is the holder itself or the proxy that answers for it.
  obtain rfl : h.resolveProxy j = holder := by
    rw [← hj, ob.own_holder? hn] at found
    exact Option.some.inj found
  have own := own_resolveProxy ob j name
  refine ⟨own.trans hj, ?_⟩
  have known : (h.object? (h.resolveProxy j)).isSome := by
    by_contra none
    simp [Heap.own, Option.not_isSome_iff_eq_none.1 none] at hn
  have ne {k} (hk : k ∈ before) : k ≠ h.resolveProxy j := by
    rintro rfl
    exact hn (own.symm.trans (nothing _ hk))
  have fast {passed rest : List ObjectId} (e : before ++ j :: after = passed ++ rest)
      (ne : ∀ k ∈ passed, k ≠ h.resolveProxy j) (k) (hk : k ∈ passed) : h.isFast k := by
    have mem : k ∈ h.chain (h.lookupStart receiver) := by
      rw [chain, e]
      exact List.mem_append_left _ hk
    obtain ⟨o, ho⟩ := ob.object_of_mem_chain objects mem
    exact isFast_of_dictionaryBefore ob direct known (chain.trans e) ne hk ho
  -- A proxy passed before `j` stands for the global object, and that one comes next in the chain:
  -- the walk would have to stop there or pass it.
  have real {k} (hk : k ∈ before) : h.resolveProxy k = k := by
    by_contra proxy
    obtain ⟨e, above⟩ := ob.of_proxy proxy
    obtain ⟨front, back, rfl⟩ := List.append_of_mem hk
    have next := ob.tail_of_chain (chain.trans (List.append_assoc front (k :: back) (j :: after)))
    rw [above, ob.chain_object] at next
    have absent : h.own Heap.globalObject name = .notFound := by
      rw [← e, own_resolveProxy ob]
      exact nothing k hk
    cases back with
    | nil =>
      injection next with e
      -- The walk stops at the global object, where the proxy has just found nothing.
      exact hn (e ▸ absent)
    | cons b back =>
      injection next with e
      subst e
      -- The walk passes the global object, but that one is always in dictionary mode and
      -- everything passed is fast.
      obtain ⟨o, ho, dictionary⟩ := isFast_eq_true.1
        (fast rfl (fun k => ne) Heap.globalObject (by simp))
      obtain ⟨o', ho', -, dictionary'⟩ := ob.globalObject
      obtain rfl := Option.some.inj (ho.symm.trans ho')
      simp [dictionary] at dictionary'
  -- If `j` is a proxy, the holder comes right after it and `j` is one more object passed.
  by_cases hproxy : h.resolveProxy j = j
  · rw [hproxy] at ne fast ⊢
    exact ⟨before, after, chain, fun k hk =>
      ⟨ne hk, fast rfl (fun k => ne) k hk, .inl ⟨real hk, nothing k hk⟩⟩⟩
  · obtain ⟨e, above⟩ := ob.of_proxy hproxy
    have next := ob.tail_of_chain chain
    rw [above, ob.chain_object, ← e] at next
    have split : before ++ j :: after = (before ++ [j]) ++ after := by simp
    have ne' : ∀ k ∈ before ++ [j], k ≠ h.resolveProxy j := by
      intro k hk
      rcases List.mem_append.1 hk with hk | hk
      · exact ne hk
      · rw [List.mem_singleton.1 hk]
        exact Ne.symm hproxy
    refine ⟨before ++ [j], _, chain.trans (split.trans (by rw [next])), fun k hk =>
      ⟨ne' k hk, fast split ne' k hk, ?_⟩⟩
    rcases List.mem_append.1 hk with hk | hk
    · exact .inl ⟨real hk, nothing k hk⟩
    · rw [List.mem_singleton.1 hk]
      exact .inr rfl

/-- What a lookup ends at is an object, and no proxy. -/
theorem Obeys.holder_of_lookup (ob : h.Obeys rules)
    (found : (h.lookup receiver name).holder? = some holder) :
    h.resolveProxy holder = holder ∧ ∃ o, h.object? holder = some o := by
  obtain ⟨before, j, after, -, -, hj⟩ := firstFound_split (rfl : h.lookup receiver name = _)
    fun h0 => by rw [h0] at found; cases found
  have hn : h.own j name ≠ .notFound := fun h0 => by rw [← hj, h0] at found; cases found
  obtain rfl : h.resolveProxy j = holder := by
    rw [← hj, ob.own_holder? hn] at found
    exact Option.some.inj found
  refine ⟨ob.resolveProxy_resolveProxy j, Option.ne_none_iff_exists'.1 fun none => hn ?_⟩
  simp [own, none]

theorem Obeys.not_proxy (ob : h.Obeys rules) {id : ObjectId} {o : JsObject}
    (ho : h.object? id = some o) (real : h.resolveProxy id = id) (p : ObjectId) :
    o.objectClass ≠ .globalProxy p := by
  intro hc
  obtain ⟨rfl, above⟩ := (ob.object ho).proxy hc
  simp only [resolveProxy, ho, hc] at real
  have := (ob.object ho).prototype_lt above
  simp [real] at this

/-! ### The way once more -/

/-- An object of the shape of one that a cached call passed is passed once more. -/
theorem Twin.passed {id id' : ObjectId} {o o' : JsObject} (t : Twin h₀ h id id' o o')
    (ob₀ : h₀.Obeys rules) (ob : h.Obeys rules) (g : h₀.Grows h) (hne : id ≠ holder)
    (fast : h₀.isFast id) (passed : h₀.resolveProxy id = id ∧ h₀.own id name = .notFound ∨
      h₀.resolveProxy id = holder) :
    h.own id' name = .notFound ∨ h.own id' name = h.own holder name := by
  rcases passed with ⟨real, absent⟩ | rfl
  · obtain ⟨hr₀, hr⟩ := t.resolveProxy_eq_self ob₀ ob g (ob₀.not_proxy t.before real)
    obtain ⟨x, hx, hd⟩ := isFast_eq_true.1 fast
    obtain rfl := Option.some.inj (t.before.symm.trans hx)
    exact .inl (t.own_absent ob₀ g hr₀ hr absent (by simp [hd]))
  · -- There is one object that proxies stand for.
    -- The shape tells what class an object has, so the later one is a proxy as well.
    have type := t.instanceType_eq ob₀ ob g
    have proxy : h.resolveProxy id' = Heap.globalObject := by
      cases hc : o.objectClass with
      | globalProxy p =>
        cases hc' : o'.objectClass with
        | globalProxy p' =>
          obtain ⟨rfl, -⟩ := (ob.object t.after).proxy hc'
          simp [resolveProxy, t.after, hc']
        | _ =>
          rw [hc, hc'] at type
          cases type
      | _ => exact absurd (by simp [resolveProxy, t.before, hc]) hne
    right
    rw [(ob₀.of_proxy (Ne.symm hne)).1, ← proxy, own_resolveProxy ob]

/-- The object at which the lookup of a cached call ended, and the one at which it ends for a
receiver that passes the guards. -/
structure Ends (h₀ h : Heap) (receiver₀ receiver : Value) (name : Name) (holder id' : ObjectId)
    (o o' : JsObject) : Prop extends Twin h₀ h holder id' o o' where
  real₀ : h₀.resolveProxy holder = holder
  real : h.resolveProxy id' = id'
  own₀ : h₀.own holder name = h₀.lookup receiver₀ name
  found : h.own id' name ≠ .notFound → h.lookup receiver name = h.own id' name
  stored : h.holderId? receiver (.relativeTo receiver₀ holder) = some id'

section Ends

variable (co : h₀.CallOrigin spec receiver₀ name holder) (ob₀ : h₀.Obeys rules)
  (ob : h.Obeys rules) (g : h₀.Grows h)

include co ob₀ ob g

/-- Calls that end at the receiver itself. -/
theorem CallOrigin.ends_self (self : receiver₀ = .object holder) {key : Option Name}
    (hold : h.guardsHold spec receiver key) :
    key = some name ∧ ∃ id' o o', Ends h₀ h receiver₀ receiver name holder id' o o' := by
  subst self
  have ended := co.finds.holder?
  obtain ⟨real, o, ho⟩ := ob₀.holder_of_lookup ended
  obtain ⟨hk, id', o', rfl, t, -⟩ := guardsHold_spec ob₀ ho co.guards hold
  obtain ⟨-, real'⟩ := t.resolveProxy_eq_self ob₀ ob g (ob₀.not_proxy ho real)
  refine ⟨hk, id', o, o', t, real, real', ob₀.own_of_lookup ho ended, ob.lookup_of_own t.after, ?_⟩
  simpa using holderId?_relativeTo t.after holder holder

/-- What stands above a value that passes the guards stood above the receiver. -/
theorem CallOrigin.objectsAbove (objects : h.ObjectsAbove receiver) {key : Option Name}
    (hold : h.guardsHold spec receiver key) : h₀.ObjectsAbove receiver₀ := by
  -- Objects that are above both were there before.
  have back {v : Value} (chain : h.chain (h.prototypeOf receiver) = h₀.chain v)
      (old : ∀ j ∈ h₀.chain v, j.index < h₀.cells.size) (j : ObjectId) (hj : j ∈ h₀.chain v) :
      (h₀.object? j).isSome :=
    Option.isSome_iff_exists.2 (g.object_back (old j hj) (objects j (chain ▸ hj)))
  cases js : h₀.isJsObject receiver₀ with
  | true =>
    obtain ⟨x, hx⟩ := Option.isSome_iff_exists.1 js
    obtain ⟨id, rfl, hx⟩ := object_of_asObject? hx
    obtain ⟨-, id', x', rfl, t, -⟩ := guardsHold_spec ob₀ hx co.guards hold
    refine back (t.chain_eq ob₀ ob g) fun j hj => ?_
    have := ob₀.index_lt_of_mem_chain hj
    have := index_lt_of_object? hx
    omega
  | false =>
    obtain ⟨-, -, prototype, -⟩ := guardsHold_primitive ob js co.guards hold
    have start {p : ObjectId} (e : h₀.prototypeOf receiver₀ = .object p) : p.index < h₀.cells.size := by
      obtain ⟨x, hx⟩ := ob₀.object_of_primitive (by simp [js]) e
      exact index_lt_of_object? hx
    refine back ?_ fun j hj => ?_
    · rw [prototype]
      exact g.chain ob₀ ob fun p e => start e
    · cases e : h₀.prototypeOf receiver₀ with
      | object p =>
        rw [e, ob₀.chain_object] at hj
        rcases List.mem_cons.1 hj with rfl | hj
        · exact start e
        · have := ob₀.index_lt_of_mem_chain hj
          have := start e
          omega
      | _ =>
        rw [e, chain_of_ne_object (by simp)] at hj
        cases hj

/-- What the guards say about the objects of a chain, up to the holder. -/
theorem Checks.passed {passed after : List ObjectId}
    (c : Checks h name (h₀.guardsAlong (some holder) (passed ++ holder :: after)))
    (fast : ∀ k ∈ passed, k ≠ holder ∧ h₀.isFast k ∧
      (h₀.resolveProxy k = k ∧ h₀.own k name = .notFound ∨ h₀.resolveProxy k = holder)) :
    (∀ k ∈ passed, h.own k name = .notFound ∨ h.own k name = h.own holder name) ∧
      Pinned h₀ h holder := by
  obtain ⟨-, o, ho⟩ := ob₀.holder_of_lookup (co.finds.holder?)
  obtain ⟨c, pinned⟩ := c.before fun k hk => by
    obtain ⟨ne, hf, -⟩ := fast k hk
    obtain ⟨x, hx, -⟩ := isFast_eq_true.1 hf
    exact ⟨by simp [hx], fun e => ne (Option.some.inj e)⟩
  refine ⟨fun k hk => ?_, c.at_holder ho⟩
  obtain ⟨ne, hf, passed⟩ := fast k hk
  obtain ⟨x, x', t⟩ := (pinned k hk).1 hf
  exact t.passed ob₀ ob g ne hf passed

/-- Calls that end further up. -/
theorem CallOrigin.ends_above (above : receiver₀ ≠ .object holder)
    (objects : h.ObjectsAbove receiver) {key : Option Name} (hold : h.guardsHold spec receiver key) :
    key = some name ∧ ∃ id' o o', Ends h₀ h receiver₀ receiver name holder id' o o' := by
  have ended := co.finds.holder?
  obtain ⟨real, o, ho⟩ := ob₀.holder_of_lookup ended
  have direct := co.direct.resolve_left above
  obtain ⟨own₀, passed, after, chain, way⟩ :=
    ob₀.path_to_holder (co.objectsAbove ob₀ ob g objects hold) direct ended
  -- Both kinds of receiver end alike, once their checks show what the objects in front of the
  -- holder still answer.
  have ends (ids : List ObjectId) (hk : key = some name)
      (start : h.chain (h.lookupStart receiver) = ids ++ holder :: after)
      (passes : ∀ k ∈ ids, h.own k name = .notFound ∨ h.own k name = h.own holder name)
      (pinned : Pinned h₀ h holder) :
      key = some name ∧ ∃ id' o o', Ends h₀ h receiver₀ receiver name holder id' o o' := by
    obtain ⟨x, x', t⟩ := pinned
    have real' := (g.resolveProxy t.before).trans real
    refine ⟨hk, holder, x, x', t, real, real', own₀, fun hn => ?_, ?_⟩
    · rw [lookup, start]
      exact firstFound_of_passed passes hn
    · simp [Holder.relativeTo, above, holderId?]
  -- An object's own shape is guarded and the checks follow it; a primitive has the checks of its
  -- prototype's chain only.
  cases js : h₀.isJsObject receiver₀ with
  | true =>
    obtain ⟨x, hx⟩ := Option.isSome_iff_exists.1 js
    obtain ⟨id, rfl, hx⟩ := object_of_asObject? hx
    obtain ⟨hk, id', x', rfl, t, checks⟩ := guardsHold_spec ob₀ hx co.guards hold
    have hne : id ≠ holder := fun e => above (by rw [e])
    rw [lookupStart, if_pos js, ob₀.chain_object] at chain
    cases passed with
    | nil =>
      injection chain with e
      exact absurd e hne
    | cons k passed =>
      injection chain with e chain
      subst e
      have checks := (checks fun e => hne (Option.some.inj e)).1
      rw [chain] at checks
      obtain ⟨passes, pinned⟩ := checks.passed co ob₀ ob g fun k hk => way k (by simp [hk])
      obtain ⟨-, fast, first⟩ := way id (by simp)
      have js' : h.isJsObject (.object id') := by
        simp [isJsObject, asObject?, Value.objectId?, t.after]
      refine ends (id' :: passed) hk ?_ ?_ pinned
      · rw [lookupStart, if_pos js', ob.chain_object, t.chain_eq ob₀ ob g, chain]
        rfl
      · intro k hk
        rcases List.mem_cons.1 hk with rfl | hk
        · exact t.passed ob₀ ob g hne fast first
        · exact passes k hk
  | false =>
    obtain ⟨hk, js', prototype, checks⟩ := guardsHold_primitive ob js co.guards hold
    rw [lookupStart, if_neg (by simp [js])] at chain
    rw [chain] at checks
    obtain ⟨passes, pinned⟩ := checks.passed co ob₀ ob g way
    refine ends passed hk ?_ passes pinned
    rw [lookupStart, if_neg (by simp [js']), prototype, ← chain]
    exact g.chain ob₀ ob fun p e => by
      obtain ⟨x, hx⟩ := ob₀.object_of_primitive (by simp [js]) e
      exact index_lt_of_object? hx

/-- A stub for calls whose guards hold finds its holder where it was found when the stub was made. -/
theorem CallOrigin.ends (objects : h.ObjectsAbove receiver) {key : Option Name}
    (hold : h.guardsHold spec receiver key) :
    key = some name ∧ ∃ id' o o', Ends h₀ h receiver₀ receiver name holder id' o o' := by
  by_cases self : receiver₀ = .object holder
  · exact co.ends_self ob₀ ob g self hold
  · exact co.ends_above ob₀ ob g self objects hold

end Ends

end Heap

end Speculation
