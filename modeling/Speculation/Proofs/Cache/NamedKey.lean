import Speculation.Proofs.Cache.Load

/-!
# Loads by names that are computed

A computed key may be a name as it stands. A load by such a key is a named load, whatever the site
has loaded before (`keyed_load_history`): stubs treat the key like the name (`runLoad_of_name`), and
a miss takes the named path (`Key.simplify_of_name`).

The generic stub is the exception. It reads by `getKeyed`, which differs from a named load in one
case (`overlooksGlobal`): for a global variable that does not exist it gives `undefined`, where every
other site reports that the variable is not defined.
-/

namespace Speculation

namespace Heap

variable {h h' : Heap} {name : Name} {receiver : Value} {key : Key} {f : Value}

/-! ### Names as keys -/

/-- A computed name is a string whose text is in use as a name. -/
theorem string_of_name? {k : Value} (hn : (Key.computed k).name? h = some name) :
    (∃ internalized, h.get? k = some (.string name.text internalized)) ∧ name ∈ h.names := by
  simp only [Key.name?] at hn
  split at hn
  · split at hn
    · rename_i s hs
      split at hn
      · rename_i known
        cases hn
        refine ⟨?_, by simpa using known⟩
        unfold string? at hs
        split at hs
        · cases hs
          exact ⟨_, ‹_›⟩
        · cases hs
      · cases hn
    · cases hn
  · cases hn

/-- Names are no small integers. -/
theorem elementIndex?_of_name (hn : key.name? h = some name) : key.elementIndex? = none := by
  cases key with
  | named n => rfl
  | computed k =>
    obtain ⟨⟨i, hk⟩, -⟩ := string_of_name? hn
    cases k with
    | smi j => simp [get?, Value.objectId?] at hk
    | _ => rfl

/-- A name is in its simplest form as soon as it is taken for one. -/
theorem simplify_of_name {k : Value} (hn : (Key.computed k).name? h = some name) :
    Key.simplify h k = .named name := by
  obtain ⟨⟨i, hk⟩, -⟩ := string_of_name? hn
  have number : h.isHeapNumber k = false := by simp [isHeapNumber, hk]
  have defined : k.isUndefined = false := by
    cases k with
    | undefined => simp [get?, Value.objectId?] at hk
    | _ => rfl
  simp only [Key.simplify, number, defined, Bool.false_eq_true, if_false, hn]

/-- A key that is a name spells it. -/
theorem toText_of_name {k : Value} (hn : (Key.computed k).name? h = some name) :
    h.toText k = name.text := by
  obtain ⟨⟨i, hk⟩, -⟩ := string_of_name? hn
  simp [toText, hk]

/-- A key that is a name spells the index that the name spells. -/
theorem arrayIndex?_of_name {k : Value} (hn : (Key.computed k).name? h = some name) :
    h.arrayIndex? k = name.arrayIndex? := by
  obtain ⟨⟨i, hk⟩, -⟩ := string_of_name? hn
  cases k with
  | smi i => simp [get?, Value.objectId?] at hk
  | _ => simp only [arrayIndex?, hk, Name.arrayIndex?]

/-- A name is in use already. -/
theorem intern_of_name {k : Value} (hn : (Key.computed k).name? h = some name) :
    h.intern name = h := by
  simp [intern, (string_of_name? hn).2]

/-- To read by a name that is computed. -/
theorem getKeyed_of_name {k : Value} (hn : (Key.computed k).name? h = some name) :
    getKeyed receiver k h = (if receiver.isNullish then
        raise (.nonObjectLoad name.text (h.describe receiver))
      else
        match name.arrayIndex? with
        | some i => getElement receiver i
        | none => getProperty receiver name : Action Value) h := by
  have spelled : nameOfKey k h = (.ok name, h) := by
    simp only [nameOfKey, Computation.get_bind, toText_of_name hn, Computation.modify_bind,
      intern_of_name hn, Computation.pure_apply]
  simp only [getKeyed, Computation.get_bind, arrayIndex?_of_name hn, toText_of_name hn]
  split
  · rfl
  · cases name.arrayIndex? with
    | some i => rfl
    | none => exact Computation.bind_ok spelled

/-- A general read that succeeds is a read of the property. -/
theorem getProperty_of_getNamed (read : getNamed receiver name h = (.ok f, h')) :
    getProperty receiver name h = (.ok f, h') := by
  unfold getNamed at read
  split at read
  · cases read
  · exact read

/-- To read by a name is to read the property. -/
theorem getProperty_of_getByKey (hn : key.name? h = some name) (index : name.arrayIndex? = none)
    (read : getByKey receiver key h = (.ok f, h')) : getProperty receiver name h = (.ok f, h') := by
  cases key with
  | named n =>
    cases hn
    exact getProperty_of_getNamed read
  | computed k =>
    simp only [getByKey, getKeyed_of_name hn, index] at read
    split at read
    · cases read
    · exact read

/-! ### Stubs -/

/-- Stubs take a computed name for the name. -/
theorem loadByHandler_of_name (hn : key.name? h = some name) (spec : StubSpec) :
    loadByHandler spec receiver key h = loadByHandler spec receiver (.named name) h := by
  have named : (Key.named name).name? h = some name := rfl
  have index := elementIndex?_of_name hn
  have index' : (Key.named name).elementIndex? = none := rfl
  simp only [loadByHandler, Computation.get_bind, hn, named, loadElement, loadCharacter,
    loadArgument, index, index']

/-- A stub that is not generic takes a computed name for the name. -/
theorem runLoad_of_name (hn : key.name? h = some name) {spec : StubSpec}
    (special : spec.handler ≠ .generic) :
    runLoad spec receiver key h = runLoad spec receiver (.named name) h := by
  have named : (Key.named name).name? h = some name := rfl
  have guarded : (do
      if (← get).guardsHold spec receiver (key.name? (← get)) then loadByHandler spec receiver key
      else return .miss : Action Outcome) h = (do
      if (← get).guardsHold spec receiver ((Key.named name).name? (← get)) then
        loadByHandler spec receiver (.named name)
      else return .miss : Action Outcome) h := by
    simp only [Computation.get_bind, hn, named]
    split
    · exact loadByHandler_of_name hn spec
    · rfl
  unfold runLoad
  cases hh : spec.handler with
  | fresh | premonomorphic | megamorphic => rfl
  | generic => exact absurd hh special
  | _ => exact guarded

/-- Whether a stub with a handler reads a global variable that does not exist as `undefined`. -/
def overlooksGlobal (h : Heap) (handler : Handler) (receiver : Value) (name : Name) : Bool :=
  decide (handler = .generic) && name.arrayIndex?.isNone && h.isGlobalObject receiver &&
    !(h.lookup receiver name).isFound

/-- Names of array indices are not names of properties that no shape describes. -/
theorem intrinsic?_of_arrayIndex? {i : Nat} (hi : name.arrayIndex? = some i) :
    h.intrinsic? receiver name = none := by
  have length : name ≠ .length := by
    rintro rfl
    simp [show Name.length.arrayIndex? = none by decide] at hi
  have prototype : name ≠ .prototype := by
    rintro rfl
    simp [show Name.prototype.arrayIndex? = none by decide] at hi
  simp [intrinsic?, length, prototype]

/-- Where `getKeyed` reads by the rules of a miss. -/
theorem namedLoad_eq_getKeyed {k : Value} (hn : (Key.computed k).name? h = some name)
    (kept : h.overlooksGlobal .generic receiver name = false) :
    h.namedLoad receiver name h = getKeyed receiver k h := by
  rw [getKeyed_of_name hn, namedLoad, intrinsicLoad?_eq]
  by_cases nullish : receiver.isNullish
  · rw [if_pos nullish, if_pos nullish]
  rw [if_neg nullish, if_neg nullish]
  cases hi : name.arrayIndex? with
  | some i => rw [intrinsic?_of_arrayIndex? hi]
  | none =>
    have declared : (!(h.lookup receiver name).isFound && h.isGlobalObject receiver) = false := by
      rw [Bool.and_comm]
      simpa [overlooksGlobal, hi] using kept
    simp only [declared, Bool.false_eq_true, if_false, getProperty, Computation.get_bind]
    cases h.intrinsic? receiver name <;> rfl

end Heap

namespace AtSite

variable {rules : Rules} {s : AtSite} {receiver key : Value} {name : Name}

/-- A miss by a computed name is resolved like one by the name. -/
theorem resolveKeyedLoad_performs (ss : s.Sound rules)
    (named : (Key.computed key).name? s.engine.heap = some name) (force : Bool) :
    Performs rules s (resolveKeyedLoad receiver key force)
      (s.engine.heap.namedLoad receiver name) := by
  simp only [resolveKeyedLoad, performs_heap, Heap.simplify_of_name named]
  exact resolveLoad_performs ss receiver name

/-- A stub with the resolver behind it. -/
theorem runLoad_performs (ss : s.Sound rules) (wrappers : rules.stringWrappers) {spec : StubSpec}
    (sound : spec.Sound rules s.engine.heap)
    (named : (Key.computed key).name? s.engine.heap = some name)
    (trusts : s.engine.heap.Trusts spec receiver name)
    (kept : s.engine.heap.overlooksGlobal spec.handler receiver name = false) :
    Performs rules s (do
      match ← onHeap (Heap.runLoad spec receiver (.computed key)) with
      | .hit v => return v
      | .miss => resolveKeyedLoad receiver key false
      | .missForGood => resolveKeyedLoad receiver key true)
      (s.engine.heap.namedLoad receiver name) := by
  have ob := ss.engine.heap
  refine stands_bind_performs ss (Heap.runLoad_leads ob receiver _) ?_ (fun _ => rfl)
    (resolveKeyedLoad_performs ss named false) (resolveKeyedLoad_performs ss named true)
  by_cases hh : spec.handler = .generic
  · refine Heap.stands_perform (c := Heap.getKeyed receiver key) ?_
      (Heap.namedLoad_eq_getKeyed named (hh ▸ kept)).symm
    simp only [Heap.runLoad, hh]
    rfl
  · rw [Heap.Stands, Heap.runLoad_of_name named hh]
    exact sound.runLoad_namedLoad ob wrappers hh name trusts

/-- A load by a computed name through a site loads by the name, unless the site is generic and the
name is that of a global variable that does not exist. -/
theorem keyedLoad_performs (ss : s.Sound rules) (wrappers : rules.stringWrappers)
    (named : (Key.computed key).name? s.engine.heap = some name)
    (trusts : ∀ spec, s.Consults receiver (.computed key) spec →
      s.engine.heap.Trusts spec receiver name)
    (kept : s.engine.heap.overlooksGlobal s.site.target.spec.handler receiver name = false) :
    Performs rules s (keyedLoad receiver key) (s.engine.heap.namedLoad receiver name) := by
  simp only [keyedLoad, dispatchLoad_eq, bind_assoc]
  obtain ⟨found, t, e, k, -, heap, hf⟩ := consult_kept ss receiver (.computed key)
  refine k.bind_performs e ?_
  rw [← heap] at named kept ⊢
  cases found with
  | none => exact resolveKeyedLoad_performs k.sound named false
  | some spec =>
    obtain ⟨runs, sound, -, own⟩ := hf spec rfl
    have trusts := trusts spec runs
    rw [← heap] at sound trusts
    refine runLoad_performs k.sound wrappers sound named trusts ?_
    rcases own with rfl | state
    · exact kept
    · simp [Heap.overlooksGlobal, sound.not_generic (by simp [state])]

end AtSite

/-- **A load by a computed name does not depend on the history of its site.** In every session of a
program whose string wrappers wrap strings, a load by a key that is a name gives the same result
through any two sites and leaves the same objects and shapes, provided that the guards of the stubs that
the sites run, if any, overlook nothing above the receiver and that neither site is generic while the
name is that of a global variable that does not exist. A getter may be any function of the host that
does not look at the stubs of shapes. -/
theorem keyed_load_history {session : Session}
    (reachable : session.Reachable { stringWrappers := true })
    (sees : session.engine.heap.host.Blind) {a b : Site}
    (ha : a ∈ session.sites) (hb : b ∈ session.sites) {receiver key : Value} {name : Name}
    (named : (Key.computed key).name? session.engine.heap = some name)
    (trustsA : ∀ spec, AtSite.Consults ⟨a, session.engine⟩ receiver (.computed key) spec →
      session.engine.heap.Trusts spec receiver name)
    (trustsB : ∀ spec, AtSite.Consults ⟨b, session.engine⟩ receiver (.computed key) spec →
      session.engine.heap.Trusts spec receiver name)
    (keptA : session.engine.heap.overlooksGlobal a.target.spec.handler receiver name = false)
    (keptB : session.engine.heap.overlooksGlobal b.target.spec.handler receiver name = false) :
    let first := AtSite.keyedLoad receiver key ⟨a, session.engine⟩
    let second := AtSite.keyedLoad receiver key ⟨b, session.engine⟩
    first.1 = second.1 ∧ first.2.engine.heap.bare = second.2.engine.heap.bare := by
  have sound := reachable.sound
  have first := AtSite.keyedLoad_performs (s := ⟨a, session.engine⟩) (sound.atSite ha) rfl named
    trustsA keptA
  have second := AtSite.keyedLoad_performs (s := ⟨b, session.engine⟩) (sound.atSite hb) rfl named
    trustsB keptB
  have blind := session.engine.heap.blind_namedLoad sees.setting receiver name
  exact ⟨(first.result blind).trans (second.result blind).symm,
    (first.heap blind).trans (second.heap blind).symm⟩

/-- A site that knows the field and one that has gone generic. -/
theorem keyed_load_history_field :
    let name : Name := ⟨"x"⟩
    let receiver : Value := .object ⟨10⟩
    let key : Value := .object ⟨11⟩
    let load (i : Nat) (k : Value) : Operation := .atSite i (.keyedLoad receiver k)
    let session := (Session.ofConfig {}).run [
      .onHeap .object, .onHeap (.internalize "x"), .onHeap (.intern name),
      .access (.setProperty receiver name (.smi 5) false), .newSite .keyedLoad {},
      .newSite .keyedLoad {}, load 0 key, load 0 key, load 1 .null]
    ∃ a ∈ session.sites, ∃ b ∈ session.sites, a.targetState = .monomorphic ∧
      b.targetState = .generic ∧ (AtSite.keyedLoad receiver key ⟨a, session.engine⟩).1 =
        (AtSite.keyedLoad receiver key ⟨b, session.engine⟩).1 := by
  intro name receiver key load session
  have allowed : (Session.ofConfig {}).AllowedRun { stringWrappers := true } [
      .onHeap .object, .onHeap (.internalize "x"), .onHeap (.intern name),
      .access (.setProperty receiver name (.smi 5) false), .newSite .keyedLoad {},
      .newSite .keyedLoad {}, load 0 key, load 0 key, load 1 .null] :=
    ⟨trivial, trivial, trivial, trivial, trivial, trivial, trivial, trivial, trivial, trivial⟩
  have reachable : session.Reachable { stringWrappers := true } := .run (.initial {}) allowed
  have sees : session.engine.heap.host.Blind := Session.blind_idle_run rfl allowed
  have sites : ∃ a ∈ session.sites, ∃ b ∈ session.sites, a.targetState = .monomorphic ∧
      b.targetState = .generic := by decide +kernel
  have named : (Key.computed key).name? session.engine.heap = some name := by decide +kernel
  have trusts : ∀ spec, session.engine.heap.Trusts spec receiver name :=
    Heap.trusts_of_unhidden (by decide +kernel)
  have ordinary : session.engine.heap.isGlobalObject receiver = false := by decide +kernel
  obtain ⟨a, ha, b, hb, taught, generic⟩ := sites
  have kept (handler : Handler) :
      session.engine.heap.overlooksGlobal handler receiver name = false := by
    simp [Heap.overlooksGlobal, ordinary]
  exact ⟨a, ha, b, hb, taught, generic,
    (keyed_load_history reachable sees ha hb named (fun spec _ => trusts spec)
      (fun spec _ => trusts spec) (kept _) (kept _)).1⟩

/-- A generic site reads a global variable that does not exist as `undefined`; a new one reports that
it is not defined. -/
theorem keyed_load_history_differs :
    let global : Value := .object Heap.globalObject
    let key : Value := .object ⟨10⟩
    let session := (Session.ofConfig {}).run [
      .onHeap (.internalize "missing"), .onHeap (.intern ⟨"missing"⟩), .newSite .keyedLoad {},
      .newSite .keyedLoad {}, .atSite 0 (.keyedLoad global .null)]
    session.Reachable { stringWrappers := true } ∧
      (Key.computed key).name? session.engine.heap = some ⟨"missing"⟩ ∧
      (∀ spec, session.engine.heap.Trusts spec global ⟨"missing"⟩) ∧
      ∃ a ∈ session.sites, ∃ b ∈ session.sites, a.kind = .keyedLoad ∧ b.kind = .keyedLoad ∧
        (AtSite.keyedLoad global key ⟨a, session.engine⟩).1.toOption = some .undefined ∧
        (AtSite.keyedLoad global key ⟨b, session.engine⟩).1.toOption = none := by
  intro global key session
  exact ⟨.run (.initial {}) ⟨trivial, trivial, trivial, trivial, trivial, trivial⟩,
    by decide +kernel, Heap.trusts_of_unhidden (by decide +kernel), by decide +kernel⟩

end Speculation
