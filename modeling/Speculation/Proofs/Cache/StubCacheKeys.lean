import Speculation.Proofs.Cache.Runs

/-!
# The keys of the stub cache

A stub in the stub cache is monomorphic, is for the kind of sites that its key says, and is found
under the shape that it checks first: that of its receiver, or that of the prototype of a primitive
receiver. It was made for the name of its key only if sites do not change names while they are
monomorphic (`stub_cache_keys`). A site that does, as a keyed call may, enters the stub that it held
under the name of the access that missed (`stub_cache_misnames`).

The first part needs nothing of the sites: what a monomorphic site holds may be entered under any
name (`StubKey.Covers.archives`).
-/

namespace Speculation

variable {rules : Rules}

/-- The key says all but the name. -/
structure StubKey.Covers (key : StubKey) (stub : Stub) : Prop where
  state : stub.state = .monomorphic
  kind : stub.kind = key.kind
  shape : stub.probeShape? = some key.shape

/-- A key that describes a stub covers it. -/
theorem StubKey.Describes.covers {key : StubKey} {stub : Stub} (d : key.Describes stub) :
    key.Covers stub := ⟨d.state, d.kind, d.shape⟩

theorem StubKey.Covers.archives (site : Site) (name : Name) :
    AtSite.Archives StubKey.Covers site name := fun _ mono _ shape => ⟨mono, rfl, shape⟩

/-- A monomorphic site that shares its stubs is used for the name that its stub was made for. -/
def SiteOperation.keepsName (h : Heap) (site : Site) (op : SiteOperation) : Bool :=
  !(site.kind.usesStubCache && site.targetState = .monomorphic) ||
    (op.accessedName? h).all fun name => site.target.name = some name

/-- What keeps to the name of a site archives its stubs under their own names. -/
theorem SiteOperation.archives_of_keepsName {h : Heap} {site : Site} {op : SiteOperation}
    (keeps : op.keepsName h site) {name : Name} (hn : op.accessedName? h = some name) :
    AtSite.Archives StubKey.Describes site name := by
  intro shared mono shape hs
  have named : site.target.name = some name := by
    simpa [keepsName, shared, mono, hn] using keeps
  exact ⟨mono, rfl, named, hs⟩

/-! ### Runs -/

namespace Session

variable {s : Session} {may : StubKey.Admission}

/-- The session is sound and its stub cache has only what may be there. -/
structure Filed (rules : Rules) (may : StubKey.Admission) (s : Session) : Prop where
  sound : s.Sound rules
  cached : ∀ {key : StubKey} {stub : Stub}, s.engine.stubCache.peek? key = some stub → may key stub

theorem filed_ofConfig {around : Surroundings} (lawful : around.host.Lawful rules)
    (may : StubKey.Admission) (config : Config) : (ofConfig config around).Filed rules may :=
  ⟨sound_ofConfig lawful config, fun h => by cases h⟩

/-- An operation that admits nothing else keeps the stub cache so. -/
theorem Filed.perform (f : s.Filed rules may) {op : Operation} (allowed : s.Allowed rules op)
    (admits : s.engine.Admits may (s.perform op).engine) : (s.perform op).Filed rules may :=
  ⟨f.sound.perform op allowed, fun h => (admits.cached h).elim f.cached fun admitted => admitted⟩

section Run

variable {config : Config} {around : Surroundings} (lawful : around.host.Lawful rules)
  {ops : List Operation} (allowed : (ofConfig config around).AllowedRun rules ops)
  (suits : (ofConfig config around).keepsTo own ops)

include lawful allowed suits

/-- All but the name, whatever the sites are used for. -/
theorem filed_covers :
    ((ofConfig config around).run ops).Filed rules StubKey.Covers := by
  refine run_invariant (filed_ofConfig lawful _ config) allowed suits fun {s op} f allowed suits => ?_
  exact f.perform allowed (perform_admits f.sound suits (fun d => d.covers)
    fun _ _ _ => StubKey.Covers.archives _ _)

/-- The name as well, if sites keep to their names. -/
theorem filed_describes
    (keeps : (ofConfig config around).keepsTo (fun h site op => op.keepsName h site) ops) :
    ((ofConfig config around).run ops).Filed rules StubKey.Describes := by
  have both := keepsTo_and suits keeps
  refine run_invariant (filed_ofConfig lawful _ config) allowed both fun {s op} f allowed both => ?_
  obtain ⟨suits, keeps⟩ := meets_and.1 both
  refine f.perform allowed (perform_admits f.sound suits (fun d => d) fun {i o site name} e hs => ?_)
  subst e
  exact SiteOperation.archives_of_keepsName (meets_atSite keeps hs)

end Run

end Session

open Session in
/-- **What the stub cache has under a key.** Let every site be used with operations of its own kind.
Then every stub in the stub cache is monomorphic, of the kind of its key and found under the shape of
its key; and if monomorphic sites are used only for the name that their stub was made for, then it was
made for the name of its key. -/
theorem stub_cache_keys {config : Config} {around : Surroundings} (lawful : around.host.Lawful rules)
    {ops : List Operation} (allowed : (ofConfig config around).AllowedRun rules ops)
    (suits : (ofConfig config around).keepsTo own ops) {key : StubKey} {stub : Stub}
    (cached : ((ofConfig config around).run ops).engine.stubCache.peek? key = some stub) :
    stub.state = .monomorphic ∧ stub.kind = key.kind ∧ stub.probeShape? = some key.shape ∧
      ((ofConfig config around).keepsTo (fun h site op => op.keepsName h site) ops →
        stub.name = some key.name) := by
  obtain ⟨state, kind, shape⟩ := (filed_covers lawful allowed suits).cached cached
  exact ⟨state, kind, shape, fun keeps => ((filed_describes lawful allowed suits keeps).cached cached).name⟩

/-- Calls of one name on a primitive string and on an object. The stub for the string stands under the
shape of the prototype of strings. -/
theorem stub_cache_keys_calls :
    let call (receiver : ObjectId) : Operation :=
      .atSite 0 (.call (.object receiver) .charAt [.smi 0])
    let ops : List Operation := [
      .onHeap (.string "abc"), .onHeap (.hostFunction "f" 0 (.provided 0)), .onHeap .object,
      .access (.setProperty (.object ⟨13⟩) .charAt (.object ⟨12⟩) false), .newSite .call {},
      call ⟨10⟩, call ⟨10⟩, call ⟨13⟩, call ⟨13⟩]
    let session := (Session.ofConfig {}).run ops
    let cached (shape : ShapeId) : Prop := ∃ stub,
      session.engine.stubCache.peek? ⟨.charAt, shape, .call⟩ = some stub ∧
      stub.kind = .call ∧ stub.name = some .charAt ∧ stub.probeShape? = some shape
    cached ⟨12⟩ ∧ cached ⟨13⟩ := by
  intro call ops session cached
  have lawful : (Surroundings.host {}).Lawful {} := Host.idle_does _ _
  have allowed : (Session.ofConfig {}).AllowedRun {} ops :=
    ⟨trivial, trivial, trivial, trivial, trivial, trivial, trivial, trivial, trivial, trivial⟩
  have entered (shape : ShapeId)
      (hc : ∃ stub, session.engine.stubCache.peek? ⟨.charAt, shape, .call⟩ = some stub ∧ True) :
      cached shape := by
    obtain ⟨stub, hc, -⟩ := hc
    obtain ⟨-, kind, shape, named⟩ := stub_cache_keys lawful allowed (by decide +kernel) hc
    exact ⟨stub, hc, kind, named (by decide +kernel), shape⟩
  exact ⟨entered ⟨12⟩ (by decide +kernel), entered ⟨13⟩ (by decide +kernel)⟩

/-- A keyed call of another method on the same object enters the stub of the first one under the name
of the second, where the next call of that name finds it. -/
theorem stub_cache_misnames :
    let call (key : ObjectId) : Operation := .atSite 0 (.keyedCall (.object ⟨12⟩) (.object key) [])
    let ops : List Operation := [
      .onHeap (.hostFunction "f" 0 (.provided 0)), .onHeap .object,
      .access (.setProperty (.object ⟨12⟩) ⟨"x"⟩ (.object ⟨11⟩) false),
      .access (.setProperty (.object ⟨12⟩) ⟨"y"⟩ (.object ⟨11⟩) false),
      .onHeap (.internalize "x"), .onHeap (.internalize "y"), .onHeap (.intern ⟨"x"⟩),
      .onHeap (.intern ⟨"y"⟩), .newSite .keyedCall {}, call ⟨13⟩, call ⟨13⟩, call ⟨14⟩]
    let start := Session.ofConfig {}
    start.keepsTo Session.own ops ∧
      ∃ stub, (start.run ops).engine.stubCache.peek? ⟨⟨"y"⟩, ⟨14⟩, .keyedCall⟩ = some stub ∧
        stub.name = some ⟨"x"⟩ := by
  intro call ops start
  exact ⟨by decide +kernel, by decide +kernel⟩

end Speculation
