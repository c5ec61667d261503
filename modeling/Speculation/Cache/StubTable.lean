import Speculation.Cache.Site

/-!
# The table of stubs

Stubs are made from specifications. Equal specifications give the same stub, so a site that
specializes again in the same way keeps the identity of its stub. Numbers are handed out in the
order in which specifications first appear: the number of a stub is its place in the table.
-/

namespace Speculation

namespace StubSpec

/-- The stub of a site that has not run. -/
def fresh (kind : SiteKind) (mode : SiteMode) : StubSpec :=
  { kind, state := .uninitialized, mode, handler := .fresh }

/-- The stub that delays specialization by one run. -/
def premonomorphic (kind : SiteKind) (mode : SiteMode) : StubSpec :=
  { kind, state := .premonomorphic, mode, handler := .premonomorphic }

/-- The stub that performs everything by the general rules. -/
def generic (kind : SiteKind) (mode : SiteMode) : StubSpec :=
  { kind, state := .generic, mode, handler := .generic }

/-- The stub that asks the stub cache. Keyed loads and stores have none and go generic. -/
def megamorphic (kind : SiteKind) (mode : SiteMode) : StubSpec :=
  match kind with
  | .keyedLoad | .keyedStore => generic kind mode
  | _ => { kind, state := .megamorphic, mode, handler := .megamorphic }

end StubSpec

/-- All stubs made so far, as their specifications in order. -/
structure StubTable where
  specs : List StubSpec := []
deriving DecidableEq, Repr, Inhabited

namespace StubTable

/-- How many stubs there are. -/
def size (t : StubTable) : Nat := t.specs.length

/-- The stub of a specification, made on first request. -/
def request (t : StubTable) (spec : StubSpec) : Stub × StubTable :=
  match t.specs.idxOf? spec with
  | some i => (⟨i, spec⟩, t)
  | none => (⟨t.specs.length, spec⟩, ⟨t.specs ++ [spec]⟩)

@[simp] theorem spec_request (t : StubTable) (spec : StubSpec) : (t.request spec).1.spec = spec := by
  unfold request
  split <;> rfl

end StubTable

end Speculation
