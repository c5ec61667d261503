import Speculation.Cache.Stub

/-!
# Cache sites

A site is the cell through which generated code performs an operation. It holds the stub that is
installed now and counts how often that changed. A break of the debugger only changes what the
site reports; the stub underneath goes on changing.
-/

namespace Speculation

/-- A cache site. -/
structure Site where
  kind : SiteKind
  target : Stub
  /-- The first shape of the installed stub. -/
  cachedShape : Option ShapeId
  debugBreak : Bool := false
  /-- How often a stub was installed. -/
  patches : Nat := 0
deriving DecidableEq, Repr, Inhabited

namespace Site

/-- A site with its first stub. -/
def ofStub (s : Stub) : Site := { kind := s.kind, target := s, cachedShape := s.firstShape? }

/-- The state that the site reports. -/
def state (s : Site) : SiteState := if s.debugBreak then .debugStub else s.target.state

/-- The state of the installed stub. -/
def targetState (s : Site) : SiteState := s.target.state

def mode (s : Site) : SiteMode := s.target.mode

/-- Installs a stub. -/
def patch (s : Site) (stub : Stub) : Site :=
  { s with target := stub, cachedShape := stub.firstShape?, patches := s.patches + 1 }

end Site

end Speculation
