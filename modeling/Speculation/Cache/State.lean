/-!
# States of cache sites

How many kinds of receivers or operands a site has met, and the settings that a site passes on
to its stubs.
-/

namespace Speculation

/-- What a site has met so far. -/
inductive SiteState where
  | uninitialized
  | premonomorphic
  | monomorphic
  /-- Monomorphic, but an assumption about the prototype chain no longer holds. -/
  | prototypeFailure
  | polymorphic
  | megamorphic
  | generic
  /-- The debugger has a break on the site. -/
  | debugStub
deriving DecidableEq, Repr, Inhabited

namespace SiteState

/-- The mark of a state in traces. -/
def mark : SiteState → String
  | uninitialized => "0"
  | premonomorphic => "."
  | monomorphic => "1"
  | prototypeFailure => "^"
  | polymorphic => "P"
  | megamorphic => "N"
  | generic => "G"
  | debugStub => "D"

def name : SiteState → String
  | uninitialized => "UNINITIALIZED"
  | premonomorphic => "PREMONOMORPHIC"
  | monomorphic => "MONOMORPHIC"
  | prototypeFailure => "MONOMORPHIC_PROTOTYPE_FAILURE"
  | polymorphic => "POLYMORPHIC"
  | megamorphic => "MEGAMORPHIC"
  | generic => "GENERIC"
  | debugStub => "DEBUG_STUB"

end SiteState

/-- Settings of a site that its stubs inherit. -/
structure SiteMode where
  /-- The code around a store is strict. -/
  strict : Bool := false
  /-- A keyed store may append to an array. -/
  grow : Bool := false
  /-- A string method was seen with an index outside the string. -/
  outOfBounds : Bool := false
deriving DecidableEq, Repr, Inhabited

end Speculation
