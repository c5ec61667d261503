import Speculation.Cache.Stub
import Speculation.Table

/-!
# The stub cache

A bounded table that all megamorphic sites share. It maps a name, a shape and a kind of site to
a stub made for them. A full table makes room by dropping one entry before a new key enters; which
one is not decided here, but drawn beforehand. Counters record the traffic; clearing the table does
not reset them.
-/

namespace Speculation

/-- The key of an entry. -/
structure StubKey where
  name : Name
  shape : ShapeId
  kind : SiteKind
deriving DecidableEq, Repr, Inhabited

/-- The stub cache. -/
structure StubCache where
  entries : Table StubKey Stub := {}
  capacity : Nat
  hits : Nat := 0
  misses : Nat := 0
  insertions : Nat := 0
  evictions : Nat := 0
  /-- The draws for the entries to drop; the oldest one when there are no more of them. -/
  draws : List Nat := []
deriving DecidableEq, Repr, Inhabited

namespace StubCache

/-- An empty cache; it has room for at least one entry. -/
def ofCapacity (capacity : Nat) (draws : List Nat := []) : StubCache :=
  { capacity := max capacity 1, draws }

def size (c : StubCache) : Nat := c.entries.size

def isEmpty (c : StubCache) : Bool := c.size == 0

/-- Drops the entry that is drawn. -/
def evictOne (c : StubCache) : StubCache :=
  match c.entries.toList[c.draws.headD 0 % c.size]? with
  | none => c
  | some (k, _) =>
    { c with
      entries := c.entries.erase k
      draws := c.draws.tail
      evictions := c.evictions + 1 }

/-- Enters or replaces the stub of a name and shape. -/
def set (c : StubCache) (name : Name) (shape : ShapeId) (stub : Stub) : StubCache :=
  let key : StubKey := ⟨name, shape, stub.kind⟩
  let c := if !c.entries.contains key && decide (c.capacity ≤ c.size) then c.evictOne else c
  { c with entries := c.entries.insert key stub, insertions := c.insertions + 1 }

/-- The stub of a key, without counting. -/
def peek? (c : StubCache) (key : StubKey) : Option Stub := c.entries.get? key

/-- Looks a key up and counts the outcome. -/
def get (c : StubCache) (key : StubKey) : Option Stub × StubCache :=
  match c.peek? key with
  | some stub => (some stub, { c with hits := c.hits + 1 })
  | none => (none, { c with misses := c.misses + 1 })

/-- Drops all entries of a shape and tells how many there were. -/
def evictShape (c : StubCache) (shape : ShapeId) : Nat × StubCache :=
  let entries := c.entries.filterKeys fun k => k.shape != shape
  let removed := c.size - entries.size
  (removed, { c with entries, evictions := c.evictions + removed })

/-- Drops all entries. -/
def clear (c : StubCache) : StubCache := { c with entries := {} }

end StubCache

end Speculation
