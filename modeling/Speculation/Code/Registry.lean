import Speculation.Code.Space

/-!
# Code waiting for its frames

Code that has been thrown away may still have frames on the stack, which return into it. Until
they are gone the code stays in the registry, where it is found by address. Places of the
registry are reused, so a handle carries the generation of its place and goes stale when the
entry is dropped.
-/

namespace Speculation

/-- Names an entry of the registry, by the last 32 bits of its place. -/
structure CodeHandle where
  index : UInt32
  generation : UInt32
deriving DecidableEq, Repr, Inhabited

def CodeHandle.text (h : CodeHandle) : String :=
  s!"DeoptimizingCodeHandle \x7b index: {h.index.toNat}, generation: {h.generation.toNat} \x7d"

/-- A place of the registry. -/
structure RegistryEntry where
  code : Option CodeId
  generation : UInt32
deriving DecidableEq, Repr, Inhabited

/-- Code that has been thrown away but may still be running. -/
structure CodeRegistry where
  entries : Array RegistryEntry := #[]
  /-- Empty places, the next one to be used first. -/
  free : List UInt32 := []
  /-- How many entries hold code. -/
  live : Nat := 0
deriving DecidableEq, Repr, Inhabited

namespace CodeRegistry

/-- Adds code, in an empty place if there is one. -/
def insert (r : CodeRegistry) (code : CodeId) : CodeHandle × CodeRegistry :=
  match r.free with
  | i :: free =>
    let generation := (r.entries.getD i.toNat default).generation
    (⟨i, generation⟩,
      { entries := r.entries.modify i.toNat fun e => { e with code := some code }
        free
        live := r.live + 1 })
  | [] =>
    (⟨.ofNat r.entries.size, 0⟩, { r with entries := r.entries.push ⟨some code, 0⟩, live := r.live + 1 })

/-- The code behind a handle that is not stale. -/
def get? (r : CodeRegistry) (h : CodeHandle) : Option CodeId :=
  match r.entries[h.index.toNat]? with
  | some e => if e.generation = h.generation then e.code else none
  | none => none

/-- The first registered code that contains an address. -/
def find? (r : CodeRegistry) (space : CodeSpace) (pc : Nat) : Option CodeId :=
  (r.entries.toList.filterMap (·.code)).find? fun c => (space.get c).contains pc

def contains (r : CodeRegistry) (code : CodeId) : Bool :=
  r.entries.toList.any fun e => e.code == some code

/-- Drops the entry behind a handle; tells whether there was one. -/
def drop (r : CodeRegistry) (h : CodeHandle) : Bool × CodeRegistry :=
  match r.get? h with
  | none => (false, r)
  | some _ =>
    (true,
      { entries := r.entries.modify h.index.toNat fun e =>
          { code := none, generation := e.generation + 1 }
        free := h.index :: r.free
        live := r.live - 1 })

end CodeRegistry

end Speculation
