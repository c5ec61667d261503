/-!
# Elements kinds

How the indexed part of an object is represented. A kind is a pair of what the elements may be
(`Storage`, growing from small integers over numbers to any value) and whether there may be
holes among them. Both parts only ever grow, so kinds form a lattice, the product of a chain of
three and a chain of two, with `union` as its least upper bound.
-/

namespace Speculation

/-- What the elements may be. -/
inductive Storage where
  | smi
  | double
  | tagged
deriving DecidableEq, Repr, Inhabited

namespace Storage

/-- Position in the chain `smi < double < tagged`. -/
def rank : Storage → Nat
  | .smi => 0
  | .double => 1
  | .tagged => 2

/-- The wider of two storages. -/
def max (a b : Storage) : Storage := if a.rank ≤ b.rank then b else a

def label : Storage → String
  | .smi => "Smi"
  | .double => "Double"
  | .tagged => "Tagged"

end Storage

/-- The representation of an object's elements. -/
structure ElementsKind where
  storage : Storage
  holey : Bool
deriving DecidableEq, Repr, Inhabited

namespace ElementsKind

def packedSmi : ElementsKind := ⟨.smi, false⟩

def holeySmi : ElementsKind := ⟨.smi, true⟩

def packedDouble : ElementsKind := ⟨.double, false⟩

def holeyDouble : ElementsKind := ⟨.double, true⟩

def packed : ElementsKind := ⟨.tagged, false⟩

def holeyTagged : ElementsKind := ⟨.tagged, true⟩

/-- Every kind, by storage and then by packing. -/
def all : List ElementsKind :=
  [packedSmi, holeySmi, packedDouble, holeyDouble, packed, holeyTagged]

def isSmi (k : ElementsKind) : Bool := k.storage == .smi

def isDouble (k : ElementsKind) : Bool := k.storage == .double

/-- The kind with the same storage that admits holes. -/
def toHoley (k : ElementsKind) : ElementsKind := { k with holey := true }

/-- The least kind above two kinds. -/
def union (a b : ElementsKind) : ElementsKind := ⟨a.storage.max b.storage, a.holey || b.holey⟩

/-- The order of the lattice. -/
def le (a b : ElementsKind) : Bool :=
  decide (a.storage.rank ≤ b.storage.rank) && (!a.holey || b.holey)

/-- Whether moving from `a` to `b` is a move to a strictly more general kind. -/
def generalizesTo (a b : ElementsKind) : Bool := decide (a ≠ b) && a.le b

/-- The name of a kind in traces. -/
def name : ElementsKind → String
  | ⟨.smi, false⟩ => "FAST_SMI_ELEMENTS"
  | ⟨.smi, true⟩ => "FAST_HOLEY_SMI_ELEMENTS"
  | ⟨.double, false⟩ => "FAST_DOUBLE_ELEMENTS"
  | ⟨.double, true⟩ => "FAST_HOLEY_DOUBLE_ELEMENTS"
  | ⟨.tagged, false⟩ => "FAST_ELEMENTS"
  | ⟨.tagged, true⟩ => "FAST_HOLEY_ELEMENTS"

def ofName? (name : String) : Option ElementsKind := all.find? fun k => k.name == name

/-- The name of a kind in a summary of an object. -/
def label : ElementsKind → String
  | ⟨.smi, false⟩ => "PackedSmi"
  | ⟨.smi, true⟩ => "HoleySmi"
  | ⟨.double, false⟩ => "PackedDouble"
  | ⟨.double, true⟩ => "HoleyDouble"
  | ⟨.tagged, false⟩ => "Packed"
  | ⟨.tagged, true⟩ => "Holey"

theorem union_comm (a b : ElementsKind) : a.union b = b.union a := by
  obtain ⟨s, p⟩ := a
  obtain ⟨t, q⟩ := b
  cases s <;> cases p <;> cases t <;> cases q <;> rfl

@[simp] theorem le_refl (a : ElementsKind) : a.le a := by simp [le]

theorem le_trans {a b c : ElementsKind} (h : a.le b) (h' : b.le c) : a.le c := by
  simp only [le, Bool.and_eq_true, decide_eq_true_eq, Bool.or_eq_true, Bool.not_eq_true'] at *
  refine ⟨Nat.le_trans h.1 h'.1, ?_⟩
  rcases h.2 with e | e
  · exact .inl e
  · exact h'.2.imp (fun e' => absurd (e.symm.trans e') (by simp)) id

theorem packedSmi_le (a : ElementsKind) : packedSmi.le a := by
  obtain ⟨s, p⟩ := a
  cases s <;> cases p <;> rfl

/-- A kind that a store may move to is at least as general. -/
theorem le_of_generalizesTo {a b : ElementsKind} (h : a.generalizesTo b) : a.le b := by
  simp only [generalizesTo, Bool.and_eq_true] at h
  exact h.2

/-- A strictly more general kind is one that a store may move to. -/
theorem generalizesTo_of_le {a b : ElementsKind} (h : a.le b) (ne : a ≠ b) : a.generalizesTo b := by
  simp [generalizesTo, h, ne]

/-- Only the storage of a union may be more general. -/
theorem le_storage_union (a b : ElementsKind) : a.le ⟨(a.union b).storage, a.holey⟩ := by
  obtain ⟨s, p⟩ := a
  obtain ⟨t, q⟩ := b
  cases s <;> cases p <;> cases t <;> rfl

/-- Nothing is wider than tagged storage. -/
theorem tagged_of_le {a b : ElementsKind} (h : a.le b) (ha : a.storage = .tagged) :
    b.storage = .tagged := by
  obtain ⟨s, p⟩ := a
  obtain ⟨t, q⟩ := b
  cases ha
  cases t <;> simp_all [le, Storage.rank]

/-- `union` is the least upper bound of the order. -/
theorem union_le {a b c : ElementsKind} : (a.union b).le c = (a.le c && b.le c) := by
  obtain ⟨s, p⟩ := a
  obtain ⟨t, q⟩ := b
  obtain ⟨u, r⟩ := c
  cases s <;> cases p <;> cases t <;> cases q <;> cases u <;> cases r <;> rfl

end ElementsKind

end Speculation
