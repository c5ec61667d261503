import Speculation.Power

/-!
# Tagged values

A `Value` is what a property, an element or a tagged frame word holds: a small integer, one of
a few fixed values, or a reference to an object of the heap. Numbers that are not small
integers and strings live in the heap.
-/

namespace Speculation

/-- The place of an object in the heap. Places are handed out in increasing order and never
reused. -/
structure ObjectId where
  index : Nat
deriving DecidableEq, Repr, Inhabited, Hashable

/-- The place of a shape in the table of shapes. -/
structure ShapeId where
  index : Nat
deriving DecidableEq, Repr, Inhabited, Hashable

/-- The place of the data shared by all closures of one function. -/
structure SharedId where
  index : Nat
deriving DecidableEq, Repr, Inhabited

/-- The place of a code object in the code space. -/
structure CodeId where
  index : Nat
deriving DecidableEq, Repr, Inhabited

def ShapeId.text (s : ShapeId) : String := s!"map#{s.index}"

def CodeId.text (c : CodeId) : String := s!"code#{c.index}"

/-- A property name. Two names are the same exactly when their texts are. -/
structure Name where
  text : String
deriving DecidableEq, Repr, Inhabited

/-- A tagged value. -/
inductive Value where
  | smi (value : Int)
  | undefined
  | null
  | boolean (value : Bool)
  /-- Marks an absent element. -/
  | hole
  /-- Stands where an arguments object is yet to be built. -/
  | argumentsMarker
  | object (id : ObjectId)
deriving DecidableEq, Repr

namespace Value

instance : Inhabited Value := ⟨.undefined⟩

/-- The least small integer. -/
def smiMin : Int := -(2 ^ 30)

/-- The greatest small integer. -/
def smiMax : Int := 2 ^ 30 - 1

/-- Whether an integer is small. -/
def fitsSmi (i : Int) : Bool := decide (smiMin ≤ i ∧ i ≤ smiMax)

/-- The small integer `i`, if it is one. -/
def smi? (i : Int) : Option Value := if fitsSmi i then some (.smi i) else none

def isSmi : Value → Bool
  | .smi _ => true
  | _ => false

def isUndefined : Value → Bool
  | .undefined => true
  | _ => false

def isNull : Value → Bool
  | .null => true
  | _ => false

/-- Property access on `undefined` and `null` throws. -/
def isNullish : Value → Bool
  | .undefined | .null => true
  | _ => false

def isHole : Value → Bool
  | .hole => true
  | _ => false

def isReference : Value → Bool
  | .object _ => true
  | _ => false

/-- The object a value refers to. -/
def objectId? : Value → Option ObjectId
  | .object id => some id
  | _ => none

/-- The integer of a small integer. -/
def smiValue? : Value → Option Int
  | .smi i => some i
  | _ => none

/-- The text of a value in a listing; objects show only their place. -/
def display : Value → String
  | .smi i => toString i
  | .undefined => "undefined"
  | .null => "null"
  | .boolean true => "true"
  | .boolean false => "false"
  | .hole => "<the hole>"
  | .argumentsMarker => "<arguments marker>"
  | .object id => s!"<object #{id.index}>"

end Value

/-- The 32-bit signed integer with the same residue modulo `2 ^ 32`. -/
def wrapInt32 (i : Int) : Int :=
  let u := i.emod (2 ^ 32)
  if u < 2 ^ 31 then u else u - 2 ^ 32

/-- The 32-bit unsigned integer with the same residue modulo `2 ^ 32`. -/
def wrapUint32 (i : Int) : Nat := (i.emod (2 ^ 32)).toNat

end Speculation
