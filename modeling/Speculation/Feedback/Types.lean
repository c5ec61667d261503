import Speculation.Cache.State
import Speculation.Value

/-!
# Recorded operand types

Operator sites do not look at shapes but at the types of their operands. This module has the
operators, the types that are recorded for each family of operators, and what a site records;
how types are observed and widened is in the modules beside this one.
-/

namespace Speculation

/-! ### Unary operators -/

inductive UnaryOperator where
  /-- Negation. -/
  | sub
  | bitNot
deriving DecidableEq, Repr, Inhabited

namespace UnaryOperator

def all : List UnaryOperator := [sub, bitNot]

def name : UnaryOperator → String
  | sub => "SUB"
  | bitNot => "BIT_NOT"

def ofName? (name : String) : Option UnaryOperator := all.find? fun o => o.name == name

end UnaryOperator

/-- Operand types of unary operators, from narrow to wide. -/
inductive UnaryType where
  | uninitialized
  | smi
  | number
  | generic
deriving DecidableEq, Repr, Inhabited

namespace UnaryType

def all : List UnaryType := [uninitialized, smi, number, generic]

def name : UnaryType → String
  | uninitialized => "Uninitialized"
  | smi => "Smi"
  | number => "Number"
  | generic => "Generic"

def ofName? (name : String) : Option UnaryType := all.find? fun t => t.name == name

/-- Position in the chain of types. -/
def rank : UnaryType → Nat
  | uninitialized => 0
  | smi => 1
  | number => 2
  | generic => 3

def siteState : UnaryType → SiteState
  | uninitialized => .uninitialized
  | smi | number => .monomorphic
  | generic => .generic

/-- The type to record after a miss that observed a type. A miss on a small integer that is
already recorded means that the result left the small integers. -/
def widen : UnaryType → UnaryType → UnaryType
  | uninitialized, observed => observed
  | smi, generic => generic
  | smi, _ => number
  | number, _ => generic
  | generic, _ => generic

end UnaryType

/-- What a unary site records. -/
structure UnaryFeedback where
  op : UnaryOperator
  operand : UnaryType
deriving DecidableEq, Repr, Inhabited

/-- Nothing recorded yet. -/
def UnaryFeedback.fresh (op : UnaryOperator) : UnaryFeedback := ⟨op, .uninitialized⟩

/-! ### Binary operators -/

inductive BinaryOperator where
  | add
  | sub
  | mul
  | div
  | mod
  | bitOr
  | bitAnd
  | bitXor
  /-- Arithmetic shift right. -/
  | sar
  /-- Logical shift right. -/
  | shr
  | shl
deriving DecidableEq, Repr, Inhabited

namespace BinaryOperator

def all : List BinaryOperator :=
  [add, sub, mul, div, mod, bitOr, bitAnd, bitXor, sar, shr, shl]

def name : BinaryOperator → String
  | add => "ADD"
  | sub => "SUB"
  | mul => "MUL"
  | div => "DIV"
  | mod => "MOD"
  | bitOr => "BIT_OR"
  | bitAnd => "BIT_AND"
  | bitXor => "BIT_XOR"
  | sar => "SAR"
  | shr => "SHR"
  | shl => "SHL"

def ofName? (name : String) : Option BinaryOperator := all.find? fun o => o.name == name

def isBitwise : BinaryOperator → Bool
  | bitOr | bitAnd | bitXor | sar | shr | shl => true
  | _ => false

end BinaryOperator

/-- Operand and result types of binary operators, from narrow to wide. -/
inductive BinaryType where
  | uninitialized
  | smi
  | int32
  | number
  /-- `undefined` in arithmetic. -/
  | oddball
  | string
  | generic
deriving DecidableEq, Repr, Inhabited

namespace BinaryType

def all : List BinaryType := [uninitialized, smi, int32, number, oddball, string, generic]

def name : BinaryType → String
  | uninitialized => "Uninitialized"
  | smi => "Smi"
  | int32 => "Int32"
  | number => "Number"
  | oddball => "Oddball"
  | string => "String"
  | generic => "Generic"

def ofName? (name : String) : Option BinaryType := all.find? fun t => t.name == name

/-- Position in the chain of types. -/
def rank : BinaryType → Nat
  | uninitialized => 0
  | smi => 1
  | int32 => 2
  | number => 3
  | oddball => 4
  | string => 5
  | generic => 6

/-- The wider of two types. -/
def max (a b : BinaryType) : BinaryType := if a.rank ≤ b.rank then b else a

def siteState : BinaryType → SiteState
  | uninitialized => .uninitialized
  | generic => .generic
  | _ => .monomorphic

def isNumeric : BinaryType → Bool
  | smi | int32 | number => true
  | _ => false

/-- Whether an operand of the observed type is covered. Strings are covered by themselves and
by the widest type only. -/
def accepts : BinaryType → BinaryType → Bool
  | generic, _ => true
  | string, observed => observed == string
  | recorded, observed => observed != string && decide (observed.rank ≤ recorded.rank)

/-- The type to record after observing a type. Strings mix with nothing else. -/
def widen : BinaryType → BinaryType → BinaryType
  | string, observed => if observed == string then string else generic
  | recorded, observed => recorded.max observed

end BinaryType

/-- What a binary site records. -/
structure BinaryFeedback where
  op : BinaryOperator
  left : BinaryType
  right : BinaryType
  /-- The widest result that went beyond the operand types. -/
  result : BinaryType
deriving DecidableEq, Repr, Inhabited

namespace BinaryFeedback

/-- Nothing recorded yet. -/
def fresh (op : BinaryOperator) : BinaryFeedback :=
  ⟨op, .uninitialized, .uninitialized, .uninitialized⟩

/-- The wider of the two operand types. -/
def overall (f : BinaryFeedback) : BinaryType := f.left.max f.right

end BinaryFeedback

/-! ### Comparisons -/

inductive CompareOperator where
  | eq
  | strictEq
  | lt
  | gt
  | lte
  | gte
deriving DecidableEq, Repr, Inhabited

namespace CompareOperator

def all : List CompareOperator := [eq, strictEq, lt, gt, lte, gte]

def name : CompareOperator → String
  | eq => "EQ"
  | strictEq => "EQ_STRICT"
  | lt => "LT"
  | gt => "GT"
  | lte => "LTE"
  | gte => "GTE"

def ofName? (name : String) : Option CompareOperator := all.find? fun o => o.name == name

def isEquality : CompareOperator → Bool
  | eq | strictEq => true
  | _ => false

def isOrdered (o : CompareOperator) : Bool := !o.isEquality

end CompareOperator

/-- Operand types of comparisons, and what a comparison stub handles. -/
inductive CompareType where
  | uninitialized
  | smi
  | number
  /-- Strings that are the same exactly when they are the same object. -/
  | internalizedString
  | string
  | object
  /-- Objects of one known shape. -/
  | knownObject
  | generic
deriving DecidableEq, Repr, Inhabited

namespace CompareType

def all : List CompareType :=
  [uninitialized, smi, number, internalizedString, string, object, knownObject, generic]

def name : CompareType → String
  | uninitialized => "UNINITIALIZED"
  | smi => "SMI"
  | number => "NUMBER"
  | internalizedString => "INTERNALIZED_STRING"
  | string => "STRING"
  | object => "OBJECT"
  | knownObject => "KNOWN_OBJECT"
  | generic => "GENERIC"

def ofName? (name : String) : Option CompareType := all.find? fun t => t.name == name

def siteState : CompareType → SiteState
  | uninitialized => .uninitialized
  | generic => .generic
  | _ => .monomorphic

end CompareType

/-- What a comparison site records. -/
structure CompareFeedback where
  op : CompareOperator
  left : CompareType
  right : CompareType
  state : CompareType
  /-- The shape that both operands have in the state of known objects. -/
  knownShape : Option ShapeId
deriving DecidableEq, Repr, Inhabited

/-- Nothing recorded yet. -/
def CompareFeedback.fresh (op : CompareOperator) : CompareFeedback :=
  ⟨op, .uninitialized, .uninitialized, .uninitialized, none⟩

/-! ### Truth values -/

/-- The types told apart when a value is tested. -/
inductive TestedType where
  | undefined
  | boolean
  | null
  | smi
  | specObject
  | string
  | heapNumber
  | internalObject
deriving DecidableEq, Repr, Inhabited

namespace TestedType

/-- All types; the position of a type in this list is the position of its bit. -/
def all : List TestedType :=
  [undefined, boolean, null, smi, specObject, string, heapNumber, internalObject]

def name : TestedType → String
  | undefined => "UNDEFINED"
  | boolean => "BOOLEAN"
  | null => "NULL"
  | smi => "SMI"
  | specObject => "SPEC_OBJECT"
  | string => "STRING"
  | heapNumber => "HEAP_NUMBER"
  | internalObject => "INTERNAL_OBJECT"

def bit : TestedType → Nat
  | undefined => 1
  | boolean => 2
  | null => 4
  | smi => 8
  | specObject => 16
  | string => 32
  | heapNumber => 64
  | internalObject => 128

end TestedType

/-- The types a truth test has met, in the order of `TestedType.all`. -/
structure TestedTypes where
  members : List TestedType := []
deriving DecidableEq, Repr, Inhabited

namespace TestedTypes

def contains (s : TestedTypes) (t : TestedType) : Bool := s.members.contains t

def insert (s : TestedTypes) (t : TestedType) : TestedTypes :=
  ⟨TestedType.all.filter fun u => u == t || s.contains u⟩

def isEmpty (s : TestedTypes) : Bool := s.members.isEmpty

/-- The set as a word of bits. -/
def bits (s : TestedTypes) : Nat := s.members.foldl (fun w t => w + t.bit) 0

def siteState (s : TestedTypes) : SiteState :=
  if s.isEmpty then .uninitialized else .monomorphic

/-- The set in traces. -/
def text (s : TestedTypes) : String :=
  let inner := if s.isEmpty then "0x0" else " | ".intercalate (s.members.map TestedType.name)
  s!"ToBooleanTypes({inner})"

theorem contains_insert (s : TestedTypes) (t u : TestedType) :
    (s.insert t).contains u = (u == t || s.contains u) := by
  have h : u ∈ TestedType.all := by cases u <;> decide
  simp only [insert, contains, List.contains_eq_mem, List.mem_filter, h, true_and,
    Bool.decide_eq_true]

end TestedTypes

end Speculation
