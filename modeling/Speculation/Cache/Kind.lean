/-!
# Kinds of inline caches

Every cache site performs one kind of operation. The first six kinds are property accesses and
calls; the last four collect the types of operands.
-/

namespace Speculation

/-- What a cache site does. -/
inductive SiteKind where
  | load
  | keyedLoad
  | store
  | keyedStore
  | call
  | keyedCall
  | compare
  | unaryOp
  | binaryOp
  | toBoolean
deriving DecidableEq, Repr, Inhabited

namespace SiteKind

def all : List SiteKind :=
  [load, keyedLoad, store, keyedStore, call, keyedCall, compare, unaryOp, binaryOp, toBoolean]

def name : SiteKind → String
  | load => "LoadIC"
  | keyedLoad => "KeyedLoadIC"
  | store => "StoreIC"
  | keyedStore => "KeyedStoreIC"
  | call => "CallIC"
  | keyedCall => "KeyedCallIC"
  | compare => "CompareIC"
  | unaryOp => "UnaryOpIC"
  | binaryOp => "BinaryOpIC"
  | toBoolean => "ToBooleanIC"

def ofName? (name : String) : Option SiteKind := all.find? fun k => k.name == name

/-- The property is a computed value instead of a fixed name. -/
def isKeyed : SiteKind → Bool
  | keyedLoad | keyedStore | keyedCall => true
  | _ => false

/-- The stub is chosen from a property lookup. -/
def isPropertyAccess : SiteKind → Bool
  | load | keyedLoad | store | keyedStore | call | keyedCall => true
  | _ => false

def isCall : SiteKind → Bool
  | call | keyedCall => true
  | _ => false

def isStore : SiteKind → Bool
  | store | keyedStore => true
  | _ => false

end SiteKind

end Speculation
