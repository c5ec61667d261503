/-!
# UTF-16 code units

Strings are measured, indexed and ordered by their UTF-16 code units. A character outside the
basic plane is a pair of surrogates; a unit taken alone that is half of such a pair denotes no
character and reads as the replacement character.
-/

namespace Speculation

namespace Text

/-- The code units of a character. -/
def unitsOfChar (c : Char) : List Nat :=
  if c.toNat < 0x10000 then [c.toNat]
  else [0xd800 + (c.toNat - 0x10000) / 0x400, 0xdc00 + (c.toNat - 0x10000) % 0x400]

/-- The code units of a text. -/
def units (s : String) : List Nat := s.toList.flatMap unitsOfChar

/-- The length of a text in code units. -/
def unitLength (s : String) : Nat := (units s).length

/-- The character that one code unit stands for by itself. -/
def charOfUnit (u : Nat) : Char :=
  if 0xd800 ≤ u ∧ u ≤ 0xdfff then '\ufffd' else Char.ofNat u

/-- The text of one code unit. -/
def textOfUnit (u : Nat) : String := String.singleton (charOfUnit u)

/-- Lexicographic order on code units. -/
def unitsLt : List Nat → List Nat → Bool
  | [], [] => false
  | [], _ :: _ => true
  | _ :: _, [] => false
  | a :: as, b :: bs => if a = b then unitsLt as bs else decide (a < b)

/-- The order of two texts by their code units. -/
def before (s t : String) : Bool := unitsLt (units s) (units t)

/-- The order of two texts by their code points. -/
def codePointLt (s t : String) : Bool :=
  unitsLt (s.toList.map Char.toNat) (t.toList.map Char.toNat)

end Text

end Speculation
