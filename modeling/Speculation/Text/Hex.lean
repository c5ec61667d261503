import Speculation.Double.Text
import Speculation.Fault

/-!
# Hex dumps

A byte string is written as pairs of hexadecimal digits, in lower case. When read, blanks and
commas are ignored wherever they stand, one `0x` in front is allowed, and digits may be of
either case. The text is cut into pairs of UTF-8 bytes: a two-byte character is one invalid
pair, and a pair may not end inside a character.

Within a pair a plus sign may stand in front of a single digit.
-/

namespace Speculation

namespace Hex

/-- Digits as they remain after blanks and commas are dropped and one `0x` is taken off. -/
def digits (text : String) : List Char :=
  match text.toList.filter (fun c => !Text.isBlank c && c != ',') with
  | '0' :: 'x' :: rest => rest
  | cs => cs

/-- The byte that a pair of characters stands for. -/
def byte? (c d : Char) : Option UInt8 :=
  if c = '+' then (Double.hexDigit? d).map UInt8.ofNat
  else
    match Double.hexDigit? c, Double.hexDigit? d with
    | some h, some l => some (UInt8.ofNat (16 * h + l))
    | _, _ => none

/-- The bytes of a list of digits. -/
def bytes : List Char → Except HexError (List UInt8)
  | [] => .ok []
  | [c] => if c.utf8Size = 2 then .error (.invalidByte (String.singleton c)) else .error .splitCharacter
  | c :: d :: rest =>
    if c.utf8Size = 2 then .error (.invalidByte (String.singleton c))
    else if c.utf8Size = 1 ∧ d.utf8Size = 1 then
      match byte? c d with
      | none => .error (.invalidByte (String.ofList [c, d]))
      | some b => (bytes rest).map (b :: ·)
    else .error .splitCharacter

/-- Reads a hex dump. -/
def parse (text : String) : Except HexError (List UInt8) :=
  let cs := digits text
  if (String.ofList cs).utf8ByteSize % 2 = 1 then .error .oddDigits else bytes cs

/-- A hexadecimal digit. -/
def digitChar (n : Nat) : Char := (Nat.toDigits 16 (n % 16)).headD '0'

/-- The dump of a byte string. -/
def render (bs : List UInt8) : String :=
  String.ofList (bs.flatMap fun b => [digitChar (b.toNat / 16), digitChar b.toNat])

/-- The sixteen digits of a 64-bit word. -/
def word (w : UInt64) : String :=
  String.ofList ((List.range 16).reverse.map fun i => digitChar (w.toNat / 16 ^ i))

/-- The word that hexadecimal digits stand for. -/
def word? (text : String) : Option UInt64 := (Double.ofHexDigits? 0 text.toList).map UInt64.ofNat

end Hex

end Speculation
