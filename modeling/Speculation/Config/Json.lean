/-!
# Reading JSON

A reader for JSON texts, as far as configurations need one. Texts follow the grammar strictly:
no comments, no trailing commas, no leading zeros, and blanks are space, tab, line feed and
carriage return only.

Of a number only its value as a natural number is kept, if it is written as one (no sign, point
or exponent). Of a string the text is kept, unless it contains half of a surrogate pair.
-/

namespace Speculation

/-- A JSON value. -/
inductive Json where
  | null
  | bool (value : Bool)
  | number (natural? : Option Nat)
  | string (text? : Option String)
  | array (items : List Json)
  | object (members : List (Option String × Json))
deriving Repr, Inhabited

namespace Json

/-- A reader takes a value off the front of a text. -/
abbrev Reader (α : Type) := List Char → Option (α × List Char)

/-- Blanks between tokens. -/
def isSpace (c : Char) : Bool := c == ' ' || c == '\n' || c == '\t' || c == '\r'

def skipSpace (cs : List Char) : List Char := cs.dropWhile isSpace

/-- Takes a fixed word off the front. -/
def expect : List Char → List Char → Option (List Char)
  | [], cs => some cs
  | w :: ws, c :: cs => if w = c then expect ws cs else none
  | _ :: _, [] => none

/-! ### Strings -/

/-- Reads the value of a hexadecimal digit. -/
def hexDigit? (c : Char) : Option Nat :=
  if c.isDigit then some (c.toNat - '0'.toNat)
  else if 'a' ≤ c ∧ c ≤ 'f' then some (c.toNat - 'a'.toNat + 10)
  else if 'A' ≤ c ∧ c ≤ 'F' then some (c.toNat - 'A'.toNat + 10)
  else none

/-- The code unit behind `\u`. -/
def unit? : Reader Nat
  | a :: b :: c :: d :: rest => do
    let a ← hexDigit? a
    let b ← hexDigit? b
    let c ← hexDigit? c
    let d ← hexDigit? d
    return (((a * 16 + b) * 16 + c) * 16 + d, rest)
  | _ => none

/-- The code unit of one character or escape of a string, as one or more units. -/
def stringPiece : Reader (List Nat)
  | '\\' :: 'u' :: rest => (unit? rest).map fun (u, rest) => ([u], rest)
  | '\\' :: c :: rest =>
    match c with
    | '"' => some ([0x22], rest)
    | '\\' => some ([0x5c], rest)
    | '/' => some ([0x2f], rest)
    | 'b' => some ([8], rest)
    | 'f' => some ([12], rest)
    | 'n' => some ([10], rest)
    | 'r' => some ([13], rest)
    | 't' => some ([9], rest)
    | _ => none
  | '\\' :: [] => none
  | c :: rest =>
    if c.toNat < 0x20 then none
    else if c.toNat < 0x10000 then some ([c.toNat], rest)
    else
      some ([0xd800 + (c.toNat - 0x10000) / 0x400, 0xdc00 + (c.toNat - 0x10000) % 0x400], rest)
  | [] => none

/-- The code units up to the closing quote. -/
def stringUnits : Nat → Reader (List Nat)
  | 0, _ => none
  | fuel + 1, cs =>
    match cs with
    | '"' :: rest => some ([], rest)
    | _ => do
      let (us, rest) ← stringPiece cs
      let (more, rest) ← stringUnits fuel rest
      return (us ++ more, rest)

/-- The text of code units, if surrogates stand in pairs. -/
def ofUnits? : List Nat → Option (List Char)
  | [] => some []
  | u :: v :: rest =>
    if 0xd800 ≤ u ∧ u < 0xdc00 then
      if 0xdc00 ≤ v ∧ v < 0xe000 then
        (ofUnits? rest).map (Char.ofNat (0x10000 + (u - 0xd800) * 0x400 + (v - 0xdc00)) :: ·)
      else none
    else if 0xdc00 ≤ u ∧ u < 0xe000 then none
    else (ofUnits? (v :: rest)).map (Char.ofNat u :: ·)
  | [u] => if 0xd800 ≤ u ∧ u < 0xe000 then none else some [Char.ofNat u]

/-- A string behind its opening quote. -/
def stringTail (cs : List Char) : Option (Option String × List Char) :=
  (stringUnits (cs.length + 1) cs).map fun (us, rest) => ((ofUnits? us).map String.ofList, rest)

/-! ### Numbers -/

/-- At least one digit. -/
def digits1 (cs : List Char) : Option (List Char × List Char) :=
  let ds := cs.takeWhile Char.isDigit
  if ds.isEmpty then none else some (ds, cs.dropWhile Char.isDigit)

/-- The integer part: a zero alone, or digits that do not start with one. -/
def integerPart : Reader (List Char)
  | '0' :: rest => if (rest.headD ' ').isDigit then none else some (['0'], rest)
  | cs => digits1 cs

/-- The part behind the integer: nothing, a fraction, an exponent, or both. The flag says whether
there is any. -/
def fractionPart (cs : List Char) : Option (Bool × List Char) := do
  let (hasFraction, rest) ← match cs with
    | '.' :: more => (digits1 more).map fun (_, rest) => (true, rest)
    | _ => some (false, cs)
  match rest with
  | c :: more =>
    if c = 'e' ∨ c = 'E' then
      let unsigned := match more with
        | '+' :: ds => ds
        | '-' :: ds => ds
        | ds => ds
      let (_, rest) ← digits1 unsigned
      return (true, rest)
    else return (hasFraction, rest)
  | [] => return (hasFraction, rest)

/-- A number. -/
def numeral (cs : List Char) : Option (Json × List Char) := do
  let (negative, body) := match cs with
    | '-' :: rest => (true, rest)
    | _ => (false, cs)
  let (ds, rest) ← integerPart body
  let (fractional, rest) ← fractionPart rest
  let natural := if negative || fractional then none
    else some (ds.foldl (fun n c => 10 * n + (c.toNat - '0'.toNat)) 0)
  return (.number natural, rest)

/-! ### Values -/

mutual

/-- Reads a value, with `fuel` bounding the number of values inside it. -/
def value : Nat → List Char → Option (Json × List Char)
  | 0, _ => none
  | fuel + 1, cs =>
    match skipSpace cs with
    | 'n' :: rest => (expect "ull".toList rest).map fun rest => (.null, rest)
    | 't' :: rest => (expect "rue".toList rest).map fun rest => (.bool true, rest)
    | 'f' :: rest => (expect "alse".toList rest).map fun rest => (.bool false, rest)
    | '"' :: rest => (stringTail rest).map fun (s, rest) => (.string s, rest)
    | '[' :: rest =>
      match skipSpace rest with
      | ']' :: rest => some (.array [], rest)
      | rest => (items fuel rest).map fun (is, rest) => (.array is, rest)
    | '\x7b' :: rest =>
      match skipSpace rest with
      | '\x7d' :: rest => some (.object [], rest)
      | rest => (members fuel rest).map fun (ms, rest) => (.object ms, rest)
    | rest => numeral rest

/-- Reads the items of an array, from the first one to the closing bracket. -/
def items : Nat → List Char → Option (List Json × List Char)
  | 0, _ => none
  | fuel + 1, cs => do
    let (v, rest) ← value fuel cs
    match skipSpace rest with
    | ',' :: rest =>
      let (vs, rest) ← items fuel rest
      return (v :: vs, rest)
    | ']' :: rest => return ([v], rest)
    | _ => none

/-- Reads the members of an object, from the first key to the closing brace. -/
def members : Nat → List Char → Option (List (Option String × Json) × List Char)
  | 0, _ => none
  | fuel + 1, cs =>
    match skipSpace cs with
    | '"' :: rest => do
      let (key, rest) ← stringTail rest
      match skipSpace rest with
      | ':' :: rest =>
        let (v, rest) ← value fuel rest
        match skipSpace rest with
        | ',' :: rest =>
          let (ms, rest) ← members fuel rest
          return ((key, v) :: ms, rest)
        | '\x7d' :: rest => return ([(key, v)], rest)
        | _ => none
      | _ => none
    | _ => none

end

/-- Reads a whole text as one value. -/
def parse? (text : String) : Option Json :=
  let cs := text.toList
  match value (2 * cs.length + 2) cs with
  | some (v, rest) => if (skipSpace rest).isEmpty then some v else none
  | none => none

end Json

end Speculation
