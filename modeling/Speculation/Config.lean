import Speculation.Config.Json
import Speculation.Fault

/-!
# Configurations

The settings that steer the inline caches and the deoptimizer, with their defaults, their JSON
form and the values that are refused.

In JSON a configuration is an object whose keys are the names of settings; unknown keys are
ignored, absent ones keep their defaults, and a known key may stand there only once. It may
also be an array of the settings in the order of `Config.keys`, cut off anywhere.
-/

namespace Speculation

/-- Settings of an isolate. -/
structure Config where
  /-- Whether cache sites may change at all. -/
  useIc : Bool := true
  /-- The most shapes that a polymorphic keyed stub covers. -/
  maxKeyedPolymorphism : Nat := 4
  /-- How many entries the stub cache holds. -/
  stubCacheCapacity : Nat := 2048
  traceIc : Bool := false
  traceDeopt : Bool := false
  traceOsr : Bool := false
  /-- Bailouts after which a function is not optimized again. -/
  maxDeoptCount : Nat := 10
deriving DecidableEq, Repr, Inhabited

namespace Config

/-- The names of the settings in JSON, in order. -/
def keys : List String :=
  ["use_ic", "max_keyed_polymorphism", "stub_cache_capacity", "trace_ic", "trace_deopt",
   "trace_osr", "max_deopt_count"]

/-- Refuses settings that nothing can work with; the first one in order is reported. -/
def validate (c : Config) : Except ConfigError Config :=
  if c.maxKeyedPolymorphism = 0 then .error .zeroPolymorphism
  else if c.stubCacheCapacity = 0 then .error .zeroCapacity
  else if c.maxDeoptCount = 0 then .error .zeroDeoptCount
  else .ok c

/-! ### From JSON -/

/-- A natural number below a bound. -/
def natural? (bound : Nat) : Json → Option Nat
  | .number (some n) => if n < bound then some n else none
  | _ => none

def bool? : Json → Option Bool
  | .bool b => some b
  | _ => none

/-- Sets one setting by name; the value must have the right type and range. -/
def set? (c : Config) (key : String) (v : Json) : Option Config :=
  match key with
  | "use_ic" => (bool? v).map fun b => { c with useIc := b }
  | "max_keyed_polymorphism" =>
    (natural? (2 ^ 64) v).map fun n => { c with maxKeyedPolymorphism := n }
  | "stub_cache_capacity" =>
    (natural? (2 ^ 64) v).map fun n => { c with stubCacheCapacity := n }
  | "trace_ic" => (bool? v).map fun b => { c with traceIc := b }
  | "trace_deopt" => (bool? v).map fun b => { c with traceDeopt := b }
  | "trace_osr" => (bool? v).map fun b => { c with traceOsr := b }
  | "max_deopt_count" => (natural? (2 ^ 32) v).map fun n => { c with maxDeoptCount := n }
  | _ => some c

/-- Applies the members of an object; `seen` are the known keys met before. -/
def ofMembers? (c : Config) (seen : List String) : List (Option String × Json) → Option Config
  | [] => some c
  | (none, _) :: _ => none
  | (some key, v) :: rest =>
    if keys.contains key then
      if seen.contains key then none
      else (c.set? key v).bind fun c => ofMembers? c (key :: seen) rest
    else ofMembers? c seen rest

/-- Applies the items of an array in the order of the keys. -/
def ofItems? (c : Config) : List String → List Json → Option Config
  | _, [] => some c
  | [], _ :: _ => none
  | key :: ks, v :: vs => (c.set? key v).bind fun c => ofItems? c ks vs

/-- The configuration that a JSON value denotes. -/
def ofJson? : Json → Option Config
  | .object ms => ofMembers? {} [] ms
  | .array vs => ofItems? {} keys vs
  | _ => none

/-- Reads a configuration. -/
def read? (text : String) : Option Config := (Json.parse? text).bind ofJson?

/-- Reads and checks a configuration. -/
def parse (text : String) : Except ConfigError Config :=
  match read? text with
  | none => .error .unreadable
  | some c => c.validate

/-! ### To JSON -/

/-- The values of the settings in JSON, in order. -/
def values (c : Config) : List String :=
  let bool (b : Bool) := if b then "true" else "false"
  [bool c.useIc, toString c.maxKeyedPolymorphism, toString c.stubCacheCapacity, bool c.traceIc,
   bool c.traceDeopt, bool c.traceOsr, toString c.maxDeoptCount]

/-- The configuration as indented JSON. -/
def pretty (c : Config) : String :=
  let line (p : String × String) := "  \"" ++ p.1 ++ "\": " ++ p.2
  "\x7b\n" ++ ",\n".intercalate ((keys.zip c.values).map line) ++ "\n\x7d"

end Config

end Speculation
