import Speculation.Cache.Policy
import Speculation.Feedback.Binary
import Speculation.Feedback.Compare
import Speculation.Feedback.ToBoolean
import Speculation.Feedback.Unary

/-!
# Operator sites

Sites of comparisons, operators and truth tests. The result of an operation is that of the
operator alone; what the site has recorded only decides whether it records more.
-/

namespace Speculation

namespace AtSite

/-- Stops at a site whose stub belongs to another kind of operation. -/
def foreign {α : Type} (site : String) : Action α := do
  throw (.violated (.foreignStub site (← current).target.kind))

/-- Installs what is recorded next. -/
def record (text : String) (spec : StubSpec) : Action Unit := do
  trace text
  install (← request spec)

/-- `x op y` at a comparison site. -/
def compare (x y : Value) : Action Value := do
  match (← current).target.handler with
  | .compare f =>
    let h ← heap
    if !f.handles h x y then
      let next := f.next h x y
      record (f.transitionText next) next.spec
    return .boolean (h.compareValues f.op x y)
  | _ => foreign "compare"

/-- `op x` at a site of a unary operator. -/
def unary (x : Value) : Action Value := do
  match (← current).target.handler with
  | .unaryOp f =>
    let result ← onHeap (f.op.evaluate x)
    let h ← heap
    if !f.handles h x result then
      let next := f.next h x
      record (f.transitionText next) next.spec
    return result
  | _ => foreign "unary"

/-- `x op y` at a site of a binary operator. -/
def binary (x y : Value) : Action Value := do
  match (← current).target.handler with
  | .binaryOp f =>
    let result ← onHeap (f.op.evaluate x y)
    let h ← heap
    if !f.handles h x y result then
      let next := f.next h x y
      record (f.transitionText next) next.spec
    return result
  | _ => foreign "binary"

/-- The truth value of `x` at a test site. -/
def toBoolean (x : Value) : Action Bool := do
  match (← current).target.handler with
  | .toBoolean types =>
    let h ← heap
    let observed := TestedType.observed h x
    if !types.contains observed then
      let next := types.insert observed
      record (types.transitionText next) next.spec
    return h.toBoolean x
  | _ => foreign "to-boolean"

end AtSite

end Speculation
