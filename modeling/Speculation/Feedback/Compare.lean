import Speculation.Heap.Convert

/-!
# Feedback of comparisons

A comparison site records the type of each operand and a state that says which operands its stub
handles. Every miss widens; there is no way back. `compareValues` says what a comparison yields
and does not look at what is recorded.
-/

namespace Speculation

/-! ### What comparisons yield -/

namespace Heap

/-- Internal markers compare as `undefined`. -/
def comparand : Value → Value
  | .hole | .argumentsMarker => .undefined
  | v => v

/-- `x === y` -/
def strictEquals (h : Heap) (x y : Value) : Bool :=
  let x := comparand x
  let y := comparand y
  match h.numberValue? x, h.numberValue? y with
  | some a, some b => a.eq b
  | _, _ =>
    match h.string? x, h.string? y with
    | some a, some b => a == b
    | _, _ => x == y

/-- `x == y`. Objects are not converted to primitive values. -/
def looseEquals (h : Heap) (x y : Value) : Bool :=
  let x := comparand x
  let y := comparand y
  if x.isNullish || y.isNullish then x.isNullish && y.isNullish
  else
    match h.isJsObject x, h.isJsObject y with
    | true, true => x == y
    | true, false | false, true => false
    | false, false =>
      match h.string? x, h.string? y with
      | some a, some b => a == b
      | _, _ => (h.toNumber x).eq (h.toNumber y)

/-- How two values are ordered; values that convert to NaN are not. Strings are ordered by their
code units. -/
def order? (h : Heap) (x y : Value) : Option Ordering :=
  let x := comparand x
  let y := comparand y
  match h.string? x, h.string? y with
  | some a, some b =>
    some (if Text.before a b then .lt else if Text.before b a then .gt else .eq)
  | _, _ =>
    let a := h.toNumber x
    let b := h.toNumber y
    if a.lt b then some .lt
    else if b.lt a then some .gt
    else if a.eq b then some .eq
    else none

/-- The result of a comparison. -/
def compareValues (h : Heap) (op : CompareOperator) (x y : Value) : Bool :=
  match op with
  | .strictEq => h.strictEquals x y
  | .eq => h.looseEquals x y
  | .lt => h.order? x y == some .lt
  | .gt => h.order? x y == some .gt
  | .lte => h.order? x y == some .lt || h.order? x y == some .eq
  | .gte => h.order? x y == some .gt || h.order? x y == some .eq

end Heap

/-! ### Types of operands -/

namespace CompareType

/-- The type to record for an operand after a type was recorded already. -/
def widen (h : Heap) (recorded : CompareType) (v : Value) : CompareType :=
  match recorded with
  | .uninitialized =>
    if v.isSmi then .smi
    else if h.isHeapNumber v then .number
    else if h.isInternalized v then .internalizedString
    else if h.isString v then .string
    else if h.isJsObject v then .object
    else .generic
  | .smi =>
    if v.isSmi then .smi
    else if h.isHeapNumber v then .number
    else .generic
  | .number => if h.isNumber v then .number else .generic
  | .internalizedString =>
    if h.isInternalized v then .internalizedString
    else if h.isString v then .string
    else .generic
  | .string => if h.isString v then .string else .generic
  | .object => if h.isJsObject v then .object else .generic
  | .knownObject | .generic => .generic

end CompareType

namespace CompareFeedback

/-- Whether two operands are covered by the stub. -/
def handles (f : CompareFeedback) (h : Heap) (x y : Value) : Bool :=
  match f.state with
  | .uninitialized => false
  | .smi => x.isSmi && y.isSmi
  | .number =>
    let numeric (v : Value) := h.isNumber v || (f.op.isOrdered && v.isUndefined)
    numeric x && numeric y
  | .internalizedString => h.isInternalized x && h.isInternalized y
  | .string => h.isString x && h.isString y
  | .object => h.isJsObject x && h.isJsObject y
  | .knownObject =>
    h.isJsObject x && h.isJsObject y && f.knownShape.isSome &&
      h.mapOf? x == f.knownShape && h.mapOf? y == f.knownShape
  | .generic => true

/-- The first state of a site that meets two operands. Ordered comparisons see `undefined` as
NaN. -/
def firstState (op : CompareOperator) (h : Heap) (x y : Value) : CompareType :=
  if x.isSmi && y.isSmi then .smi
  else if h.isNumber x && h.isNumber y then .number
  else if op.isOrdered &&
      ((h.isNumber x && y.isUndefined) || (h.isNumber y && x.isUndefined)) then .number
  else if h.isInternalized x && h.isInternalized y then
    (if op.isEquality then .internalizedString else .string)
  else if h.isString x && h.isString y then .string
  else if !op.isEquality then .generic
  else if h.isJsObject x && h.isJsObject y then
    (if h.mapOf? x = h.mapOf? y then .knownObject else .object)
  else .generic

/-- The state after a miss on two operands. -/
def nextState (f : CompareFeedback) (h : Heap) (x y : Value) : CompareType :=
  match f.state with
  | .uninitialized => firstState f.op h x y
  | .smi => if h.isNumber x && h.isNumber y then .number else .generic
  | .internalizedString => if h.isString x && h.isString y then .string else .generic
  | .number =>
    if (f.left = .smi && h.isHeapNumber x) || (f.right = .smi && h.isHeapNumber y) then .number
    else .generic
  | .knownObject => if h.isJsObject x && h.isJsObject y then .object else .generic
  | .string | .object | .generic => .generic

/-- What is recorded after a miss on two operands. -/
def next (f : CompareFeedback) (h : Heap) (x y : Value) : CompareFeedback :=
  let state := f.nextState h x y
  { op := f.op
    left := CompareType.widen h f.left x
    right := CompareType.widen h f.right y
    state
    knownShape := if state = .knownObject then h.mapOf? x else none }

/-- The trace of a change. -/
def transitionText (old new : CompareFeedback) : String :=
  s!"[CompareIC (({old.left.name}+{old.right.name}={old.state.name})->" ++
    s!"({new.left.name}+{new.right.name}={new.state.name}))#{old.op.name}]"

end CompareFeedback

end Speculation
