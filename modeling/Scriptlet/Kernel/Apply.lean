import Scriptlet.Conversion.Registry
import Scriptlet.Decimal.Power
import Scriptlet.Decimal.Remainder
import Scriptlet.Floating.Remainder
import Scriptlet.Kernel.Big
import Scriptlet.Kernel.Machine

/-!
# Operations on values

`Kernel.apply` applies a binary operator to two values under the tags of its operands, and
`Kernel.applyUnary` a prefix operator to one. A tag only selects the promotion: it is widened to
cover a value that does not have it.
-/
namespace Scriptlet.Kernel

/-- A result or the reason why there is none. -/
abbrev Result := Except RuntimeError Value

/-- The tag to dispatch a value on: the given one widened by the value's own, or the value's own
where they do not widen. Null keeps the given tag. -/
def liveTag (tag : Tag) (v : Value) : Tag :=
  if v.tag = tag ∨ v.isNull then tag else (Tag.widen tag v.tag).getD v.tag

/-- Two views of the operands, if both have one. -/
def both {α : Type} (view : Value → Option α) (left right : Value) : Option (α × α) :=
  (view left).bind fun l => (view right).map fun r => (l, r)

/-- A value with the tag to dispatch it on. -/
structure Operand where
  tag : Tag
  value : Value

namespace Operand

/-- A value under a given tag. -/
def live (tag : Tag) (v : Value) : Operand := ⟨liveTag tag v, v⟩

end Operand

/-- Arithmetic on doubles; none for an operator that is not arithmetic. -/
def doubleArithmetic? (op : Operator) (left right : Float) : Option Float :=
  match op with
  | .add => some (left + right)
  | .sub => some (left - right)
  | .mul => some (left * right)
  | .div => some (left / right)
  | .rem => some (Floating.remainder left right)
  | .pow => some (left.pow right)
  | _ => none

/-- A decimal result, or an overflow. -/
def decimalResult (op : Operator) (result : Option Decimal) : Except RuntimeError Decimal :=
  match result with
  | some d => .ok d
  | none => .error (.overflow op)

/-- Arithmetic on decimals; none for an operator that is not arithmetic. -/
def decimalArithmetic? (op : Operator) (left right : Decimal) :
    Option (Except RuntimeError Decimal) :=
  match op with
  | .add => some (decimalResult op (left.add? right))
  | .sub => some (decimalResult op (left.sub? right))
  | .mul => some (decimalResult op (left.mul? right))
  | .div =>
    some (if right.isZero then .error .divisionByZero else decimalResult op (left.div? right))
  | .rem =>
    some (if right.isZero then .error .divisionByZero else decimalResult op (left.rem? right))
  | .pow => some (decimalResult op (left.pow? right))
  | _ => none

/-- A 64-bit result in the kind of the promoted tag. -/
def ofInt64 (tag : Tag) (n : Int64) : Value :=
  match tag with
  | .long => .long n
  | .short => .short n.toInt16
  | .byte => .byte n.toInt8
  | _ => .int n.toInt32

/-- A double result in the kind of the promoted tag. -/
def ofDouble (tag : Tag) (x : Float) : Value :=
  match tag with
  | .float => .float x.toFloat32
  | _ => .double x

/-- Arithmetic in the kind that both operands are promoted to; none where an operand has no such
view. -/
def promotedArithmetic? (op : Operator) (tag : Tag) (left right : Value) : Option Result :=
  match tag with
  | .float | .double =>
    (both Value.toDouble? left right).bind fun (l, r) =>
      (doubleArithmetic? op l r).map fun x => .ok (ofDouble tag x)
  | .bigInteger =>
    (both Value.toInt? left right).bind fun (l, r) =>
      (Big.arithmetic? op l r).map (·.map .bigInteger)
  | .bigDecimal =>
    (both Value.toDecimal? left right).bind fun (l, r) =>
      (decimalArithmetic? op l r).map (·.map .bigDecimal)
  | _ =>
    (both Value.toInt64? left right).bind fun (l, r) =>
      (Machine.arithmetic? op l r).map (·.map (ofInt64 tag))

def incompatible (op : Operator) (left right : Operand) : RuntimeError :=
  .incompatibleOperands op left.tag right.tag

/-- Arithmetic on numeric operands. -/
def arithmetic (op : Operator) (left right : Operand) : Result :=
  match Tag.widen left.tag right.tag with
  | some tag =>
    (promotedArithmetic? op tag left.value right.value).getD (.error (incompatible op left right))
  | none => .error (incompatible op left right)

/-- The three operations on truth values. -/
def booleanBitwise? (op : Operator) (left right : Bool) : Option Bool :=
  match op with
  | .bitAnd => some (left && right)
  | .bitOr => some (left || right)
  | .bitXor => some (left != right)
  | _ => none

/-- Bitwise operations on integral operands: on big integers if one of them is, else on `long`
if one of them is, else on `int`. -/
def integralBitwise? (op : Operator) (left right : Operand) : Option Result :=
  if left.tag = .bigInteger ∨ right.tag = .bigInteger then
    (both Value.toInt? left.value right.value).bind fun (l, r) =>
      (Big.bitwise? op l r).map (·.map .bigInteger)
  else
    (both Value.toInt64? left.value right.value).bind fun (l, r) =>
      if left.tag = .long ∨ right.tag = .long then
        (Machine.bitwiseLong? op l r).map fun n => .ok (.long n)
      else (Machine.bitwiseInt? op l.toInt32 r.toInt32).map fun n => .ok (.int n)

/-- Bitwise operations on two truth values or two integral numbers. -/
def bitwise (op : Operator) (left right : Operand) : Result :=
  let result : Option Result :=
    if left.tag = .boolean ∧ right.tag = .boolean then
      (both Value.toBool? left.value right.value).bind fun (l, r) =>
        (booleanBitwise? op l r).map fun b => .ok (.boolean b)
    else if left.tag.isIntegral && right.tag.isIntegral then integralBitwise? op left right
    else none
  result.getD (.error (incompatible op left right))

/-- Equality of two operands, neither of them a string that stands for something else. -/
def equalsDirect (left right : Operand) : Bool :=
  match Tag.widen left.tag right.tag with
  | some .float | some .double =>
    (both Value.toDouble? left.value right.value).any fun (l, r) => l == r
  | some .bigInteger => (both Value.toInt? left.value right.value).any fun (l, r) => l == r
  | some .bigDecimal =>
    (both Value.toDecimal? left.value right.value).any fun (l, r) => l.equals r
  | some _ => (both Value.toInt64? left.value right.value).any fun (l, r) => l == r
  | none => left.value.equals right.value

/-- The tags of values that a string may spell. -/
def isSpelled : Tag → Bool
  | .string | .object | .null => false
  | _ => true

def isObject : Value → Bool
  | .object _ => true
  | _ => false

/-- The conversion succeeds and its result passes the test. -/
def convertsTo (r : ConversionRegistry) (v : Value) (target : Ty) (test : Value → Bool) : Bool :=
  match r.convert v target with
  | .ok w => test w
  | .error _ => false

/-- Equality of two operands. A string is read as the other side's type and is unequal if it
does not read as one. -/
def equals (r : ConversionRegistry) (left right : Operand) : Bool :=
  if left.tag = .string ∧ isSpelled right.tag then
    convertsTo r left.value right.tag.toTy fun l => equalsDirect ⟨right.tag, l⟩ right
  else if right.tag = .string ∧ isSpelled left.tag then
    convertsTo r right.value left.tag.toTy fun v => equalsDirect left ⟨left.tag, v⟩
  else if left.tag = .string ∧ isObject right.value then
    convertsTo r left.value right.value.ty fun l => l.equals right.value
  else if isObject left.value ∧ right.tag = .string then
    convertsTo r right.value left.value.ty fun v => left.value.equals v
  else equalsDirect left right

/-- The order of two doubles; none if one of them is not a number. -/
def compareDoubles? (left right : Float) : Option Ordering :=
  if left < right then some .lt
  else if left == right then some .eq
  else if right < left then some .gt
  else none

/-- The order in the kind that both operands are promoted to. The outer option is absent where
an operand has no such view, the inner one where the operands are unordered. -/
def promotedOrder? (tag : Tag) (left right : Value) : Option (Option Ordering) :=
  match tag with
  | .float | .double =>
    (both Value.toDouble? left right).map fun (l, r) => compareDoubles? l r
  | .bigInteger => (both Value.toInt? left right).map fun (l, r) => some (compare l r)
  | .bigDecimal => (both Value.toDecimal? left right).map fun (l, r) => some (l.compare r)
  | _ => (both Value.toInt64? left right).map fun (l, r) => some (compare l.toInt r.toInt)

/-- The order of two strings or two numbers. -/
def order? (left right : Operand) : Option (Option Ordering) :=
  if left.tag = .string ∧ right.tag = .string then
    (both Value.toStr? left.value right.value).map fun (l, r) => some (compare l.toList r.toList)
  else
    (Tag.widen left.tag right.tag).bind fun tag => promotedOrder? tag left.value right.value

/-- What a comparison operator asks of an order. -/
def holds (op : Operator) (order : Ordering) : Bool :=
  match op with
  | .lt => order.isLT
  | .gt => order.isGT
  | .le => order.isLE
  | .ge => order.isGE
  | _ => false

/-- A comparison; operands without an order answer false. -/
def comparison (op : Operator) (left right : Operand) : Result :=
  match order? left right with
  | some order => .ok (.boolean (order.any (holds op)))
  | none => .error (incompatible op left right)

/-- Conjunction and disjunction of truth values. -/
def logical (op : Operator) (left right : Operand) : Result :=
  match both Value.toBool? left.value right.value with
  | some (l, r) => .ok (.boolean (if op = .and then l && r else l || r))
  | none => .error (incompatible op left right)

/-- A string that meets a number is read as a number of that kind. -/
def spellOut (r : ConversionRegistry) (left right : Operand) :
    Except RuntimeError (Operand × Operand) :=
  if left.tag = .string ∧ right.tag.isNumeric then
    match r.convert left.value right.tag.toTy with
    | .ok v => .ok (⟨right.tag, v⟩, right)
    | .error e => .error (.conversion e)
  else if right.tag = .string ∧ left.tag.isNumeric then
    match r.convert right.value left.tag.toTy with
    | .ok v => .ok (left, ⟨left.tag, v⟩)
    | .error e => .error (.conversion e)
  else .ok (left, right)

/-- Operations on numbers, truth values and strings that have been read. -/
def numeric (op : Operator) (left right : Operand) : Result :=
  match op with
  | .lt | .gt | .le | .ge => comparison op left right
  | .add | .sub | .mul | .div | .rem | .pow => arithmetic op left right
  | _ => bitwise op left right

/-- Operations on operands of which one is null: only equality has an answer. -/
def withNull (op : Operator) (left right : Value) : Result :=
  match op with
  | .eq => .ok (.boolean (left.isNull && right.isNull))
  | .neq => .ok (.boolean (left.isNull != right.isNull))
  | _ => .error (.nullOperand op)

/-- Operations on operands that are not null. -/
def applyPresent (r : ConversionRegistry) (op : Operator) (left right : Operand) : Result :=
  match op with
  | .eq => .ok (.boolean (equals r left right))
  | .neq => .ok (.boolean (!equals r left right))
  | .and | .or => logical op left right
  | _ =>
    match spellOut r left right with
    | .ok (l, v) => numeric op l v
    | .error e => .error e

/-- `left op right` on operands under their live tags. A string operand makes a sum a string. -/
def applyLive (r : ConversionRegistry) (op : Operator) (left right : Operand) : Result :=
  if op = .add ∧ (left.tag = .string ∨ right.tag = .string) then
    .ok (.string (left.value.display ++ right.value.display))
  else if left.value.isNull || right.value.isNull then withNull op left.value right.value
  else applyPresent r op left right

/-- `left op right` under the given tags. -/
def apply (r : ConversionRegistry) (op : Operator) (leftTag : Tag) (left : Value) (rightTag : Tag)
    (right : Value) : Result :=
  applyLive r op (.live leftTag left) (.live rightTag right)

/-- The negative of a number; a character becomes an `int`. -/
def negate? : Value → Option Value
  | .char c => some (.int (-(Int32.ofNat c.toNat)))
  | .byte n => some (.byte (-n))
  | .short n => some (.short (-n))
  | .int n => some (.int (-n))
  | .long n => some (.long (-n))
  | .float x => some (.float (-x))
  | .double x => some (.double (-x))
  | .bigInteger n => some (.bigInteger (-n))
  | .bigDecimal d => some (.bigDecimal d.neg)
  | _ => none

/-- The opposite of a truth value. -/
def not? : Value → Option Value
  | .boolean b => some (.boolean (!b))
  | _ => none

/-- A prefix operator applied to a value. -/
def applyUnary (op : UnaryOp) (v : Value) : Result :=
  let result := match op with
    | .neg => negate? v
    | .not => not? v
  match result with
  | some w => .ok w
  | none => .error (.invalidUnaryOperand op v.tag)

end Scriptlet.Kernel
