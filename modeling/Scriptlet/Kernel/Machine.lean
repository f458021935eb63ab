import Scriptlet.Kernel.Error
import Scriptlet.Rounding

/-!
# Machine integers

Arithmetic and bitwise operations on 64-bit integers. Results wrap around; the narrower kinds
take the low bits of the 64-bit result.
-/
namespace Scriptlet.Machine

/-- The power by a natural exponent, wrapping around at every product. -/
def power (base : Int64) (exponent : Nat) : Int64 :=
  if exponent = 0 then 1
  else
    let rest := power (base * base) (exponent / 2)
    if exponent % 2 = 1 then base * rest else rest

/-- The power by a 64-bit exponent: zero for a negative one and for one of more than 32 bits. -/
def pow (base exponent : Int64) : Int64 :=
  if exponent.toInt < 0 ∨ 2 ^ 32 ≤ exponent.toInt then 0 else power base exponent.toInt.toNat

/-- Arithmetic on 64-bit integers; none for an operator that is not arithmetic. -/
def arithmetic? (op : Operator) (left right : Int64) : Option (Except RuntimeError Int64) :=
  match op with
  | .add => some (.ok (left + right))
  | .sub => some (.ok (left - right))
  | .mul => some (.ok (left * right))
  | .div => some (if right = 0 then .error .divisionByZero else .ok (left / right))
  | .rem => some (if right = 0 then .error .divisionByZero else .ok (left % right))
  | .pow => some (.ok (pow left right))
  | _ => none

/-- Bitwise operations and shifts on `long`; the distance counts modulo 64. -/
def bitwiseLong? (op : Operator) (left right : Int64) : Option Int64 :=
  let distance := right &&& 0x3f
  match op with
  | .bitAnd => some (left &&& right)
  | .bitOr => some (left ||| right)
  | .bitXor => some (left ^^^ right)
  | .shl => some (left <<< distance)
  | .shr => some (left >>> distance)
  | .ushr => some (left.toUInt64 >>> distance.toUInt64).toInt64
  | _ => none

/-- Bitwise operations and shifts on `int`; the distance counts modulo 32. -/
def bitwiseInt? (op : Operator) (left right : Int32) : Option Int32 :=
  let distance := right &&& 0x1f
  match op with
  | .bitAnd => some (left &&& right)
  | .bitOr => some (left ||| right)
  | .bitXor => some (left ^^^ right)
  | .shl => some (left <<< distance)
  | .shr => some (left >>> distance)
  | .ushr => some (left.toUInt32 >>> distance.toUInt32).toInt32
  | _ => none

end Scriptlet.Machine
