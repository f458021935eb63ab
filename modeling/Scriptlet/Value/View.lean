import Scriptlet.Decimal.Binary
import Scriptlet.Value.Basic

/-!
# Views of a value

A view reads a value as a truth value, a text or a number of one representation, and is absent
where the value has no such reading.
-/
namespace Scriptlet.Value

def toBool? : Value → Option Bool
  | .boolean b => some b
  | _ => none

def toStr? : Value → Option String
  | .string s => some s
  | _ => none

/-- An integer that fits 64 bits. -/
def fitInt64? (n : Int) : Option Int64 :=
  if Int64.minValue.toInt ≤ n ∧ n ≤ Int64.maxValue.toInt then some (Int64.ofInt n) else none

/-- The value as a 64-bit integer: characters by code point, the integral kinds, and big
integers that fit. -/
def toInt64? : Value → Option Int64
  | .char c => some (Int64.ofNat c.toNat)
  | .byte n => some n.toInt64
  | .short n => some n.toInt64
  | .int n => some n.toInt64
  | .long n => some n
  | .bigInteger n => fitInt64? n
  | _ => none

/-- The value as a double. -/
def toDouble? : Value → Option Float
  | .float x => some x.toFloat
  | .double x => some x
  | .bigInteger n => some (Floating.doubleOfInt n)
  | .bigDecimal d => some d.toDouble
  | v => v.toInt64?.map fun n => Floating.doubleOfInt n.toInt

/-- The value as an integer; fractions are cut off. -/
def toInt? : Value → Option Int
  | .bigInteger n => some n
  | .float x => (Floating.readSingle x).truncate?
  | .double x => (Floating.readDouble x).truncate?
  | .bigDecimal d => some d.truncate
  | v => v.toInt64?.map Int64.toInt

/-- The value as a decimal. -/
def toDecimal? : Value → Option Decimal
  | .bigDecimal d => some d
  | .float x => Decimal.ofSingle? x
  | .double x => Decimal.ofDouble? x
  | .bigInteger n => Decimal.ofInt? n
  | v => v.toInt64?.map Decimal.ofInt64

end Scriptlet.Value
