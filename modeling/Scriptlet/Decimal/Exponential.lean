import Scriptlet.Decimal.Logarithm

/-!
# The exponential of decimals

The exponential is a power of Euler's number to 28 places times the exponential of a fraction. The
fraction's series is summed in binary fractions, the product is exact, and one rounding up brings
it to a decimal.
-/
namespace Scriptlet.Decimal

/-- One divided by a decimal, unless it is zero. -/
def inverse? (d : Decimal) : Option Decimal :=
  if d.isZero then none else one.div? d

/-- The least decimal with at most `scale` places that is not below `numerator / denominator`,
with as many places as fit. -/
def roundUp? (numerator denominator : Nat) : Nat → Option Decimal
  | 0 => ofParts? false (Rounding.ceil numerator denominator) 0
  | scale + 1 =>
    match ofParts? false (Rounding.ceil (numerator * 10 ^ (scale + 1)) denominator) (scale + 1) with
    | some d => some d
    | none => roundUp? numerator denominator scale

/-- The exponential of a fraction is summed in units of `2 ^ -99`. -/
def workingBits : Nat := 99

/-- The sum of `term`, `term * x / (n + 1)`, … for `steps` terms, in working units. -/
def expTerms (x : Nat) : Nat → Nat → Nat → Nat
  | _, _, 0 => 0
  | n, term, steps + 1 =>
    term + expTerms x (n + 1) (Rounding.halfEven (term * x / 2 ^ workingBits) (n + 1)) steps

/-- The number of terms after which the series of a fraction's exponential does not change. -/
def expSteps : Nat := 40

/-- The exponential of a fraction in working units. -/
def expFraction (x : Nat) : Nat := expTerms x 0 (2 ^ workingBits) expSteps

/-- Euler's number to this power is out of range. -/
def eulerLimit : Nat := 67

/-- The exponential of a positive number, rounded up. It is out of range when Euler's number to the
nearest whole power is. That of a number below one keeps all its places; a larger one drops the
zeros at its end. -/
def expPositive? (d : Decimal) : Option Decimal :=
  let power := 10 ^ d.scale
  let whole := d.mantissa / power
  let fraction := d.mantissa % power * 2 ^ workingBits / power
  if eulerLimit ≤ Rounding.halfUp d.mantissa power then none
  else
    let value := roundUp? (euler.mantissa ^ whole * expFraction fraction)
      (10 ^ (maxScale * whole) * 2 ^ workingBits) maxScale
    if whole = 0 then value else value.map normalize

/-- The exponential. That of a negative number is the inverse of the other one's. -/
def exp? (d : Decimal) : Option Decimal :=
  if d.isZero then some one
  else if d.negative then (expPositive? d.abs).bind inverse?
  else expPositive? d

end Scriptlet.Decimal
