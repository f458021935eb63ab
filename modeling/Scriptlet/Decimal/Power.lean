import Scriptlet.Decimal.Exponential

/-!
# Powers of decimals

Integral exponents are repeated squaring, of decimals up to a limit and of binary fractions past
it. Other exponents go through the logarithm of the magnitude of the base, and the result takes the
sign of the base.
-/
namespace Scriptlet.Decimal

/-- `product * square ^ exponent` by repeated squaring. -/
def powerFrom? (product square : Decimal) (exponent : Nat) : Option Decimal :=
  if h : exponent = 0 then some product
  else
    let next := if exponent % 2 = 1 then product.mul? square else some product
    next.bind fun product =>
      if exponent = 1 then some product
      else (square.mul? square).bind fun square => powerFrom? product square (exponent / 2)
termination_by exponent

/-- Powers of binary fractions are taken in units of `2 ^ -256`. -/
def powerBits : Nat := 256

/-- The power of `base` by repeated squaring, in units of `2 ^ -powerBits`; none when the power of a
base above one is out of range. -/
def unitPower? (base exponent : Nat) : Option Nat :=
  if h : exponent = 0 then some (2 ^ powerBits)
  else
    (unitPower? base (exponent / 2)).bind fun root =>
      let square := root * root / 2 ^ powerBits
      let power := if exponent % 2 = 1 then square * base / 2 ^ powerBits else square
      if capacity * 2 ^ powerBits ≤ power then none else some power
termination_by exponent

/-- The power of a magnitude by a large exponent, cut to units of `2 ^ -97` and rounded up. -/
def powLarge? (base : Decimal) (exponent : Nat) : Option Decimal :=
  (unitPower? (base.mantissa * 2 ^ powerBits / 10 ^ base.scale) exponent).bind fun power =>
    roundUp? (power / 2 ^ (powerBits - seriesBits)) (2 ^ seriesBits) maxScale

/-- From this exponent on powers are taken of binary fractions. -/
def largeExponent : Nat := 1024

/-- The power by a natural exponent. From the third power on zeros after the point are
dropped. -/
def powNat? (base : Decimal) (exponent : Nat) : Option Decimal :=
  if exponent = 0 then some one
  else if exponent = 1 then some base
  else if exponent = 2 then base.mul? base
  else if exponent < largeExponent then (powerFrom? one base exponent).map normalize
  else
    (powLarge? base exponent).map fun power =>
      { power.normalize with negative := base.negative && exponent % 2 == 1 && !power.isZero }

/-- The power by an exponent with a fraction. -/
def powFractional? (base exponent : Decimal) : Option Decimal :=
  (ln? base.abs).bind fun logarithm => (logarithm.mul? exponent).bind fun product =>
    (exp? product).map fun result => { result with negative := base.negative }

/-- Integral exponents have at most 32 bits. -/
def exponentCapacity : Nat := 2 ^ 32

/-- The power. -/
def pow? (base exponent : Decimal) : Option Decimal :=
  if exponent.isZero then some one
  else if base.isZero then some zero
  else if base.equals one then some one
  else if exponent.equals one then some base
  else
    let exponent := exponent.normalize
    if exponent.scale ≠ 0 then powFractional? base exponent
    else if exponentCapacity ≤ exponent.mantissa then none
    else if exponent.negative then (powNat? base exponent.mantissa).bind inverse?
    else powNat? base exponent.mantissa

end Scriptlet.Decimal
