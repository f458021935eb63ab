import Scriptlet.Floating.Format

/-!
# Floating remainder

The remainder of a division whose quotient is truncated. It is exact: the result is a number of
the format, so nothing is rounded.
-/
namespace Scriptlet.Floating

/-- The remainder of two finite numbers as an integer and a power of two. -/
def remainderParts (m : Nat) (p : Int) (n : Nat) (q : Int) : Nat × Int :=
  let exponent := min p q
  (m * 2 ^ (p - exponent).toNat % (n * 2 ^ (q - exponent).toNat), exponent)

/-- The double nearest to `significand * 2 ^ exponent`. -/
def doubleOfParts (negative : Bool) (significand : Nat) (exponent : Int) : Float :=
  let bits := encodeRatio .double (significand * 2 ^ exponent.toNat) (2 ^ (-exponent).toNat)
  Float.ofBits (UInt64.ofNat (withSign .double negative bits))

/-- The remainder with the sign of the dividend. It is not a number when the dividend is
infinite or the divisor zero, and the dividend when the divisor is infinite. -/
def remainder (x y : Float) : Float :=
  match readDouble x, readDouble y with
  | .finite _ _ _, .infinite _ => x
  | .finite negative m p, .finite _ n q =>
    if n = 0 then 0.0 / 0.0
    else if m = 0 then x
    else
      let (significand, exponent) := remainderParts m p n q
      doubleOfParts negative significand exponent
  | _, _ => 0.0 / 0.0

end Scriptlet.Floating
