import Scriptlet.Rounding

/-!
# Binary floating formats

A format is a precision and a width of the exponent field. `decode` reads a bit pattern as a
sign, an integer and a power of two; `encodeRatio` gives the bit pattern nearest to a quotient
of natural numbers. Both work in exact integer arithmetic.
-/
namespace Scriptlet.Floating

/-- A binary interchange format. -/
structure Format where
  /-- Bits of the significand, the leading one included. -/
  precision : Nat
  /-- Bits of the exponent field. -/
  exponentBits : Nat

namespace Format

/-- The 32-bit format. -/
def single : Format := ⟨24, 8⟩

/-- The 64-bit format. -/
def double : Format := ⟨53, 11⟩

/-- The exponent of the last bit of the smallest numbers. -/
def minExponent (f : Format) : Int :=
  3 - (2 ^ (f.exponentBits - 1) : Nat) - f.precision

/-- The number of patterns between two powers of two: the weight of the exponent field. -/
def fieldWeight (f : Format) : Nat := 2 ^ (f.precision - 1)

/-- The pattern of positive infinity. -/
def infinityBits (f : Format) : Nat := (2 ^ f.exponentBits - 1) * f.fieldWeight

/-- The weight of the sign bit. -/
def signWeight (f : Format) : Nat := 2 ^ f.exponentBits * f.fieldWeight

end Format

/-- What a bit pattern denotes. -/
inductive Reading where
  | nan
  | infinite (negative : Bool)
  /-- The number `significand * 2 ^ exponent`. -/
  | finite (negative : Bool) (significand : Nat) (exponent : Int)
  deriving DecidableEq, Repr

/-- The number that a bit pattern denotes. -/
def decode (f : Format) (bits : Nat) : Reading :=
  let fraction := bits % f.fieldWeight
  let field := bits / f.fieldWeight % 2 ^ f.exponentBits
  let negative := bits / f.signWeight % 2 == 1
  if field = 2 ^ f.exponentBits - 1 then
    if fraction = 0 then .infinite negative else .nan
  else if field = 0 then .finite negative fraction f.minExponent
  else .finite negative (f.fieldWeight + fraction) (f.minExponent + field - 1)

/-- The exponent that puts `num / den` into the range of a full significand. -/
def ratioExponent (f : Format) (num den : Nat) : Int :=
  let guess : Int := (num.log2 : Int) - den.log2 - (f.precision - 1 : Nat)
  let fits := if 0 ≤ guess then den * 2 ^ (guess.toNat) * f.fieldWeight ≤ num
    else den * f.fieldWeight ≤ num * 2 ^ (-guess).toNat
  max f.minExponent (if fits then guess else guess - 1)

/-- The pattern of the non-negative number nearest to `num / den`, ties to the even pattern;
infinity when the quotient is out of range. -/
def encodeRatio (f : Format) (num den : Nat) : Nat :=
  if num = 0 then 0
  else
    let exponent := ratioExponent f num den
    let significand :=
      if 0 ≤ exponent then Rounding.halfEven num (den * 2 ^ exponent.toNat)
      else Rounding.halfEven (num * 2 ^ (-exponent).toNat) den
    min f.infinityBits ((exponent - f.minExponent).toNat * f.fieldWeight + significand)

/-- The pattern with its sign. -/
def withSign (f : Format) (negative : Bool) (bits : Nat) : Nat :=
  if negative then f.signWeight + bits else bits

/-- The pattern nearest to an integer. -/
def encodeInt (f : Format) (n : Int) : Nat :=
  withSign f (n < 0) (encodeRatio f n.natAbs 1)

/-- The number nearest to an integer. -/
def doubleOfInt (n : Int) : Float :=
  Float.ofBits (UInt64.ofNat (encodeInt .double n))

/-- What a double denotes. -/
def readDouble (x : Float) : Reading := decode .double x.toBits.toNat

/-- What a single denotes. -/
def readSingle (x : Float32) : Reading := decode .single x.toBits.toNat

/-- The integer part of a finite number. -/
def Reading.truncate? : Reading → Option Int
  | .finite negative significand exponent =>
    let magnitude : Nat :=
      if 0 ≤ exponent then significand * 2 ^ exponent.toNat
      else significand / 2 ^ (-exponent).toNat
    some (if negative then -(magnitude : Int) else magnitude)
  | _ => none

end Scriptlet.Floating
