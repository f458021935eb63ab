import Scriptlet.Decimal.Basic
import Scriptlet.Floating.Format

/-!
# Decimals and binary numbers

`ofBinary?` turns `significand * 2 ^ exponent` into a decimal with about as many digits as the
binary format guarantees; `toDouble` is the double nearest to the decimal's digits.
-/
namespace Scriptlet.Decimal

/-- A mantissa with a power of ten. -/
structure Scaled where
  mantissa : Nat
  exponent : Int

/-- Replaces a power of one half by a factor five and a power of ten, `steps` times. The low bit
is dropped where the factor two divides the mantissa or the factor five does not fit. -/
def absorbHalves : Nat → Scaled → Scaled
  | 0, s => s
  | steps + 1, s =>
    if s.mantissa % 2 = 1 ∧ s.mantissa * 5 < capacity then
      absorbHalves steps ⟨s.mantissa * 5, s.exponent⟩
    else absorbHalves steps ⟨s.mantissa / 2, s.exponent + 1⟩

/-- Replaces a power of two by a factor two, or, where that does not fit, by a power of ten and a
divisor five, `steps` times. -/
def absorbDoubles : Nat → Scaled → Scaled
  | 0, s => s
  | steps + 1, s =>
    if s.mantissa * 2 < capacity then absorbDoubles steps ⟨s.mantissa * 2, s.exponent - 1⟩
    else absorbDoubles steps ⟨s.mantissa / 5, s.exponent⟩

/-- Drops the last digit, rounding half up. -/
def Scaled.shorten (s : Scaled) : Scaled :=
  ⟨Rounding.halfUp s.mantissa 10, s.exponent + 1⟩

/-- Drops digits, `steps` of them, until none is left or the last place is representable. -/
def limitPlaces : Nat → Scaled → Scaled
  | 0, s => s
  | steps + 1, s =>
    if s.mantissa < 10 then limitPlaces 0 ⟨0, 0⟩ else limitPlaces steps s.shorten

/-- Drops digits after the point while the mantissa is longer than the format guarantees. -/
def limitDigits (bits : Nat) : Nat → Scaled → Scaled
  | 0, s => s
  | steps + 1, s => if 2 ^ bits ≤ s.mantissa then limitDigits bits steps s.shorten else s

/-- A mantissa of at most `bits` bits after the point for the number
`significand * 2 ^ exponent`; none when the number is not below `2 ^ 96`. The sign shows also on
zero. -/
def ofBinary? (bits : Nat) (negative : Bool) (significand : Nat) (exponent : Int) :
    Option Decimal :=
  let start : Scaled := ⟨significand, exponent⟩
  let tens := if exponent < 0 then absorbHalves exponent.natAbs start
    else absorbDoubles exponent.natAbs start
  let whole : Scaled := ⟨tens.mantissa * 10 ^ tens.exponent.toNat, min tens.exponent 0⟩
  if capacity ≤ significand * 2 ^ exponent.toNat ∨ capacity ≤ whole.mantissa then none
  else
    let placed := limitPlaces (-(maxScale : Int) - whole.exponent).toNat whole
    let limited := limitDigits bits (-placed.exponent).toNat placed
    let parts := dropZeros limited.mantissa (-limited.exponent).toNat (-limited.exponent).toNat
    if h : parts.1 < 2 ^ 96 ∧ parts.2 ≤ 28 then some ⟨negative, parts.1, parts.2, h.1, h.2⟩
    else none

/-- The decimal of a finite reading, with at most `bits` bits where it has places. -/
def ofReading? (bits : Nat) : Floating.Reading → Option Decimal
  | .finite negative 0 _ => some { zero with negative := negative }
  | .finite negative significand exponent => ofBinary? bits negative significand exponent
  | _ => none

/-- The decimal of a double: 52 bits hold its digits. -/
def ofDouble? (x : Float) : Option Decimal := ofReading? 52 (Floating.readDouble x)

/-- The decimal of a single: 24 bits hold its digits. -/
def ofSingle? (x : Float32) : Option Decimal := ofReading? 24 (Floating.readSingle x)

/-- The double of the digits: exact for integers, otherwise the sum of the integer and the
fraction, rounded to the places of the scale. -/
def toDouble (d : Decimal) : Float :=
  if d.scale = 0 then Floating.doubleOfInt d.signedMantissa
  else
    let power := 10 ^ d.scale
    let whole := Floating.doubleOfInt (d.mantissa / power : Nat)
    let fraction := Floating.doubleOfInt (d.mantissa % power : Nat) / Floating.doubleOfInt (power : Nat)
    let unsigned :=
      if d.mantissa % power = 0 then whole
      else
        let scale := Floating.doubleOfInt (power : Nat)
        ((whole + fraction) * scale).round / scale
    if d.negative then -unsigned else unsigned

end Scriptlet.Decimal
