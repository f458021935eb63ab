import Scriptlet.Decimal.Arith

/-!
# The logarithm of decimals

The logarithm divides by powers of ten and of Euler's number to 28 places until a series in binary
fractions converges fast. Its sum is rounded away from zero to the last place.
-/
namespace Scriptlet.Decimal

/-- Euler's number to 28 places, `2.7182818284590452353602874714`. -/
def euler : Decimal := ⟨false, 27182818284590452353602874714, 28, by decide, by decide⟩

/-- The inverse of Euler's number to 28 places, `0.3678794411714423215955237702`. -/
def eulerInverse : Decimal := ⟨false, 3678794411714423215955237702, 28, by decide, by decide⟩

/-- The logarithm of ten to 27 places, `2.302585092994045684017991454`. -/
def lnTen : Decimal := ⟨false, 2302585092994045684017991454, 27, by decide, by decide⟩

/-- Multiplies by `factor` while a test holds, `steps` times at most, and counts. -/
def scaleWhile? (test : Decimal → Bool) (factor : Decimal) : Nat → Decimal → Option (Nat × Decimal)
  | 0, d => some (0, d)
  | steps + 1, d =>
    if test d then
      (d.mul? factor).bind fun next =>
        (scaleWhile? test factor steps next).map fun (count, d) => (count + 1, d)
    else some (0, d)

/-- The series is summed in units of `2 ^ -97`. -/
def seriesBits : Nat := 97

/-- `power / (2n + 1)`, `power * square / (2n + 3)`, … for `steps` terms, in working units. -/
def oddTerms (square : Nat) : Nat → Nat → Nat → Nat
  | _, _, 0 => 0
  | n, power, steps + 1 =>
    Rounding.halfEven power (2 * n + 1) +
      oddTerms square (n + 1) (power * square / 2 ^ seriesBits) steps

/-- The number of terms after which the powers of a number below one half vanish. -/
def seriesSteps : Nat := 64

/-- The magnitude of the logarithm of `(1 + z) / (1 - z)` in working units. -/
def lnMagnitude (z : Decimal) : Nat :=
  let start := Rounding.halfEven (z.mantissa * 2 ^ seriesBits) (10 ^ z.scale)
  oddTerms (start * start / 2 ^ seriesBits) 0 (2 * start) seriesSteps

/-- The logarithm of a number near one by the series in `(x - 1) / (x + 1)`. -/
def lnNear? (x : Decimal) : Option Decimal :=
  (x.sub? one).bind fun above => (x.add? one).bind fun below => (above.div? below).bind fun z =>
    ofParts? z.negative (Rounding.ceil (lnMagnitude z * 10 ^ maxScale) (2 ^ seriesBits)) maxScale

/-- The logarithm of a number from one up to ten: Euler's number is taken out until the number is
at most one and more than the inverse of Euler's number. -/
def lnLead? (lead : Decimal) : Option Decimal :=
  (scaleWhile? (fun x => x.compare one != .lt) eulerInverse 4 lead).bind fun (down, x) =>
    (scaleWhile? (fun x => x.compare eulerInverse != .gt) euler 4 x).bind fun (up, x) =>
      let count := ofInt64 (Int64.ofInt ((down : Int) - up))
      if x.equals one then some count else (lnNear? x).bind count.add?

/-- The number with its first digit before the point. -/
def lead? (d : Decimal) : Option Decimal :=
  (ofParts? false d.mantissa ((Nat.toDigits 10 d.mantissa).length - 1)).map normalize

/-- The power of ten of the first digit. -/
def leadExponent (d : Decimal) : Int :=
  (Nat.toDigits 10 d.mantissa).length - 1 - (d.scale : Int)

/-- The logarithm of a positive number. -/
def ln? (d : Decimal) : Option Decimal :=
  if d.equals one then some zero
  else
    d.lead?.bind fun lead => (lnLead? lead).bind fun value =>
      ((ofInt64 (Int64.ofInt d.leadExponent)).mul? lnTen).bind value.add?

end Scriptlet.Decimal
