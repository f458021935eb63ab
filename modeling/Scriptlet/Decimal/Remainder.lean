import Scriptlet.Decimal.Arith

/-!
# Remainders of decimals

The remainder is that of the integers which the two numbers are at their larger scale. A dividend
with fewer places than the divisor gains digits as long as its mantissa has room; past that, a
divisor of more than 64 bits is divided out in words of 32 bits, from the highest word on.
-/
namespace Scriptlet.Decimal

/-- One step of the long division: what a digit of the quotient leaves of a dividend below
`2 ^ 128`. The digit is estimated by the leading words. Only its low 32 bits count, so where the
estimate does not fit into a word the step leaves more than a remainder. -/
def digitStep (divisor dividend : Nat) : Nat :=
  let top := dividend / 2 ^ 64
  let lead := divisor / 2 ^ 64
  if top < lead then dividend % 2 ^ 96
  else
    let digit := top / lead % 2 ^ 32
    let rest := (top - digit * lead) % 2 ^ 32
    let left : Int :=
      (rest * 2 ^ 64 + dividend % 2 ^ 64 : Nat) - (digit * (divisor % 2 ^ 64) : Nat)
    if 0 ≤ left then left.toNat else (left % divisor).toNat

/-- The number of 32-bit words of a natural number. -/
def wordCount (n : Nat) : Nat := n.log2 / 32 + 1

/-- The `i`-th word of 32 bits, counted from the lowest. -/
def word (n i : Nat) : Nat := n / 2 ^ (32 * i) % 2 ^ 32

/-- Divides word by word, with both numbers moved up until the divisor fills 96 bits. -/
def longRemainder (dividend divisor : Nat) : Nat :=
  let shift := 95 - divisor.log2
  let dividend := dividend * 2 ^ shift
  let left := (List.range (wordCount dividend)).reverse.foldl
    (fun left i => digitStep (divisor * 2 ^ shift) (left * 2 ^ 32 + word dividend i)) 0
  left / 2 ^ shift

/-- The remainder of mantissas when the divisor has `places` places more than the dividend. -/
def scaledRemainder (dividend divisor places : Nat) : Nat :=
  let moved := room dividend places
  if moved = places ∨ divisor < 2 ^ 64 then dividend * 10 ^ places % divisor
  else longRemainder (dividend * 10 ^ places) divisor

/-- The remainder of the truncated quotient by a divisor other than zero. It has the sign of
the dividend; a dividend below the divisor is its own remainder. -/
def rem? (a b : Decimal) : Option Decimal :=
  if a.isZero then some zero
  else
    match a.abs.compare b.abs with
    | .eq => some zero
    | .lt => some a
    | .gt =>
      let remainder :=
        if b.scale ≤ a.scale then a.mantissa % (b.mantissa * 10 ^ (a.scale - b.scale))
        else scaledRemainder a.mantissa b.mantissa (b.scale - a.scale)
      ofParts? a.negative remainder (max a.scale b.scale)

end Scriptlet.Decimal
