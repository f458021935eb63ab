import Scriptlet.Decimal.Basic

/-!
# Decimal arithmetic

Every operation answers with a decimal or, when the result is out of range, with nothing. Sums
and products are exact up to one rounding, half to even. A quotient gains digits in chunks until
it is exact or full, and then loses the zeros that the last chunk brought.
-/
namespace Scriptlet.Decimal

/-- The sum. Adding zero leaves the other number as it is written. -/
def add? (a b : Decimal) : Option Decimal :=
  if a.isZero then some b
  else if b.isZero then some a
  else
    let scale := max a.scale b.scale
    let sum := a.signedMantissa * 10 ^ (scale - a.scale) + b.signedMantissa * 10 ^ (scale - b.scale)
    fit? (sum < 0) sum.natAbs scale

/-- The difference. -/
def sub? (a b : Decimal) : Option Decimal :=
  if b.isZero then some (if a.isZero then b else a) else add? a b.neg

/-- The scale past which the product of two 32-bit mantissas is zero. -/
def vanishingScale : Nat := 47

/-- The product. A factor zero makes it `0`; a product of wide mantissas that is rounded to zero
keeps its places and its sign. -/
def mul? (a b : Decimal) : Option Decimal :=
  let scale := a.scale + b.scale
  let negative := a.negative != b.negative
  if a.isZero || b.isZero then some zero
  else if a.mantissa < 2 ^ 32 ∧ b.mantissa < 2 ^ 32 then
    if vanishingScale < scale then some zero else fit? negative (a.mantissa * b.mantissa) scale
  else (fit? false (a.mantissa * b.mantissa) scale).map fun product =>
    { product with negative := negative }

/-- The largest `x ≤ limit` for which `quotient * 10 ^ x` is still a mantissa. -/
def room (quotient : Nat) : Nat → Nat
  | 0 => 0
  | limit + 1 =>
    if quotient * 10 ^ (limit + 1) < capacity then limit + 1 else room quotient limit

/-- A quotient under construction. -/
structure Quotient where
  mantissa : Nat
  scale : Int
  /-- Whether a remainder was ever distributed into the digits. -/
  extended : Bool

/-- A mantissa one digit too long loses it, rounding half to even; `sticky` tells that the exact
quotient is larger than the mantissa. -/
def shorten? (mantissa : Nat) (scale : Int) (sticky : Bool) : Option Quotient :=
  let shorter := mantissa / 10
  let digit := mantissa % 10
  let up := 5 < digit || (digit == 5 && (sticky || shorter % 2 == 1))
  if scale ≤ 0 then none else some ⟨if up then shorter + 1 else shorter, scale - 1, true⟩

/-- The quotient, rounded half to even by the remainder that is left. -/
def settle? (divisor mantissa remainder : Nat) (scale : Int) : Option Quotient :=
  if divisor < 2 * remainder ∨ (2 * remainder = divisor ∧ mantissa % 2 = 1) then
    if mantissa + 1 < capacity then some ⟨mantissa + 1, scale, true⟩
    else shorten? (mantissa + 1) scale true
  else some ⟨mantissa, scale, true⟩

/-- The number of digits that the next chunk brings. -/
inductive Chunk where
  /-- The quotient is exact and its scale is not negative. -/
  | exact
  /-- A remainder is left and no digit fits any more. -/
  | full
  | overflow
  | digits (count : Nat)

/-- Chunks have at most nine digits. A remainder asks for as many as fit. -/
def nextChunk (mantissa remainder : Nat) (scale : Int) : Chunk :=
  if remainder = 0 then
    if 0 ≤ scale then .exact else .digits (min 9 (-scale).toNat)
  else if (maxScale : Int) ≤ scale then .full
  else
    let count := room mantissa (min 9 (maxScale - scale).toNat)
    if count < 9 ∧ count + scale < 0 then .overflow
    else if count = 0 then .full
    else .digits count

/-- Distributes the remainder into further digits, for `steps` chunks at most. -/
def extend? (divisor : Nat) : Nat → Nat → Nat → Int → Bool → Option Quotient
  | 0, _, _, _, _ => none
  | steps + 1, mantissa, remainder, scale, extended =>
    match nextChunk mantissa remainder scale with
    | .exact => some ⟨mantissa, scale, extended⟩
    | .full => settle? divisor mantissa remainder scale
    | .overflow => none
    | .digits count =>
      let scale := scale + count
      let grown := mantissa * 10 ^ count
      let scaled := remainder * 10 ^ count
      let mantissa := grown + scaled / divisor
      let extended := extended || remainder != 0
      if capacity ≤ grown then none
      else if capacity ≤ mantissa then shorten? mantissa scale (scaled % divisor != 0)
      else extend? divisor steps mantissa (scaled % divisor) scale extended

/-- The number of chunks that bring any quotient to the largest scale. -/
def chunkLimit : Nat := 64

/-- Drops `count` zeros from the end, once, if the mantissa is a multiple of `2 ^ bits`. -/
def dropChunk (bits count : Nat) (part : Nat × Nat) : Nat × Nat :=
  if part.1 % 2 ^ bits = 0 ∧ count ≤ part.2 ∧ part.1 % 10 ^ count = 0 then
    (part.1 / 10 ^ count, part.2 - count)
  else part

/-- Drops zeros from the end of an extended quotient: eight at a time while the low 32 bits are
clear, then four, two and one, each at most once. -/
def dropChunks (mantissa scale : Nat) : Nat × Nat :=
  let eights := (dropChunk 32 8 ∘ dropChunk 32 8 ∘ dropChunk 32 8) (mantissa, scale)
  (dropChunk 1 1 ∘ dropChunk 2 2 ∘ dropChunk 4 4) eights

/-- The quotient by a divisor other than zero. -/
def div? (a b : Decimal) : Option Decimal :=
  if a.isZero then some zero
  else
    let quotient := extend? b.mantissa chunkLimit (a.mantissa / b.mantissa)
      (a.mantissa % b.mantissa) ((a.scale : Int) - b.scale) false
    quotient.bind fun q =>
      let parts :=
        if q.extended then dropChunks q.mantissa q.scale.toNat else (q.mantissa, q.scale.toNat)
      ofParts? (a.negative != b.negative) parts.1 parts.2

end Scriptlet.Decimal
