import Scriptlet.Rounding

/-!
# Decimal numbers

A decimal is a sign, a mantissa below `2 ^ 96` and a scale of at most 28: the number of digits
after the point. The scale is part of the number as it is written, so `1.50` and `1.5` are two
decimals of one value. Values are compared, never representations.
-/
namespace Scriptlet

/-- The number `± mantissa / 10 ^ scale`. -/
structure Decimal where
  negative : Bool
  mantissa : Nat
  scale : Nat
  mantissa_lt : mantissa < 2 ^ 96
  scale_le : scale ≤ 28
  deriving DecidableEq

namespace Decimal

/-- Mantissas lie below this number. -/
def capacity : Nat := 2 ^ 96

/-- The most digits that may stand after the point. -/
def maxScale : Nat := 28

/-- The decimal of these parts, if they are in range. Zero has no sign. -/
def ofParts? (negative : Bool) (mantissa scale : Nat) : Option Decimal :=
  if h : mantissa < 2 ^ 96 ∧ scale ≤ 28 then
    some ⟨negative && mantissa != 0, mantissa, scale, h.1, h.2⟩
  else none

theorem ofParts?_isSome {negative : Bool} {mantissa scale : Nat} :
    (ofParts? negative mantissa scale).isSome ↔ mantissa < 2 ^ 96 ∧ scale ≤ 28 := by
  unfold ofParts?
  split
  · rename_i h
    exact ⟨fun _ => h, fun _ => rfl⟩
  · rename_i h
    exact ⟨fun hsome => absurd hsome Bool.false_ne_true, fun hparts => absurd hparts h⟩

def zero : Decimal := ⟨false, 0, 0, by decide, by decide⟩

def one : Decimal := ⟨false, 1, 0, by decide, by decide⟩

instance : Inhabited Decimal := ⟨zero⟩

def isZero (d : Decimal) : Bool := d.mantissa == 0

/-- The mantissa with its sign. -/
def signedMantissa (d : Decimal) : Int :=
  if d.negative then -(d.mantissa : Int) else d.mantissa

/-- The decimal of an integer of at most 96 bits. -/
def ofInt? (n : Int) : Option Decimal := ofParts? (n < 0) n.natAbs 0

/-- The decimal of a 64-bit integer. -/
def ofInt64 (n : Int64) : Decimal where
  negative := decide (n.toInt < 0)
  mantissa := n.toInt.natAbs
  scale := 0
  mantissa_lt := by
    have low := n.le_toInt
    have high := n.toInt_lt
    omega
  scale_le := by decide

/-- The sign is flipped, also of zero. -/
def neg (d : Decimal) : Decimal := { d with negative := !d.negative }

/-- The sign is dropped. -/
def abs (d : Decimal) : Decimal := { d with negative := false }

/-- Order of the values. -/
def compare (a b : Decimal) : Ordering :=
  Ord.compare (a.signedMantissa * 10 ^ b.scale) (b.signedMantissa * 10 ^ a.scale)

/-- Equality of the values. -/
def equals (a b : Decimal) : Bool :=
  a.signedMantissa * 10 ^ b.scale == b.signedMantissa * 10 ^ a.scale

/-- The integer part. -/
def truncate (d : Decimal) : Int :=
  Int.tdiv d.signedMantissa (10 ^ d.scale)

/-- Drops a last zero after the point, `steps` times at most. -/
def dropZeros (mantissa scale : Nat) : Nat → Nat × Nat
  | 0 => (mantissa, scale)
  | steps + 1 =>
    if mantissa % 10 = 0 ∧ 0 < scale then dropZeros (mantissa / 10) (scale - 1) steps
    else (mantissa, scale)

theorem dropZeros_le (mantissa scale steps : Nat) :
    (dropZeros mantissa scale steps).1 ≤ mantissa ∧
      (dropZeros mantissa scale steps).2 ≤ scale := by
  induction steps generalizing mantissa scale with
  | zero => simp [dropZeros]
  | succ steps ih =>
    unfold dropZeros
    split
    · have := ih (mantissa / 10) (scale - 1)
      omega
    · simp

/-- The same value with the least scale; zero is written `0`. -/
def normalize (d : Decimal) : Decimal :=
  if d.mantissa = 0 then zero
  else
    ⟨d.negative, (dropZeros d.mantissa d.scale d.scale).1, (dropZeros d.mantissa d.scale d.scale).2,
      Nat.lt_of_le_of_lt (dropZeros_le ..).1 d.mantissa_lt,
      Nat.le_trans (dropZeros_le ..).2 d.scale_le⟩

/-- The value `± numerator / 10 ^ (scale + dropped)` with at most `scale` places: digits are
dropped, rounding half to even, until the mantissa is in range. -/
def fitFrom? (negative : Bool) (numerator dropped : Nat) : Nat → Option Decimal
  | 0 => ofParts? negative (Rounding.halfEven numerator (10 ^ dropped)) 0
  | scale + 1 =>
    match ofParts? negative (Rounding.halfEven numerator (10 ^ dropped)) (scale + 1) with
    | some d => some d
    | none => fitFrom? negative numerator (dropped + 1) scale

/-- The decimal nearest to `± numerator / 10 ^ scale` that keeps the most places; none when the
integer part is too large. -/
def fit? (negative : Bool) (numerator scale : Nat) : Option Decimal :=
  fitFrom? negative numerator 0 scale

end Decimal

end Scriptlet
