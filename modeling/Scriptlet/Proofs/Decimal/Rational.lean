import Mathlib.Algebra.Order.Field.Rat
import Mathlib.Algebra.Order.Ring.Cast
import Mathlib.Order.Compare
import Mathlib.Tactic.Positivity
import Mathlib.Tactic.Ring
import Scriptlet.Decimal.Basic

/-!
# Decimals are rational numbers

A decimal denotes a rational number of magnitude below `2 ^ 96`. Decimals are compared as the
numbers that they denote, whatever their scales.
-/
namespace Scriptlet.Decimal

/-- The number that a decimal denotes. -/
def toRat (d : Decimal) : ℚ := d.signedMantissa / 10 ^ d.scale

variable (a b : Decimal)

theorem signedMantissa_eq : (a.signedMantissa : ℚ) = a.toRat * 10 ^ a.scale := by
  simp [toRat]

theorem crossed_eq : ((a.signedMantissa * 10 ^ b.scale : ℤ) : ℚ) =
    a.toRat * 10 ^ (a.scale + b.scale) := by
  push_cast
  rw [signedMantissa_eq]
  ring

/-- The products that are compared are the two numbers, in units of both scales together. -/
theorem compare_eq : a.compare b = cmp a.toRat b.toRat := by
  have unit : (0 : ℚ) < 10 ^ (a.scale + b.scale) := by positivity
  calc
    a.compare b
      = cmp (a.signedMantissa * 10 ^ b.scale) (b.signedMantissa * 10 ^ a.scale) :=
        (cmp_eq_compare ..).symm
    _ = cmp ((a.signedMantissa * 10 ^ b.scale : ℤ) : ℚ)
          ((b.signedMantissa * 10 ^ a.scale : ℤ) : ℚ) := (Int.cast_strictMono.cmp_map_eq ..).symm
    _ = cmp (a.toRat * 10 ^ (a.scale + b.scale)) (b.toRat * 10 ^ (a.scale + b.scale)) := by
        rw [crossed_eq, crossed_eq, Nat.add_comm b.scale]
    _ = cmp a.toRat b.toRat := cmp_mul_pos_right unit ..

theorem equals_iff : a.equals b = true ↔ a.toRat = b.toRat := by
  rw [← cmp_eq_eq_iff a.toRat, ← compare_eq, equals, beq_iff_eq, compare,
    Std.LawfulEqOrd.compare_eq_iff_eq]

theorem natAbs_signedMantissa : a.signedMantissa.natAbs = a.mantissa := by
  unfold signedMantissa
  split <;> simp

theorem abs_toRat_lt : |a.toRat| < 2 ^ 96 := by
  have unit : (1 : ℚ) ≤ 10 ^ a.scale := one_le_pow₀ (by norm_num)
  have bound : |(a.signedMantissa : ℚ)| < 2 ^ 96 := by
    rw [← Int.cast_abs, Int.abs_eq_natAbs, natAbs_signedMantissa]
    exact_mod_cast a.mantissa_lt
  calc
    |a.toRat| ≤ |a.toRat| * 10 ^ a.scale := le_mul_of_one_le_right (abs_nonneg _) unit
    _ = |(a.signedMantissa : ℚ)| := by
        rw [signedMantissa_eq, abs_mul, abs_of_pos (by positivity : (0 : ℚ) < 10 ^ a.scale)]
    _ < 2 ^ 96 := bound

theorem toRat_ofInt64 (n : Int64) : (ofInt64 n).toRat = n.toInt := by
  have value : (ofInt64 n).signedMantissa = n.toInt := by
    simp only [signedMantissa, ofInt64, decide_eq_true_eq]
    split <;> omega
  rw [toRat, value]
  simp [ofInt64]

/-- An integer is a decimal exactly when it has at most 96 bits. -/
theorem ofInt?_eq (n : ℤ) :
    (2 ^ 96 ≤ n.natAbs ∧ ofInt? n = none) ∨
      (n.natAbs < 2 ^ 96 ∧ ∃ d, ofInt? n = some d ∧ d.toRat = n) := by
  by_cases h : n.natAbs < 2 ^ 96
  · refine .inr ⟨h, _, dif_pos ⟨h, by decide⟩, ?_⟩
    have value : (if (decide (n < 0) && n.natAbs != 0) = true then -(n.natAbs : ℤ)
        else n.natAbs) = n := by
      simp only [Bool.and_eq_true, decide_eq_true_eq, bne_iff_ne]
      split <;> omega
    rw [toRat, signedMantissa, value, pow_zero, div_one]
  · exact .inl ⟨by omega, dif_neg fun fits => h fits.1⟩

end Scriptlet.Decimal
