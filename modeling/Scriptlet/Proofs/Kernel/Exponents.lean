import Mathlib.Algebra.Ring.Int.Parity
import Scriptlet.Proofs.Kernel.Wrapping

/-!
# Powers of long integers

The power of a `long` wraps around like its product, as long as the exponent has no more than 32
bits; with a larger one it is zero. The law of exponents holds up to that boundary, and beyond it
where the true power vanishes too.
-/
namespace Scriptlet

namespace Machine

variable {b m n : Int64}

theorem pow_large (h : 2 ^ 32 ≤ n.toInt) : pow b n = 0 := by
  rw [pow, if_pos (.inr h)]

theorem toInt_pow_small (hn : 0 ≤ n.toInt) (h : n.toInt < 2 ^ 32) :
    (pow b n).toInt = (b.toInt ^ n.toInt.toNat).bmod (2 ^ 64) := by
  have hsmall : ¬ (n.toInt < 0 ∨ 2 ^ 32 ≤ n.toInt) := by omega
  rw [pow, if_neg hsmall, toInt_power]

theorem bmod_even_pow {b : Int} {k : Nat} (hb : Even b) (hk : 64 ≤ k) :
    (b ^ k).bmod (2 ^ 64) = 0 := by
  have hdvd : (2 : Int) ^ 64 ∣ b ^ k :=
    (pow_dvd_pow_of_dvd hb.two_dvd 64).trans (pow_dvd_pow b hk)
  exact Int.dvd_iff_bmod_eq_zero.mp (by exact_mod_cast hdvd)

theorem bmod_odd_pow {b : Int} (hb : ¬ Even b) (k : Nat) : (b ^ k).bmod (2 ^ 64) ≠ 0 := by
  intro h
  have hdvd : (2 : Int) ^ 64 ∣ b ^ k := by exact_mod_cast Int.dvd_iff_bmod_eq_zero.mpr h
  have heven : Even (b ^ k) := even_iff_two_dvd.mpr ((dvd_pow_self 2 (by decide)).trans hdvd)
  exact hb (Int.even_pow.mp heven).1

/-- Of an even base the power by a large exponent is zero anyway. -/
theorem toInt_pow (hn : 0 ≤ n.toInt) : (pow b n).toInt =
    if n.toInt < 2 ^ 32 ∨ Even b.toInt then (b.toInt ^ n.toInt.toNat).bmod (2 ^ 64) else 0 := by
  by_cases hsmall : n.toInt < 2 ^ 32
  · rw [if_pos (.inl hsmall), toInt_pow_small hn hsmall]
  · rw [pow_large (by omega)]
    split
    · rename_i h
      rw [bmod_even_pow (h.resolve_left hsmall) (by omega)]
      rfl
    · rfl

theorem toInt_mul_pow (hm : 0 ≤ m.toInt) (hn : 0 ≤ n.toInt) (hm32 : m.toInt < 2 ^ 32)
    (hn32 : n.toInt < 2 ^ 32) :
    (pow b m * pow b n).toInt = (b.toInt ^ (m.toInt + n.toInt).toNat).bmod (2 ^ 64) := by
  rw [Int64.toInt_mul, toInt_pow_small hm hm32, toInt_pow_small hn hn32, Int.bmod_mul_bmod,
    Int.mul_bmod_bmod, ← pow_add, Int.toNat_add hm hn]

theorem toInt_add_of_lt (hm : 0 ≤ m.toInt) (hn : 0 ≤ n.toInt)
    (hsum : m.toInt + n.toInt < 2 ^ 63) : (m + n).toInt = m.toInt + n.toInt := by
  rw [Int64.toInt_add]
  exact Int.bmod_eq_of_le (by omega) (by omega)

/-- The law of exponents fails exactly for an odd base where neither exponent has more than 32
bits but their sum has. -/
theorem pow_add_iff (hm : 0 ≤ m.toInt) (hn : 0 ≤ n.toInt)
    (hsum : m.toInt + n.toInt < 2 ^ 63) :
    pow b (m + n) = pow b m * pow b n ↔
      m.toInt + n.toInt < 2 ^ 32 ∨ 2 ^ 32 ≤ m.toInt ∨ 2 ^ 32 ≤ n.toInt ∨ Even b.toInt := by
  have hadd := toInt_add_of_lt hm hn hsum
  by_cases hm32 : 2 ^ 32 ≤ m.toInt
  · rw [pow_large hm32, pow_large (by omega), Int64.zero_mul]
    exact iff_of_true rfl (.inr (.inl hm32))
  by_cases hn32 : 2 ^ 32 ≤ n.toInt
  · rw [pow_large hn32, pow_large (by omega), Int64.mul_zero]
    exact iff_of_true rfl (.inr (.inr (.inl hn32)))
  have hmul : (pow b m * pow b n).toInt =
      (b.toInt ^ (m.toInt + n.toInt).toNat).bmod (2 ^ 64) :=
    toInt_mul_pow hm hn (by omega) (by omega)
  rw [← Int64.toInt_inj, hmul, toInt_pow (by omega), hadd]
  simp only [hm32, hn32, false_or]
  split
  · rename_i h
    exact iff_of_true rfl h
  · rename_i h
    exact iff_of_false (bmod_odd_pow (fun hb => h (.inr hb)) _).symm h

end Machine

namespace Kernel

/-- An operation on two `long` values under their own tag. -/
def applyLong (r : ConversionRegistry) (op : Operator) (left right : Int64) : Result :=
  apply r op .long (.long left) .long (.long right)

/-- The power by a sum of exponents is the product of the powers. -/
def ExponentLaw (r : ConversionRegistry) (b m n : Int64) : Prop :=
  ∃ p q, applyLong r .pow b m = .ok (.long p) ∧ applyLong r .pow b n = .ok (.long q) ∧
    applyLong r .pow b (m + n) = applyLong r .mul p q

theorem applyLong_pow (r : ConversionRegistry) (b n : Int64) :
    applyLong r .pow b n = .ok (.long (Machine.pow b n)) := rfl

theorem applyLong_mul (r : ConversionRegistry) (p q : Int64) :
    applyLong r .mul p q = .ok (.long (p * q)) := rfl

theorem exponentLaw_iff (r : ConversionRegistry) (b m n : Int64) :
    ExponentLaw r b m n ↔ Machine.pow b (m + n) = Machine.pow b m * Machine.pow b n := by
  constructor
  · rintro ⟨p, q, hp, hq, h⟩
    rw [applyLong_pow] at hp hq h
    rw [applyLong_mul] at h
    obtain rfl := Value.long.inj (Except.ok.inj hp)
    obtain rfl := Value.long.inj (Except.ok.inj hq)
    exact Value.long.inj (Except.ok.inj h)
  · intro h
    refine ⟨_, _, applyLong_pow r b m, applyLong_pow r b n, ?_⟩
    rw [applyLong_pow, applyLong_mul, h]

/-- The power of a `long` is the true power modulo 2^64, except that an odd base has the power
zero where the exponent has more than 32 bits. So the law of exponents holds, except where
an odd base is raised to two exponents of at most 32 bits whose sum has more. -/
theorem exponent_law (r : ConversionRegistry) (b : Int64) :
    (∀ n : Int64, 0 ≤ n.toInt → ∃ p, applyLong r .pow b n = .ok (.long p) ∧ p.toInt =
      if n.toInt < 2 ^ 32 ∨ Even b.toInt then (b.toInt ^ n.toInt.toNat).bmod (2 ^ 64) else 0) ∧
    ∀ m n : Int64, 0 ≤ m.toInt → 0 ≤ n.toInt → m.toInt + n.toInt < 2 ^ 63 →
      (ExponentLaw r b m n ↔
        m.toInt + n.toInt < 2 ^ 32 ∨ 2 ^ 32 ≤ m.toInt ∨ 2 ^ 32 ≤ n.toInt ∨ Even b.toInt) := by
  refine ⟨fun n hn => ⟨_, applyLong_pow r b n, Machine.toInt_pow hn⟩, ?_⟩
  intro m n hm hn hsum
  rw [exponentLaw_iff, Machine.pow_add_iff hm hn hsum]

/-- A power of two at the sign bit, and the law for exponents at the boundary. -/
theorem exponent_law_of_two :
    (∃ p, applyLong .empty .pow 2 63 = .ok (.long p) ∧ p.toInt = -2 ^ 63) ∧
      ExponentLaw .empty 2 4294967295 1 := by
  obtain ⟨power, law⟩ := exponent_law .empty 2
  obtain ⟨p, hp, hvalue⟩ := power 63 (by decide)
  have hvalue : p.toInt = -2 ^ 63 := by
    rw [hvalue, if_pos (.inl (by decide))]
    rfl
  exact ⟨⟨p, hp, hvalue⟩,
    (law 4294967295 1 (by decide) (by decide) (by decide)).mpr (.inr (.inr (.inr (by decide))))⟩

/-- One to the power of 2^32 is zero, although it is the product of two powers that are one. -/
theorem exponent_law_fails :
    ¬ ∀ (r : ConversionRegistry) (b m n : Int64), 0 ≤ m.toInt → 0 ≤ n.toInt →
      m.toInt + n.toInt < 2 ^ 63 → ExponentLaw r b m n := by
  intro law
  have holds := (exponentLaw_iff _ _ _ _).mp
    (law .empty 1 4294967295 1 (by decide) (by decide) (by decide))
  have fails := (Machine.pow_add_iff (by decide) (by decide) (by decide)).mp holds
  revert fails
  decide

end Kernel

end Scriptlet
