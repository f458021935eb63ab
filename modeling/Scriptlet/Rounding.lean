/-!
# Rounding quotients

Division of natural numbers rounded to a neighbouring integer, and the powers that scale them.
-/

-- `b ^ n` is the power of the core library, also in a module that imports monoids
attribute [instance (high), default_instance (high + 1)] instPowNat

namespace Scriptlet.Rounding

/-- The integer nearest to `num / den`; a half goes to the even neighbour. -/
def halfEven (num den : Nat) : Nat :=
  let quotient := num / den
  let twice := 2 * (num % den)
  if den < twice ∨ (twice = den ∧ quotient % 2 = 1) then quotient + 1 else quotient

/-- The integer nearest to `num / den`; a half goes up. -/
def halfUp (num den : Nat) : Nat :=
  let quotient := num / den
  if den ≤ 2 * (num % den) then quotient + 1 else quotient

/-- The least integer that is not below `num / den`. -/
def ceil (num den : Nat) : Nat := if num % den = 0 then num / den else num / den + 1

/-- A quotient rounded up is not below the exact one, and less than one above it. -/
theorem ceil_bounds {num den : Nat} (h : 0 < den) :
    num ≤ ceil num den * den ∧ ceil num den * den < num + den := by
  have hdiv := Nat.div_add_mod num den
  have hlt := Nat.mod_lt num h
  rw [Nat.mul_comm] at hdiv
  unfold ceil
  split
  · constructor <;> omega
  · rw [Nat.add_mul]
    constructor <;> omega

theorem halfEven_one (num : Nat) : halfEven num 1 = num := by
  simp [halfEven, Nat.mod_one]

/-- Rounding moves by at most one half of the divisor. -/
theorem halfEven_bounds {num den : Nat} (h : 0 < den) :
    2 * (halfEven num den * den) ≤ 2 * num + den ∧
      2 * num ≤ 2 * (halfEven num den * den) + den := by
  have hdiv := Nat.div_add_mod num den
  have hlt := Nat.mod_lt num h
  rw [Nat.mul_comm] at hdiv
  unfold halfEven
  simp only
  split
  · rename_i hc
    rw [Nat.add_mul]
    constructor <;> omega
  · rename_i hc
    constructor <;> omega

end Scriptlet.Rounding
