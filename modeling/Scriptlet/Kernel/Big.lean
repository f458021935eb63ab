import Scriptlet.Kernel.Error
import Scriptlet.Rounding

/-!
# Big integers

Arithmetic on integers of any size. Quotients are truncated, the remainder has the sign of the
dividend, and bitwise operations work on the infinite two's complement form.
-/
namespace Scriptlet.Big

/-- The largest exponent and shift distance. -/
def largestExponent : Int := 2 ^ 31 - 1

/-- The power by a natural exponent. -/
def power (base : Int) (exponent : Nat) : Int :=
  if base = 0 ∨ base = 1 then if exponent = 0 then 1 else base
  else if base = -1 then if exponent % 2 = 0 then 1 else -1
  else base ^ exponent

theorem power_eq (base : Int) (exponent : Nat) : power base exponent = base ^ exponent := by
  unfold power
  split
  · rename_i h
    split
    · simp_all
    · rcases h with rfl | rfl
      · rename_i h; exact (Int.zero_pow h).symm
      · exact (Int.one_pow).symm
  · split
    · rename_i h
      subst h
      split
      · rename_i h
        obtain ⟨k, rfl⟩ : ∃ k, exponent = 2 * k := ⟨exponent / 2, by omega⟩
        rw [Int.pow_mul]
        exact Int.one_pow.symm
      · rename_i h
        obtain ⟨k, rfl⟩ : ∃ k, exponent = 2 * k + 1 := ⟨exponent / 2, by omega⟩
        rw [Int.pow_succ, Int.pow_mul]
        exact (congrArg (· * (-1)) Int.one_pow).symm
    · rfl

/-- The power by an integer exponent; zero for a negative one. -/
def pow (op : Operator) (base exponent : Int) : Except RuntimeError Int :=
  if exponent < 0 then .ok 0
  else if largestExponent < exponent then .error (.overflow op)
  else .ok (power base exponent.toNat)

/-- Arithmetic on big integers; none for an operator that is not arithmetic. -/
def arithmetic? (op : Operator) (left right : Int) : Option (Except RuntimeError Int) :=
  match op with
  | .add => some (.ok (left + right))
  | .sub => some (.ok (left - right))
  | .mul => some (.ok (left * right))
  | .div => some (if right = 0 then .error .divisionByZero else .ok (left.tdiv right))
  | .rem => some (if right = 0 then .error .divisionByZero else .ok (left.tmod right))
  | .pow => some (pow op left right)
  | _ => none

/-- Conjunction of two's complement forms. -/
def land : Int → Int → Int
  | .ofNat m, .ofNat n => (m &&& n : Nat)
  | .ofNat m, .negSucc n => (m ^^^ (m &&& n) : Nat)
  | .negSucc m, .ofNat n => (n ^^^ (n &&& m) : Nat)
  | .negSucc m, .negSucc n => .negSucc (m ||| n)

/-- Disjunction of two's complement forms. -/
def lor : Int → Int → Int
  | .ofNat m, .ofNat n => (m ||| n : Nat)
  | .ofNat m, .negSucc n => .negSucc (n ^^^ (n &&& m))
  | .negSucc m, .ofNat n => .negSucc (m ^^^ (m &&& n))
  | .negSucc m, .negSucc n => .negSucc (m &&& n)

/-- Exclusive disjunction of two's complement forms. -/
def xor : Int → Int → Int
  | .ofNat m, .ofNat n => (m ^^^ n : Nat)
  | .ofNat m, .negSucc n => .negSucc (m ^^^ n)
  | .negSucc m, .ofNat n => .negSucc (m ^^^ n)
  | .negSucc m, .negSucc n => (m ^^^ n : Nat)

/-- A shift distance, if it is in range. -/
def distance (op : Operator) (n : Int) : Except RuntimeError Nat :=
  if n < 0 ∨ largestExponent < n then .error (.overflow op) else .ok n.toNat

/-- The product with a power of two. -/
def shiftLeft (n : Int) (count : Nat) : Int := if n = 0 then 0 else n * 2 ^ count

/-- Bitwise operations and shifts; right shifts round down. -/
def bitwise? (op : Operator) (left right : Int) : Option (Except RuntimeError Int) :=
  match op with
  | .bitAnd => some (.ok (land left right))
  | .bitOr => some (.ok (lor left right))
  | .bitXor => some (.ok (xor left right))
  | .shl => some ((distance op right).map (shiftLeft left))
  | .shr => some ((distance op right).map left.shiftRight)
  | _ => none

end Scriptlet.Big
