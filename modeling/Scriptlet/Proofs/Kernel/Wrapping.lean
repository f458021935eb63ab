import Scriptlet.Proofs.Kernel.Outcome

/-!
# Words wrap around

An operation on machine integers yields the low bits of what the operation on integers of any
size yields on the same two integers.
-/
namespace Scriptlet

/-! ## Bits of an integer -/

namespace Big

variable {width : Nat}

theorem ofInt_land (m n : Int) :
    BitVec.ofInt width (land m n) = BitVec.ofInt width m &&& BitVec.ofInt width n := by
  cases m <;> cases n <;>
    simp only [land, Int.ofNat_eq_natCast, BitVec.ofInt_natCast,
      BitVec.ofInt_negSucc_eq_not_ofNat, BitVec.ofNat_and, BitVec.ofNat_or, BitVec.ofNat_xor] <;>
    grind

theorem ofInt_lor (m n : Int) :
    BitVec.ofInt width (lor m n) = BitVec.ofInt width m ||| BitVec.ofInt width n := by
  cases m <;> cases n <;>
    simp only [lor, Int.ofNat_eq_natCast, BitVec.ofInt_natCast,
      BitVec.ofInt_negSucc_eq_not_ofNat, BitVec.ofNat_and, BitVec.ofNat_or, BitVec.ofNat_xor] <;>
    grind

theorem ofInt_xor (m n : Int) :
    BitVec.ofInt width (xor m n) = BitVec.ofInt width m ^^^ BitVec.ofInt width n := by
  cases m <;> cases n <;>
    simp only [xor, Int.ofNat_eq_natCast, BitVec.ofInt_natCast,
      BitVec.ofInt_negSucc_eq_not_ofNat, BitVec.ofNat_xor] <;>
    grind

theorem toInt_land (x y : BitVec width) :
    (x &&& y).toInt = (land x.toInt y.toInt).bmod (2 ^ width) := by
  rw [← BitVec.toInt_ofInt, ofInt_land, BitVec.ofInt_toInt, BitVec.ofInt_toInt]

theorem toInt_lor (x y : BitVec width) :
    (x ||| y).toInt = (lor x.toInt y.toInt).bmod (2 ^ width) := by
  rw [← BitVec.toInt_ofInt, ofInt_lor, BitVec.ofInt_toInt, BitVec.ofInt_toInt]

theorem toInt_xor (x y : BitVec width) :
    (x ^^^ y).toInt = (xor x.toInt y.toInt).bmod (2 ^ width) := by
  rw [← BitVec.toInt_ofInt, ofInt_xor, BitVec.ofInt_toInt, BitVec.ofInt_toInt]

theorem shiftLeft_eq (n : Int) (count : Nat) : shiftLeft n count = n * 2 ^ count := by
  unfold shiftLeft
  split
  · rename_i h
    rw [h, Int.zero_mul]
  · rfl

theorem toInt_shiftLeft (x : BitVec width) (count : Nat) :
    (x <<< count).toInt = (shiftLeft x.toInt count).bmod (2 ^ width) := by
  rw [shiftLeft_eq, BitVec.toInt_shiftLeft, BitVec.toInt_eq_toNat_bmod x, Int.bmod_mul_bmod,
    Nat.shiftLeft_eq]
  push_cast
  rfl

theorem toInt_shiftRight (x : BitVec width) (count : Nat) :
    (x.sshiftRight count).toInt = (x.toInt.shiftRight count).bmod (2 ^ width) := by
  have h : (x.sshiftRight count).toInt = x.toInt.shiftRight count := BitVec.toInt_sshiftRight
  rw [← h, BitVec.toInt_bmod_cancel]

end Big

/-! ## Words of 64 and of 32 bits -/

namespace Machine

theorem pow_bmod (x : Int) (size k : Nat) :
    ((x.bmod size) ^ k).bmod size = (x ^ k).bmod size := by
  induction k with
  | zero => rw [Int.pow_zero, Int.pow_zero]
  | succ k ih =>
    rw [Int.pow_succ, Int.pow_succ, Int.mul_bmod_bmod, ← Int.bmod_mul_bmod, ih, Int.bmod_mul_bmod]

theorem pow_add_self (x : Int) (k : Nat) : x ^ (k + k) = (x * x) ^ k := by
  rw [Int.pow_add, Int.mul_pow]

/-- Squaring and multiplying in 64 bits yields the low 64 bits of the power. -/
theorem toInt_power (base : Int64) (exponent : Nat) :
    (power base exponent).toInt = (base.toInt ^ exponent).bmod (2 ^ 64) := by
  fun_induction power base exponent with
  | case1 base =>
    rw [Int.pow_zero]
    rfl
  | case2 base exponent hpos rest hodd ih =>
    have hsplit : exponent = exponent / 2 + exponent / 2 + 1 := by omega
    rw [hsplit, Int.pow_succ', pow_add_self, Int64.toInt_mul, ih, Int64.toInt_mul,
      Int.mul_bmod_bmod, ← Int.mul_bmod_bmod, pow_bmod, Int.mul_bmod_bmod]
  | case3 base exponent hpos rest heven ih =>
    have hsplit : exponent = exponent / 2 + exponent / 2 := by omega
    rw [hsplit, pow_add_self, ih, Int64.toInt_mul, pow_bmod]

theorem toInt_eq_zero {n : Int64} : n.toInt = 0 ↔ n = 0 := by
  rw [← Int64.toInt_inj, Int64.toInt_zero]

variable {op : Operator} {z : Int}

/-- Where big integers have a result of arithmetic, 64-bit integers have its low bits. -/
theorem arithmetic_wraps {l r : Int64} (h : Big.arithmetic? op l.toInt r.toInt = some (.ok z)) :
    ∃ n, arithmetic? op l r = some (.ok n) ∧ n.toInt = z.bmod (2 ^ 64) := by
  cases op <;> simp only [Big.arithmetic?, Option.some.injEq, reduceCtorEq, toInt_eq_zero] at h
  case add =>
    obtain rfl := Except.ok.inj h
    exact ⟨_, rfl, Int64.toInt_add l r⟩
  case sub =>
    obtain rfl := Except.ok.inj h
    exact ⟨_, rfl, Int64.toInt_sub l r⟩
  case mul =>
    obtain rfl := Except.ok.inj h
    exact ⟨_, rfl, Int64.toInt_mul l r⟩
  case div =>
    split at h
    · contradiction
    · rename_i hr
      obtain rfl := Except.ok.inj h
      exact ⟨l / r, by rw [arithmetic?, if_neg hr], Int64.toInt_div l r⟩
  case rem =>
    split at h
    · contradiction
    · rename_i hr
      obtain rfl := Except.ok.inj h
      refine ⟨l % r, by rw [arithmetic?, if_neg hr], ?_⟩
      rw [← Int64.toInt_mod, Int64.toInt_bmod_size]
  case pow =>
    refine ⟨_, rfl, ?_⟩
    unfold Big.pow at h
    unfold pow
    split at h
    · rename_i hneg
      obtain rfl := Except.ok.inj h
      rw [if_pos (.inl hneg)]
      rfl
    · rename_i hneg
      split at h
      · contradiction
      · rename_i hlarge
        have hsmall : ¬ (r.toInt < 0 ∨ 2 ^ 32 ≤ r.toInt) := by
          unfold Big.largestExponent at hlarge
          omega
        obtain rfl := Except.ok.inj h
        rw [if_neg hsmall, toInt_power, Big.power_eq]

theorem arithmetic_divisionByZero {l r : Int64} :
    arithmetic? op l r = some (.error .divisionByZero) ↔
      Big.arithmetic? op l.toInt r.toInt = some (.error .divisionByZero) := by
  cases op
  case pow =>
    simp only [arithmetic?, Big.arithmetic?, Big.pow, Option.some.injEq, reduceCtorEq, false_iff]
    split
    · simp
    · split <;> simp
  all_goals simp [arithmetic?, Big.arithmetic?, toInt_eq_zero]

/-! ### Bitwise operations -/

/-- Bitwise operations and shifts on words of one width, given the shift distance. -/
def wordBitwise? {width : Nat} (op : Operator) (x y : BitVec width) (distance : Nat) :
    Option (BitVec width) :=
  match op with
  | .bitAnd => some (x &&& y)
  | .bitOr => some (x ||| y)
  | .bitXor => some (x ^^^ y)
  | .shl => some (x <<< distance)
  | .shr => some (x.sshiftRight distance)
  | _ => none

theorem distance_ok {n : Int} {count : Nat} (h : Big.distance op n = .ok count) :
    n.toNat = count := by
  unfold Big.distance at h
  split at h
  · contradiction
  · exact Except.ok.inj h

/-- Where big integers have a result, words have its low bits. -/
theorem wordBitwise_wraps {width : Nat} {x y : BitVec width}
    (h : Big.bitwise? op x.toInt y.toInt = some (.ok z)) :
    ∃ n, wordBitwise? op x y y.toInt.toNat = some n ∧ n.toInt = z.bmod (2 ^ width) := by
  cases op <;> simp only [Big.bitwise?, Option.some.injEq, reduceCtorEq] at h
  case bitAnd =>
    obtain rfl := Except.ok.inj h
    exact ⟨_, rfl, Big.toInt_land x y⟩
  case bitOr =>
    obtain rfl := Except.ok.inj h
    exact ⟨_, rfl, Big.toInt_lor x y⟩
  case bitXor =>
    obtain rfl := Except.ok.inj h
    exact ⟨_, rfl, Big.toInt_xor x y⟩
  case shl =>
    obtain ⟨count, hcount, rfl⟩ := Kernel.map_eq_ok h
    exact ⟨_, rfl, by rw [distance_ok hcount, Big.toInt_shiftLeft]⟩
  case shr =>
    obtain ⟨count, hcount, rfl⟩ := Kernel.map_eq_ok h
    exact ⟨_, rfl, by rw [distance_ok hcount, Big.toInt_shiftRight]⟩

/-- A shift distance is less than the width. -/
def InWidth (op : Operator) (width : Nat) (n : Int) : Prop :=
  op = .shl ∨ op = .shr → 0 ≤ n ∧ n < width

/-- The mask leaves a distance in range alone. -/
theorem mask_long {r : Int64} (h : 0 ≤ r.toInt ∧ r.toInt < 64) :
    ((r &&& 0x3f).toBitVec.smod 64).toNat = r.toInt.toNat := by
  have table : ∀ n < 64, ((Int64.ofNat n &&& 0x3f).toBitVec.smod 64).toNat = n := by
    decide +kernel
  have hr : r = Int64.ofNat r.toInt.toNat := by
    rw [← Int64.ofInt_eq_ofNat, Int.toNat_of_nonneg h.1, Int64.ofInt_toInt]
  have := table r.toInt.toNat (by omega)
  rwa [← hr] at this

theorem mask_int {r : Int32} (h : 0 ≤ r.toInt ∧ r.toInt < 32) :
    ((r &&& 0x1f).toBitVec.smod 32).toNat = r.toInt.toNat := by
  have table : ∀ n < 32, ((Int32.ofNat n &&& 0x1f).toBitVec.smod 32).toNat = n := by
    decide +kernel
  have hr : r = Int32.ofNat r.toInt.toNat := by
    rw [← Int32.ofInt_eq_ofNat, Int.toNat_of_nonneg h.1, Int32.ofInt_toInt]
  have := table r.toInt.toNat (by omega)
  rwa [← hr] at this

theorem bitwiseLong_word {l r : Int64} {n : BitVec 64} (hr : InWidth op 64 r.toInt)
    (h : wordBitwise? op l.toBitVec r.toBitVec r.toInt.toNat = some n) :
    bitwiseLong? op l r = some (.ofBitVec n) := by
  cases op <;> cases h
  case shl =>
    rw [← mask_long (hr (.inl rfl))]
    rfl
  case shr =>
    rw [← mask_long (hr (.inr rfl))]
    rfl
  all_goals rfl

theorem bitwiseInt_word {l r : Int32} {n : BitVec 32} (hr : InWidth op 32 r.toInt)
    (h : wordBitwise? op l.toBitVec r.toBitVec r.toInt.toNat = some n) :
    bitwiseInt? op l r = some (.ofBitVec n) := by
  cases op <;> cases h
  case shl =>
    rw [← mask_int (hr (.inl rfl))]
    rfl
  case shr =>
    rw [← mask_int (hr (.inr rfl))]
    rfl
  all_goals rfl

end Machine

end Scriptlet
