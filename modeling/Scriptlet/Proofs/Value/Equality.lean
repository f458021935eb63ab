import Scriptlet.Value.Basic

/-!
# Equality of values is symmetric

Two values of one kind are equal in either order. For floating numbers this is read off the model
of their comparison.
-/
namespace Scriptlet

namespace Floating

open Float.Model (UnpackedFloat)

theorem compare_swap (a b : UnpackedFloat) : b.compare a = (a.compare b).map Ordering.swap := by
  have magnitudes (m n : Nat) (e f : Int) : (compare f e).then (compare n m) =
      ((compare e f).then (compare m n)).swap := by
    rw [Ordering.swap_then, ← Std.OrientedOrd.eq_swap, ← Std.OrientedOrd.eq_swap]
  cases a with
  | notANumber => cases b <;> rfl
  | infinity s =>
    cases b with
    | infinity t => cases s <;> cases t <;> rfl
    | _ => cases s <;> rfl
  | zero s =>
    cases b with
    | infinity t => cases t <;> rfl
    | finite t m e h => cases t <;> rfl
    | _ => rfl
  | finite s m e h =>
    cases b with
    | infinity t => cases s <;> cases t <;> rfl
    | finite t n f k =>
      cases s <;> cases t
      · exact congrArg (fun o => some o.swap) (magnitudes m n e f)
      · rfl
      · rfl
      · exact congrArg some (magnitudes m n e f)
    | _ => cases s <;> rfl

theorem unpacked_beq_comm (a b : UnpackedFloat) : a.beq b = b.beq a := by
  change (a.compare b == some .eq) = (b.compare a == some .eq)
  rw [compare_swap a b]
  cases a.compare b with
  | none => rfl
  | some o => cases o <;> rfl

theorem double_beq_comm (a b : Float) : (a == b) = (b == a) := unpacked_beq_comm _ _

theorem single_beq_comm (a b : Float32) : (a == b) = (b == a) := unpacked_beq_comm _ _

end Floating

theorem Decimal.equals_comm (a b : Decimal) : a.equals b = b.equals a := by
  simp [Decimal.equals, BEq.comm]

theorem Value.equals_comm (v w : Value) : v.equals w = w.equals v := by
  cases v <;> cases w <;> try rfl
  case float.float a b => exact Floating.single_beq_comm a b
  case double.double a b => exact Floating.double_beq_comm a b
  case bigDecimal.bigDecimal a b => exact a.equals_comm b
  case object.object a b => exact a.equals_comm b
  all_goals simp [Value.equals, BEq.comm]

end Scriptlet
