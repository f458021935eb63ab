import Scriptlet.Conversion.Registry
import Scriptlet.Proofs.Kind.Widening

/-!
# Tags of conversions

A conversion into a built-in type makes a value of the tag of that type.
-/
namespace Scriptlet

namespace Conversion

theorem tag_narrow (n : Number) {p : Primitive} (hb : p ≠ .boolean) (hc : p ≠ .char) :
    (narrow n p).tag = Tag.ofPrimitive p := by
  cases n <;> cases p <;> first | rfl | contradiction

theorem tag_toBoolean {v w : Value} {target : Ty} (h : toBoolean v target = .ok w) :
    w.tag = .boolean := by
  unfold toBoolean at h
  split at h
  · obtain rfl := Except.ok.inj h
    rfl
  · split at h
    · obtain rfl := Except.ok.inj h
      rfl
    · split at h
      · obtain rfl := Except.ok.inj h
        rfl
      · contradiction
  · contradiction

theorem tag_toChar {v w : Value} {target : Ty} (h : toChar v target = .ok w) :
    w.tag = .char := by
  unfold toChar at h
  split at h
  · obtain rfl := Except.ok.inj h
    rfl
  · split at h
    · obtain rfl := Except.ok.inj h
      rfl
    · contradiction
  · split at h
    · contradiction
    · split at h
      · obtain rfl := Except.ok.inj h
        rfl
      · contradiction

theorem tag_toNumeric {v w : Value} {p : Primitive} {target : Ty} (hb : p ≠ .boolean)
    (hc : p ≠ .char) (h : toNumeric v p target = .ok w) : w.tag = Tag.ofPrimitive p := by
  unfold toNumeric at h
  split at h
  · split at h
    · obtain rfl := Except.ok.inj h
      exact tag_narrow _ hb hc
    · contradiction
  · contradiction
  · contradiction
  · contradiction
  · split at h
    · obtain rfl := Except.ok.inj h
      exact tag_narrow _ hb hc
    · contradiction

theorem tag_toPrimitive {v w : Value} {p : Primitive} {target : Ty}
    (h : toPrimitive v p target = .ok w) : w.tag = Tag.ofPrimitive p := by
  cases p
  case boolean => exact tag_toBoolean h
  case char => exact tag_toChar h
  all_goals exact tag_toNumeric (by decide) (by decide) h

theorem tag_toBigInteger {v w : Value} {target : Ty} (h : toBigInteger v target = .ok w) :
    w.tag = .bigInteger := by
  unfold toBigInteger at h
  split at h
  · split at h
    · obtain rfl := Except.ok.inj h
      rfl
    · contradiction
  · contradiction
  · contradiction
  · split at h
    · obtain rfl := Except.ok.inj h
      rfl
    · contradiction

theorem tag_toBigDecimal {v w : Value} {target : Ty} (h : toBigDecimal v target = .ok w) :
    w.tag = .bigDecimal := by
  unfold toBigDecimal at h
  split at h
  · split at h
    · obtain rfl := Except.ok.inj h
      rfl
    · contradiction
  · contradiction
  · contradiction
  · split at h
    · obtain rfl := Except.ok.inj h
      rfl
    · contradiction

end Conversion

namespace ConversionRegistry

/-- What becomes of a value that is not null has the tag of the type. -/
theorem tag_convert {r : ConversionRegistry} {v w : Value} {target : Ty}
    (h : r.convert v target = .ok w) (hv : v.isNull = false)
    (known : (OperandTag.ofTy target).isSome) : w.tag = Tag.ofTy target := by
  unfold convert at h
  rw [hv] at h
  cases target with
  | primitive p => exact Conversion.tag_toPrimitive h
  | boxed p => exact Conversion.tag_toPrimitive h
  | bigInteger => exact Conversion.tag_toBigInteger h
  | bigDecimal => exact Conversion.tag_toBigDecimal h
  | string =>
    obtain rfl := Except.ok.inj h
    rfl
  | any | null | hostClass c => contradiction

/-- What a conversion makes is of the target type. Null may stand for a string, and a handler may
make a string for an object. -/
theorem admits_convert {r : ConversionRegistry} {v w : Value} {target : Ty}
    (h : r.convert v target = .ok w) :
    target.admits w.tag = true ∨ (w.tag = .null ∧ target = .string) ∨
      (w.tag = .string ∧ ∃ c, target = .hostClass c) := by
  by_cases hv : v.isNull = true
  · obtain rfl : w = .null := by
      unfold convert at h
      rw [if_pos hv] at h
      split at h
      · contradiction
      · exact (Except.ok.inj h).symm
    cases target with
    | string => exact .inr (.inl ⟨rfl, rfl⟩)
    | _ => exact .inl rfl
  · have hv : v.isNull = false := by simpa using hv
    have known (hk : (OperandTag.ofTy target).isSome) : target.admits w.tag = true := by
      rw [tag_convert h hv hk]
      exact target.admits_self
    cases target with
    | any => exact .inl rfl
    | primitive p => exact .inl (known (by cases p <;> rfl))
    | boxed p => exact .inl (known (by cases p <;> rfl))
    | bigInteger | bigDecimal | string => exact .inl (known rfl)
    | null =>
      unfold convert at h
      rw [hv] at h
      contradiction
    | hostClass c =>
      by_cases hs : w.tag = .string
      · exact .inr (.inr ⟨hs, c, rfl⟩)
      · left
        simpa [Ty.admits] using hs

end ConversionRegistry

end Scriptlet
