import Scriptlet.Host
import Scriptlet.Proofs.Conversion.Agreement
import Scriptlet.Proofs.Conversion.Tags

/-!
# Conversions land in their target

What a conversion makes of a value fits the target, and a value that fits a type is left as it is
by a conversion into it. Hence converting twice is converting once.
-/
namespace Scriptlet

namespace Ty

/-- The value is one of the type as it is. -/
def Fits (target : Ty) (v : Value) : Prop :=
  match target with
  | .any => v.isNull = false
  | .hostClass c => ConversionRegistry.isInstance c v = true
  | t => v.tag = Tag.ofTy t

variable {target : Ty} {v : Value}

theorem Fits.tag (h : target.Fits v) (hany : target ≠ .any) : v.tag = Tag.ofTy target := by
  cases target with
  | any => contradiction
  | hostClass c => cases v <;> first | rfl | contradiction
  | _ => exact h

theorem Fits.not_null (h : target.Fits v) (hnull : target ≠ .null) : v.isNull = false := by
  rw [← Bool.not_eq_true, Value.isNull_iff_tag]
  cases target with
  | null => contradiction
  | any => rwa [← Value.isNull_iff_tag, Bool.not_eq_true]
  | primitive p | boxed p =>
    rw [h.tag (by simp)]
    cases p <;> decide
  | _ =>
    rw [h.tag (by simp)]
    simp [Tag.ofTy]

end Ty

namespace Conversion

variable {v : Value} {target : Ty}

/-- A value of a kind is its own conversion into it; floating kinds are apart, since they are
read as doubles. -/
theorem toPrimitive_self {p : Primitive} (h : v.tag = Tag.ofPrimitive p)
    (hp : isFloatingKind p = false) : toPrimitive v p target = .ok v := by
  cases v <;> cases p <;> first
    | contradiction
    | simp [toPrimitive, toBoolean, toChar, toNumeric, isFloatingKind, integralNumber?,
        Value.toInt64?, narrow]

end Conversion

namespace ConversionRegistry

/-- What the handlers of classes make of other values are instances of the class asked for. -/
def MakesInstances (r : ConversionRegistry) : Prop :=
  ∀ c v handler w, r.Consulted c v handler → handler.convert v (.hostClass c) = .ok w →
    isInstance c w = true

variable {r : ConversionRegistry} {v w : Value} {target : Ty}

theorem fits_convert (hr : r.MakesInstances) (hv : v.isNull = false)
    (h : r.convert v target = .ok w) : target.Fits w := by
  have known (hk : (OperandTag.ofTy target).isSome) : w.tag = Tag.ofTy target := tag_convert h hv hk
  cases target with
  | primitive p => exact known (by cases p <;> rfl)
  | boxed p => exact known (by cases p <;> rfl)
  | bigInteger | bigDecimal | string => exact known rfl
  | null => simp [convert, hv] at h
  | any =>
    obtain rfl : v = w := by simpa [convert, hv] using h
    exact hv
  | hostClass c =>
    have made : r.toHostClass v c = .ok w := by simpa [convert, hv] using h
    obtain ⟨-, refused⟩ | ⟨-, ⟨converted, own⟩ | ⟨handler, consulted⟩⟩ := r.toHostClass_cases c hv
    · rw [refused] at made
      contradiction
    · obtain rfl := Except.ok.inj (converted.symm.trans made)
      exact own
    · rw [consulted.convert_eq] at h
      exact hr c v handler w consulted h

theorem canConvert_of_fits (h : target.Fits v) (hnull : target ≠ .null) :
    r.canConvert target v.ty = true := by
  have hv := h.not_null hnull
  have kind {p : Primitive} (h : v.tag = Tag.ofPrimitive p) :
      acceptsBuiltin (.boxed p) v.ty = true := by
    cases p <;> cases v <;> first | contradiction | rfl
  have number (h : v.tag = .bigInteger ∨ v.tag = .bigDecimal) :
      (v.ty.isNumber || v.ty == .string || v.ty.isChar) = true := by
    cases v <;> rcases h with h | h <;> first | contradiction | rfl
  cases target with
  | primitive p => exact (r.canConvert_kind hv (.inl rfl)).trans (kind h)
  | boxed p => exact (r.canConvert_kind hv (.inr rfl)).trans (kind h)
  | bigInteger => exact (r.canConvert_bigInteger hv).trans (number (.inl h))
  | bigDecimal => exact (r.canConvert_bigDecimal hv).trans (number (.inr h))
  | string => exact r.canConvert_string v.ty
  | any => exact r.canConvert_any v.ty
  | null => contradiction
  | hostClass c =>
    have own : isInstance c v = true := h
    rw [r.canConvert_hostClass hv, own, Bool.true_or]

theorem convert_of_fits (h : target.Fits v)
    (ht : Tag.ofTy target ∉ [Tag.float, .double, .null]) : r.convert v target = .ok v := by
  have hnull : target ≠ .null := by
    rintro rfl
    exact ht (by simp [Tag.ofTy])
  have hv := h.not_null hnull
  have exactKind {p : Primitive} (hp : Tag.ofPrimitive p ∉ [Tag.float, .double, .null]) :
      Conversion.isFloatingKind p = false := by
    cases p <;> first | rfl | simp [Tag.ofPrimitive] at hp
  simp only [convert, hv, Bool.false_eq_true, if_false]
  cases target with
  | primitive p => exact Conversion.toPrimitive_self h (exactKind ht)
  | boxed p => exact Conversion.toPrimitive_self h (exactKind ht)
  | null => contradiction
  | any => rfl
  | hostClass c => exact if_pos h
  | string =>
    obtain ⟨s, rfl⟩ : ∃ s, v = .string s := by cases v <;> first | contradiction | exact ⟨_, rfl⟩
    simp [Value.display, Value.displayChars]
  | bigInteger | bigDecimal => cases v <;> first | contradiction | rfl

theorem null_of_convert (h : r.convert .null target = .ok w) :
    w = .null ∧ target.isPrimitive = false := by
  cases hp : target.isPrimitive with
  | true => simp [convert, Value.isNull, hp] at h
  | false =>
    rw [r.convert_null target hp] at h
    exact ⟨(Except.ok.inj h).symm, rfl⟩

/-- A conversion lands in its target and is idempotent, given handlers that make instances of
the class asked for. Only null becomes null, other values get the tag of the type and become
instances of a class, and neither the type nor the value refuses to be converted again. -/
theorem convert_idempotent (hr : r.MakesInstances)
    (ht : Tag.ofTy target ∉ [Tag.float, .double, .null]) (h : r.convert v target = .ok w) :
    (w = .null ↔ v = .null) ∧
    (w ≠ .null → target ≠ .any → w.tag = Tag.ofTy target) ∧
    (w ≠ .null → ∀ c, target = .hostClass c → isInstance c w = true) ∧
    r.canConvert target w.ty = true ∧ r.convert w target = .ok w := by
  have null_iff (v : Value) : v = .null ↔ v.isNull = true := by cases v <;> simp [Value.isNull]
  have hnull : target ≠ .null := by
    rintro rfl
    exact ht (by simp [Tag.ofTy])
  by_cases hv : v = .null
  · subst hv
    obtain ⟨rfl, reference⟩ := null_of_convert h
    refine ⟨by simp, by simp, by simp, ?_, r.convert_null target reference⟩
    rw [Value.ty, r.canConvert_null, reference]
    rfl
  · have fits := fits_convert hr (by simpa [null_iff] using hv) h
    have hw : w ≠ .null := by simp [null_iff, fits.not_null hnull]
    refine ⟨by simp [hv, hw], fun _ => fits.tag, fun _ c hc => ?_, canConvert_of_fits fits hnull,
      convert_of_fits fits ht⟩
    subst hc
    exact fits

theorem makesInstances_date : (empty.register "Date" Host.dateHandler).MakesInstances := by
  intro c v handler w consulted h
  obtain rfl : Host.dateHandler = handler := by
    have registered := consulted.registered
    simp only [handler?, register, empty, List.lookup_cons, List.lookup_nil] at registered
    split at registered
    · exact Option.some.inj registered
    · contradiction
  simp only [Host.dateHandler, Host.toDate] at h
  split at h
  · rename_i days c' _ hc
    obtain rfl := Ty.hostClass.inj hc
    obtain rfl := Except.ok.inj h
    exact ClassType.isAncestorOf_refl c
  · contradiction

/-- The date that a string is converted to is converted to itself. -/
theorem convert_idempotent_date :
    (empty.register "Date" Host.dateHandler).MakesInstances ∧
      Tag.ofTy (.hostClass ⟨"Date", []⟩) ∉ [Tag.float, .double, .null] ∧
      ∃ w, (empty.register "Date" Host.dateHandler).convert (.string "@5")
          (.hostClass ⟨"Date", []⟩) = .ok w ∧
        w.tag = .object ∧ isInstance ⟨"Date", []⟩ w = true ∧
        (empty.register "Date" Host.dateHandler).convert w (.hostClass ⟨"Date", []⟩) = .ok w := by
  have kind : Tag.ofTy (.hostClass ⟨"Date", []⟩) ∉ [Tag.float, .double, .null] := by decide
  have converted : (empty.register "Date" Host.dateHandler).convert (.string "@5")
      (.hostClass ⟨"Date", []⟩) = .ok (Host.date ⟨"Date", []⟩ 5) := by
    rfl
  obtain ⟨null, tag, isOf, -, again⟩ :=
    convert_idempotent makesInstances_date kind converted
  have hw : Host.date ⟨"Date", []⟩ 5 ≠ .null := by simp [null]
  exact ⟨makesInstances_date, kind, _, converted, tag hw (by simp), isOf hw _ rfl, again⟩

end ConversionRegistry

end Scriptlet
