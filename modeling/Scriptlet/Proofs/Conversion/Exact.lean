import Scriptlet.Proofs.Conversion.Tags

/-!
# Conversions that keep the number

Operations in a kind read their operands in one way. Conversion into a wider kind keeps this
reading, except that a `float` holds fewer digits than an `int`.
-/
namespace Scriptlet

/-- Both values read as the same number where the operands are promoted to the tag. -/
def Value.ReadsAs (tag : Tag) (v w : Value) : Prop :=
  match tag with
  | .float | .double => v.toDouble? = w.toDouble?
  | .bigInteger => v.toInt? = w.toInt?
  | .bigDecimal => v.toDecimal? = w.toDecimal?
  | _ => v.toInt64? = w.toInt64?

namespace Conversion

theorem toNumeric_number {v w : Value} {p : Primitive} {target : Ty}
    (hv : v.tag.isNumeric = true) (h : toNumeric v p target = .ok w) :
    ∃ n, (if isFloatingKind p then floatingNumber? v else integralNumber? v) = some n ∧
      w = narrow n p := by
  cases v <;> try contradiction
  all_goals
    simp only [toNumeric] at h
    split at h
    · rename_i n hn
      exact ⟨n, hn, (Except.ok.inj h).symm⟩
    · contradiction

theorem toDouble?_narrow_double {v : Value} {n : Number} (h : floatingNumber? v = some n) :
    v.toDouble? = (narrow n .double).toDouble? := by
  cases v <;> first | contradiction | (obtain rfl := Option.some.inj h; rfl)

/-- A character is a code point, which an `int` holds. -/
theorem toInt64_codePoint (c : Char) : (Int32.ofNat c.toNat).toInt64 = Int64.ofNat c.toNat := by
  have hc : c.toNat < 2 ^ 31 := by
    have : c.toNat < 0xd800 ∨ (0xdfff < c.toNat ∧ c.toNat < 0x110000) := c.valid
    omega
  apply Int64.toInt_inj.mp
  rw [Int32.toInt_toInt64, Int32.toInt_ofNat_of_lt hc, Int64.toInt_ofNat_of_lt (by omega)]

theorem toInt64?_narrow {v : Value} {n : Number} {p : Primitive}
    (hp : p ≠ .char ∧ isFloatingKind p = false) (hv : v.tag.isNumeric = true)
    (hb : Tag.below v.tag (.ofPrimitive p) = true) (h : integralNumber? v = some n) :
    v.toInt64? = (narrow n p).toInt64? := by
  obtain ⟨hchar, hfloating⟩ := hp
  cases v <;> cases p <;> try contradiction
  all_goals
    obtain rfl := Option.some.inj h
    simp [narrow, Value.toInt64?, toInt64_codePoint]

/-- What a string spells depends on the kind alone. -/
theorem toPrimitive_string {s : String} {p : Primitive} {target target' : Ty} {w : Value}
    (h : toPrimitive (.string s) p target = .ok w) : toPrimitive (.string s) p target' = .ok w := by
  cases p
  case boolean =>
    simp only [toPrimitive, toBoolean] at h ⊢
    split at h
    · rename_i ht
      rwa [if_pos ht]
    · rename_i ht
      rw [if_neg ht]
      split at h
      · rename_i hf
        rwa [if_pos hf]
      · contradiction
  case char =>
    simp only [toPrimitive, toChar] at h ⊢
    split at h
    · exact h
    · contradiction
  all_goals
    simp only [toPrimitive, toNumeric] at h ⊢
    split at h
    · exact h
    · contradiction

end Conversion

namespace ConversionRegistry

/-- A string is read in the same way for a type and for its tag, by any registry. -/
theorem convert_string {r : ConversionRegistry} {s : String} {w : Value} {target : Ty}
    (h : r.convert (.string s) target = .ok w)
    (ht : (Tag.ofTy target).isNumeric = true ∨ Tag.ofTy target = .boolean)
    (r' : ConversionRegistry) : r'.convert (.string s) (Tag.ofTy target).toTy = .ok w := by
  have primitive {p : Primitive} (h : Conversion.toPrimitive (.string s) p target = .ok w) :
      r'.convert (.string s) (Tag.ofPrimitive p).toTy = .ok w := by
    cases p <;> exact Conversion.toPrimitive_string h
  cases target with
  | primitive p => exact primitive h
  | boxed p => exact primitive h
  | bigInteger => exact h
  | bigDecimal => exact h
  | string | any | null | hostClass c => rcases ht with ht | ht <;> contradiction

/-- Conversion into a wider numeric type keeps the number, if need be as far as a `float` does. -/
theorem readsAs_convert {r : ConversionRegistry} {v w : Value} {target : Ty}
    (hv : v.tag.isNumeric = true) (hb : Tag.below v.tag (Tag.ofTy target) = true)
    (hchar : Tag.ofTy target ≠ .char) (h : r.convert v target = .ok w)
    (single : Tag.ofTy target = .float → v.toDouble? = w.toDouble?) :
    v.ReadsAs (Tag.ofTy target) w := by
  have htarget := Tag.numeric_of_below hv hb
  have hnull : v.isNull = false := by cases v <;> first | rfl | contradiction
  have primitive {p : Primitive} (hp : Tag.ofTy target = .ofPrimitive p)
      (h : Conversion.toPrimitive v p target = .ok w) : v.ReadsAs (.ofPrimitive p) w := by
    rw [hp] at hb hchar single htarget
    have hnum : Conversion.toNumeric v p target = .ok w := by
      cases p <;> first | contradiction | exact h
    obtain ⟨n, hn, rfl⟩ := Conversion.toNumeric_number hv hnum
    cases p
    case float => exact single rfl
    case double => exact Conversion.toDouble?_narrow_double hn
    case boolean | char => contradiction
    all_goals exact Conversion.toInt64?_narrow ⟨by decide, rfl⟩ hv hb hn
  unfold convert at h
  rw [hnull] at h
  cases target with
  | primitive p => exact primitive rfl h
  | boxed p => exact primitive rfl h
  | bigInteger =>
    simp only [Bool.false_eq_true, if_false] at h
    unfold Conversion.toBigInteger at h
    split at h
    · contradiction
    · contradiction
    · contradiction
    · split at h
      · rename_i n hn
        obtain rfl := Except.ok.inj h
        exact hn
      · contradiction
  | bigDecimal =>
    simp only [Bool.false_eq_true, if_false] at h
    unfold Conversion.toBigDecimal at h
    split at h
    · contradiction
    · contradiction
    · contradiction
    · split at h
      · rename_i d hd
        obtain rfl := Except.ok.inj h
        exact hd
      · contradiction
  | _ => contradiction

end ConversionRegistry

end Scriptlet
