import Scriptlet.Proofs.Kernel.Outcome

/-!
# Literals that may be converted

Under strong typing a literal on the right of an operation may become a value of the type of the
left operand, or of the result. These are the conversions that no such operation notices.
-/
namespace Scriptlet

namespace Ty

theorem ofTy_arithmeticResult {lty rty : Ty} {p : Tag}
    (h : Tag.widen (Tag.ofTy lty) (Tag.ofTy rty) = some p) :
    Tag.ofTy (arithmeticResult lty rty) = p := by
  obtain ⟨hl, hr, -⟩ := Tag.numeric_of_widen h
  have hany : ¬ (lty = .any ∨ rty = .any) := by
    rintro (rfl | rfl)
    · contradiction
    · contradiction
  simp only [arithmeticResult, if_neg hany, h]
  split
  · rename_i hp
    exact hp.symm
  · split
    · rename_i hp
      exact hp.symm
    · exact Tag.ofTy_toTy p

theorem arithmeticResult_string {lty : Ty} (h : lty ≠ .any) :
    arithmeticResult lty .string = lty := by
  have hw : Tag.widen (Tag.ofTy lty) (Tag.ofTy .string) = none := by
    simp [Tag.widen, Tag.ofTy, Tag.isNumeric]
  simp [arithmeticResult, h, hw, isNumber]

end Ty

namespace Kernel

/-- The conversion of a literal `v` into `w` is not noticed to the right of a value of the type. -/
inductive Lossless (op : Operator) (ty : Ty) (v w : Value) : Prop
  | same (same : w = v) : Lossless op ty v w
  /-- A string that spells a number; a sum would append it. -/
  | spelled (other : op ≠ .add) (number : (Tag.ofTy ty).isNumeric = true)
      (string : v.tag = .string) : Lossless op ty v w
  /-- A string that spells a truth value. -/
  | truth (equality : op.isEquality = true) (boolean : Tag.ofTy ty = .boolean)
      (string : v.tag = .string) : Lossless op ty v w
  /-- A number that becomes of the kind which arithmetic promotes it to. -/
  | arithmetic (arithmetic : op.isArithmetic = true) (left : (Tag.ofTy ty).isNumeric = true)
      (right : v.tag.isNumeric = true) (single : w.tag = .float → v.toDouble? = w.toDouble?) :
      Lossless op ty v w
  /-- A number that becomes of the kind which any other operation promotes it to. -/
  | widened (widened : Tag.widen (Tag.ofTy ty) v.tag = some w.tag)
      (single : w.tag = .float → v.toDouble? = w.toDouble?) : Lossless op ty v w
  /-- An integer that the kind on the left holds. -/
  | held (other : op.isArithmetic = false) (left : (Tag.ofTy ty).isIntegral = true)
      (right : v.tag.isIntegral = true) (number : v.toInt? = w.toInt?)
      (bits : op.isBitwise = true →
        Tag.bitwise? (Tag.ofTy ty) v.tag = Tag.bitwise? (Tag.ofTy ty) w.tag) :
      Lossless op ty v w

theorem operandTag_isSome {ty : Ty}
    (h : (Tag.ofTy ty).isNumeric = true ∨ Tag.ofTy ty = .boolean) :
    (OperandTag.ofTy ty).isSome = true := by
  cases ty with
  | primitive p => cases p <;> rfl
  | boxed p => cases p <;> rfl
  | bigInteger | bigDecimal | string => rfl
  | any | null | hostClass c => rcases h with h | h <;> contradiction

theorem literalTy_string {op : Operator} {ty : Ty} (hop : op ≠ .add)
    (h : (Tag.ofTy ty).isNumeric = true ∨ Tag.ofTy ty = .boolean) :
    op.literalTy ty .string = ty := by
  have hany : ty ≠ .any := by
    rintro rfl
    rcases h with h | h <;> contradiction
  by_cases ha : op.isArithmetic = true
  · rw [Operator.literalTy, if_pos ha, Operator.resultTy_arithmetic ha fun hs => hop hs.1]
    exact Ty.arithmeticResult_string hany
  · rw [Operator.literalTy, if_neg ha]

theorem ofTy_literalTy {op : Operator} {ty rty : Ty} {p : Tag} (ha : op.isArithmetic = true)
    (h : Tag.widen (Tag.ofTy ty) (Tag.ofTy rty) = some p) :
    Tag.ofTy (op.literalTy ty rty) = p := by
  obtain ⟨hl, hr, -⟩ := Tag.numeric_of_widen h
  have hs : ¬ (op = .add ∧ (ty = .string ∨ rty = .string)) := by
    rintro ⟨-, rfl | rfl⟩
    · contradiction
    · contradiction
  rw [Operator.literalTy, if_pos ha, Operator.resultTy_arithmetic ha hs]
  exact Ty.ofTy_arithmeticResult h

theorem widen_isSome {t u : Tag} (ht : t.isNumeric = true) (hu : u.isNumeric = true) :
    ∃ p, Tag.widen t u = some p :=
  ⟨_, by rw [Tag.widen, ht, hu, Bool.and_self, if_pos rfl]⟩

theorem not_null_of_numeric {v : Value} (h : v.tag.isNumeric = true) : v.isNull = false :=
  not_null_of_tag (ne_of_numeric h).1

variable {r : ConversionRegistry} {op : Operator} {ty : Ty} {l v w : Value}

/-- Such a literal is converted into a number or a truth value, or stays. -/
theorem Lossless.target (lossless : Lossless op ty v w) :
    w = v ∨ (v.isNull = false ∧ ((Tag.ofTy (op.literalTy ty v.ty)).isNumeric = true ∨
      Tag.ofTy (op.literalTy ty v.ty) = .boolean)) := by
  cases lossless with
  | same same => exact .inl same
  | spelled other number string =>
    obtain ⟨s, rfl⟩ : ∃ s, v = .string s := by cases v <;> first | contradiction | exact ⟨_, rfl⟩
    rw [Value.ty, literalTy_string other (.inl number)]
    exact .inr ⟨rfl, .inl number⟩
  | truth equality boolean string =>
    obtain ⟨s, rfl⟩ : ∃ s, v = .string s := by cases v <;> first | contradiction | exact ⟨_, rfl⟩
    have other : op ≠ .add := by
      rintro rfl
      contradiction
    rw [Value.ty, literalTy_string other (.inr boolean)]
    exact .inr ⟨rfl, .inr boolean⟩
  | arithmetic arithmetic left right single =>
    obtain ⟨p, widened⟩ := widen_isSome left right
    obtain ⟨-, -, hp⟩ := Tag.numeric_of_widen widened
    refine .inr ⟨not_null_of_numeric right, .inl ?_⟩
    rwa [ofTy_literalTy arithmetic (v.tag_eq_ofTy ▸ widened)]
  | widened widened single =>
    obtain ⟨hty, hv, hp⟩ := Tag.numeric_of_widen widened
    refine .inr ⟨not_null_of_numeric hv, .inl ?_⟩
    by_cases ha : op.isArithmetic = true
    · rwa [ofTy_literalTy ha (v.tag_eq_ofTy ▸ widened)]
    · rwa [Operator.literalTy, if_neg ha]
  | held other left right number bits =>
    refine .inr ⟨not_null_of_numeric (numeric_of_integral right), .inl ?_⟩
    rw [Operator.literalTy, if_neg (by simp [other])]
    exact numeric_of_integral left

theorem readsAs_of_widened {target : Ty} {t : Tag} (h : r.convert v target = .ok w)
    (into : w.tag = Tag.ofTy target) (widened : Tag.widen t v.tag = some w.tag)
    (single : w.tag = .float → v.toDouble? = w.toDouble?) : v.ReadsAs w.tag w := by
  obtain ⟨-, hv, -⟩ := Tag.numeric_of_widen widened
  have below : Tag.below v.tag w.tag = true := Tag.below_widen (Tag.widen_comm .. ▸ widened)
  have char : w.tag ≠ .char := fun hc => Tag.widen_ne_char _ _ (hc ▸ widened)
  rw [into] at below char single ⊢
  exact ConversionRegistry.readsAs_convert hv below char h single

/-- A conversion that loses nothing keeps the operation. -/
theorem Lossless.kept (lossless : Lossless op ty v w)
    (h : r.convert v (op.literalTy ty v.ty) = .ok w) (hl : l.tag = Tag.ofTy ty)
    (r' : ConversionRegistry) : Kept r' op l v w := by
  rcases lossless.target with rfl | ⟨hv, known⟩
  · exact .refl _
  have into := ConversionRegistry.tag_convert h hv (operandTag_isSome known)
  cases lossless with
  | same same =>
    rw [same]
    exact .refl _
  | spelled other number string =>
    obtain ⟨s, rfl⟩ : ∃ s, v = .string s := by cases v <;> first | contradiction | exact ⟨_, rfl⟩
    rw [Value.ty, literalTy_string other (.inl number)] at h into
    refine .of_spelled other (hl ▸ number) rfl (into.trans hl.symm) ?_
    rw [hl]
    exact ConversionRegistry.convert_string h (.inl number) r'
  | truth equality boolean string =>
    obtain ⟨s, rfl⟩ : ∃ s, v = .string s := by cases v <;> first | contradiction | exact ⟨_, rfl⟩
    have other : op ≠ .add := by
      rintro rfl
      contradiction
    rw [Value.ty, literalTy_string other (.inr boolean)] at h into
    have read := ConversionRegistry.convert_string h (.inr boolean) r'
    rw [boolean] at into hl read
    exact .of_truth equality hl rfl into read
  | arithmetic arithmetic left right single =>
    obtain ⟨p, widened⟩ := widen_isSome left right
    have target : Tag.ofTy (op.literalTy ty v.ty) = p :=
      ofTy_literalTy arithmetic (v.tag_eq_ofTy ▸ widened)
    rw [← target, ← into] at widened
    exact .of_widened (by rwa [hl]) (readsAs_of_widened h into widened single)
  | widened widened single =>
    exact .of_widened (by rwa [hl]) (readsAs_of_widened h into widened single)
  | held other left right number bits =>
    rw [Operator.literalTy, if_neg (by simp [other])] at into
    refine .of_integers other (hl ▸ left) right (into ▸ left) number fun hb => ?_
    rw [hl]
    exact bits hb

end Kernel

end Scriptlet
