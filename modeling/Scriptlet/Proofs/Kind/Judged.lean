import Scriptlet.Proofs.Kernel.Lossless

/-!
# What the types of operations tell

The type of an operation is computed from the types of its operands before a literal on its right
is converted. It tells the tag of every result, except where the operation `misjudges` its
operands: big integers in bitwise operations, characters beside strings, and literals that were
wider than what they are converted into.
-/
namespace Scriptlet

namespace Tag

/-- The tag of a bitwise type from those of its operands. -/
def bitwiseResult (left right : Tag) : Tag :=
  if left = .boolean ∧ right = .boolean then .boolean
  else if left = .long ∨ right = .long then .long
  else .int

/-- A number, which a character is not. -/
def isNumber (t : Tag) : Bool := t.isNumeric && t != .char

/-- The tag of an arithmetic type from those of its operands. -/
def arithmeticResult (left right : Tag) : Tag :=
  (widen left right).getD (if right.isNumber && !left.isNumber then right else left)

/-- Takes part in bitwise operations on numbers; a string is read as the number beside it. -/
def isBits (t : Tag) : Bool := t.isIntegral || t == .string

/-- The integral tags whose bitwise results are `int`. -/
def isNarrow (t : Tag) : Bool := t.isIntegral && t != .long && t != .bigInteger

theorem isBoolean_eq (ty : Ty) : ty.isBoolean = (ofTy ty == .boolean) := by
  cases ty with
  | primitive k => cases k <;> rfl
  | boxed k => cases k <;> rfl
  | _ => rfl

theorem isNumber_eq (ty : Ty) : ty.isNumber = (ofTy ty).isNumber := by
  cases ty with
  | primitive k => cases k <;> rfl
  | boxed k => cases k <;> rfl
  | _ => rfl

theorem kind?_eq_long (ty : Ty) : ty.kind? = some .long ↔ ofTy ty = .long := by
  cases ty with
  | primitive k => cases k <;> decide
  | boxed k => cases k <;> decide
  | bigInteger | bigDecimal | string | null | any | hostClass c => simp [Ty.kind?, ofTy]

theorem ofTy_eq_string {ty : Ty} : ofTy ty = .string ↔ ty = .string := by
  cases ty with
  | primitive k => cases k <;> simp [ofTy, ofPrimitive]
  | boxed k => cases k <;> simp [ofTy, ofPrimitive]
  | _ => simp [ofTy]

theorem bitwiseResult_ofTy (lty rty : Ty) :
    bitwiseResult (ofTy lty) (ofTy rty) = ofTy (Ty.bitwiseResult lty rty) := by
  simp only [Ty.bitwiseResult, bitwiseResult, isBoolean_eq, kind?_eq_long, Bool.and_eq_true,
    beq_iff_eq]
  split
  · rfl
  · split <;> rfl

theorem arithmeticResult_ofTy {lty rty : Ty} (hl : lty ≠ .any) (hr : rty ≠ .any) :
    arithmeticResult (ofTy lty) (ofTy rty) = ofTy (Ty.arithmeticResult lty rty) := by
  have known : ¬ (lty = .any ∨ rty = .any) := by simp [hl, hr]
  cases hw : widen (ofTy lty) (ofTy rty) with
  | some t => rw [arithmeticResult, hw, Option.getD_some, Ty.ofTy_arithmeticResult hw]
  | none =>
    simp only [arithmeticResult, Ty.arithmeticResult, if_neg known, hw, Option.getD_none,
      isNumber_eq]
    split <;> rfl

end Tag

namespace Operator

def isShift : Operator → Bool
  | .shl | .shr | .ushr => true
  | _ => false

/-- The tag of a result on operands with these tags. Truth values cannot be shifted, nor big
integers without their sign. -/
def yieldedTag? (op : Operator) (left right : Tag) : Option Tag :=
  (op.resultTag? left right).filter fun w =>
    !(op.isShift && w == .boolean) && !(op == .ushr && w == .bigInteger)

/-- The tag of the type of an operation from those of its operands. -/
def egressTag (op : Operator) (left right : Tag) : Tag :=
  if op.isArithmetic then Tag.arithmeticResult left right
  else if op.isBitwise then Tag.bitwiseResult left right
  else .boolean

/-- The operation of this type on operands of these tags can have a result of another tag. -/
def misjudges (op : Operator) (egress left right : Tag) : Bool :=
  if op.isBitwise then
    (op != .ushr && (left == .bigInteger || right == .bigInteger) && left.isBits &&
        right.isBits) ||
      (!op.isShift && left == .boolean && right == .boolean && egress != .boolean) ||
      (egress == .long && left.isNarrow && right.isNarrow)
  else
    op.isArithmetic &&
      ((op != .add && ((left == .char && right == .string) || (left == .string && right == .char)))
        || (left == .char && right == .char && egress == .char))

theorem ofTy_resultTy {op : Operator} {lty rty : Ty}
    (other : ¬ (op = .add ∧ (lty = .string ∨ rty = .string)))
    (known : op.isArithmetic = true → lty ≠ .any ∧ rty ≠ .any) :
    Tag.ofTy (op.resultTy lty rty) = op.egressTag (Tag.ofTy lty) (Tag.ofTy rty) := by
  by_cases ha : op.isArithmetic = true
  · rw [resultTy_arithmetic ha other, egressTag, if_pos ha,
      Tag.arithmeticResult_ofTy (known ha).1 (known ha).2]
  · rw [egressTag, if_neg ha]
    by_cases hb : op.isBitwise = true
    · rw [resultTy_bitwise hb, if_pos hb, Tag.bitwiseResult_ofTy]
    · rw [if_neg hb, resultTy_boolean (by simpa using ha) (by simpa using hb)]
      rfl

variable {op : Operator} {l r w : Tag} {lty rty : Ty}

theorem resultTag?_of_yieldedTag? (h : op.yieldedTag? l r = some w) :
    op.resultTag? l r = some w := by
  simp only [yieldedTag?, Option.filter_eq_some_iff] at h
  exact h.1

/-- Only comparisons and sums that are strings have results on nulls. -/
theorem not_null_of_yieldedTag? (other : ¬ (op = .add ∧ (l = .string ∨ r = .string)))
    (h : op.yieldedTag? l r = some w) (hop : op.isArithmetic = true ∨ op.isBitwise = true) :
    l ≠ .null ∧ r ≠ .null := by
  have table : ∀ op ∈ all, ∀ l ∈ Tag.all, ∀ r ∈ Tag.all,
      ¬ (op = .add ∧ (l = .string ∨ r = .string)) → (op.yieldedTag? l r).isSome = true →
        op.isArithmetic = true ∨ op.isBitwise = true → l ≠ .null ∧ r ≠ .null := by
    decide +kernel
  exact table op op.mem_all l l.mem_all r r.mem_all other (by simp [h]) hop

theorem not_any_of_yieldedTag? (other : ¬ (op = .add ∧ (lty = .string ∨ rty = .string)))
    (h : op.yieldedTag? (Tag.ofTy lty) (Tag.ofTy rty) = some w) (ha : op.isArithmetic = true) :
    lty ≠ .any ∧ rty ≠ .any := by
  rcases resultTag?_arithmetic ha (resultTag?_of_yieldedTag? h) with ⟨hadd, hs, -⟩ | h
  · rw [Tag.ofTy_eq_string, Tag.ofTy_eq_string] at hs
    exact absurd ⟨hadd, hs⟩ other
  · obtain ⟨hl, hr, -⟩ := Tag.numeric_of_widen h
    constructor <;> rintro rfl <;> contradiction

theorem boolean_of_yieldedTag? (ha : op.isArithmetic = false) (hb : op.isBitwise = false)
    (h : op.yieldedTag? l r = some w) : w = .boolean := by
  have h := resultTag?_of_yieldedTag? h
  cases op <;> first | contradiction | exact (Option.some.inj h).symm

/-- On values of the types of the operands an operation has results of its type. -/
theorem tag_eq_ofTy (other : ¬ (op = .add ∧ (lty = .string ∨ rty = .string)))
    (h : op.yieldedTag? (Tag.ofTy lty) (Tag.ofTy rty) = some w)
    (judged : op.misjudges (Tag.ofTy (op.resultTy lty rty)) (Tag.ofTy lty) (Tag.ofTy rty) = false) :
    w = Tag.ofTy (op.resultTy lty rty) := by
  have table : ∀ op ∈ all, ∀ l ∈ Tag.all, ∀ r ∈ Tag.all,
      ¬ (op = .add ∧ (l = .string ∨ r = .string)) → ∀ w ∈ op.yieldedTag? l r,
        op.misjudges (op.egressTag l r) l r = false → w = op.egressTag l r := by
    decide +kernel
  rw [ofTy_resultTy other (not_any_of_yieldedTag? other h)] at judged ⊢
  rw [← Tag.ofTy_eq_string, ← Tag.ofTy_eq_string] at other
  exact table op op.mem_all _ (Tag.mem_all _) _ (Tag.mem_all _) other w h judged

/-- The same where a literal on the right has been converted after the type was computed. -/
theorem tag_eq_ofTy_of_converted (other : ¬ (op = .add ∧ (lty = .string ∨ rty = .string)))
    (hl : lty ≠ .any) (hr : rty ≠ .any)
    (h : op.yieldedTag? (Tag.ofTy lty) (Tag.ofTy (op.literalTy lty rty)) = some w)
    (judged : op.misjudges (Tag.ofTy (op.resultTy lty rty)) (Tag.ofTy lty)
      (Tag.ofTy (op.literalTy lty rty)) = false) :
    w = Tag.ofTy (op.resultTy lty rty) := by
  have table : ∀ op ∈ all, ∀ l ∈ Tag.all, ∀ r ∈ Tag.all,
      ¬ (op = .add ∧ (l = .string ∨ r = .string)) →
        ∀ w ∈ op.yieldedTag? l (if op.isArithmetic then op.egressTag l r else l),
          op.misjudges (op.egressTag l r) l
              (if op.isArithmetic then op.egressTag l r else l) = false →
            w = op.egressTag l r := by
    decide +kernel
  have result : Tag.ofTy (op.resultTy lty rty) = op.egressTag (Tag.ofTy lty) (Tag.ofTy rty) :=
    ofTy_resultTy other fun _ => ⟨hl, hr⟩
  have literal : Tag.ofTy (op.literalTy lty rty) =
      if op.isArithmetic then op.egressTag (Tag.ofTy lty) (Tag.ofTy rty) else Tag.ofTy lty := by
    rw [literalTy, apply_ite Tag.ofTy, result]
  rw [literal] at h judged
  rw [result] at judged ⊢
  rw [← Tag.ofTy_eq_string, ← Tag.ofTy_eq_string] at other
  exact table op op.mem_all _ (Tag.mem_all _) _ (Tag.mem_all _) other w h judged

end Operator

namespace Kernel

variable {op : Operator}

theorem result_of_bitwise {left right : Operand} {w : Value} (h : bitwise op left right = .ok w) :
    (w.tag = .boolean → op.isShift = false) ∧ (w.tag = .bigInteger → op ≠ .ushr) := by
  have h := ok_of_getD h
  split at h
  · obtain ⟨⟨l, r⟩, -, h⟩ := Option.bind_eq_some_iff.mp h
    obtain ⟨b, hb, h⟩ := Option.map_eq_some_iff.mp h
    obtain rfl := Except.ok.inj h
    refine ⟨fun _ => ?_, fun htag => by contradiction⟩
    cases op <;> first | rfl | contradiction
  · split at h
    · unfold integralBitwise? at h
      split at h
      · obtain ⟨⟨l, r⟩, -, h⟩ := Option.bind_eq_some_iff.mp h
        obtain ⟨x, hx, -⟩ := Option.map_eq_some_iff.mp h
        obtain ⟨n, rfl⟩ := ok_of_map h
        refine ⟨fun htag => by contradiction, fun _ => ?_⟩
        rintro rfl
        contradiction
      · obtain ⟨⟨l, r⟩, -, h⟩ := Option.bind_eq_some_iff.mp h
        simp only at h
        split at h <;>
          · obtain ⟨n, -, h⟩ := Option.map_eq_some_iff.mp h
            obtain rfl := Except.ok.inj h
            exact ⟨fun htag => by contradiction, fun htag => by contradiction⟩
    · contradiction

theorem bitwise_of_applyOwn {r : ConversionRegistry} {left right w : Value}
    (hb : op.isBitwise = true) (h : applyOwn r op left right = .ok w) :
    ∃ l v, bitwise op l v = .ok w := by
  have hadd : op ≠ .add := by
    rintro rfl
    contradiction
  simp only [applyOwn, apply, Operand.live, liveTag_own, applyLive, hadd, false_and, if_false] at h
  split at h
  · cases op <;> contradiction
  · cases op <;> try contradiction
    all_goals
      simp only [applyPresent] at h
      split at h
      · exact ⟨_, _, h⟩
      · contradiction

theorem yieldedTag?_applyOwn {r : ConversionRegistry} {left right w : Value}
    (h : applyOwn r op left right = .ok w) :
    op.yieldedTag? left.tag right.tag = some w.tag := by
  rw [Operator.yieldedTag?, tag_applyOwn h, Option.filter_eq_some_iff]
  refine ⟨rfl, ?_⟩
  by_cases hb : op.isBitwise = true
  · obtain ⟨l, v, h⟩ := bitwise_of_applyOwn hb h
    obtain ⟨truth, big⟩ := result_of_bitwise h
    simp only [Bool.and_eq_true, Bool.not_eq_true', Bool.and_eq_false_imp, beq_iff_eq,
      beq_eq_false_iff_ne]
    refine ⟨fun hs htag => ?_, fun hu htag => big htag hu⟩
    rw [truth htag] at hs
    contradiction
  · cases op <;> first | rfl | contradiction

end Kernel

end Scriptlet
