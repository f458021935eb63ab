import Scriptlet.Kind.ResultTy

/-!
# Static types and the tags of their values

A static type does not tell the tag of its values exactly: it `admits` several. A numeric type
admits the tags that its own tag widens to, but never a narrower one. The tag of a result is a
function of the tags of the operands, and `resultTy` admits it.
-/
namespace Scriptlet

namespace Tag

/-- The second tag is the first one, or the first one widens to it. -/
def below (t v : Tag) : Bool := t == v || widen t v == some v

theorem below_refl (t : Tag) : below t t = true := by simp [below]

theorem below_trans {t u v : Tag} (h : below t u = true) (k : below u v = true) :
    below t v = true := by
  have table : ∀ t ∈ all, ∀ u ∈ all, ∀ v ∈ all, below t u = true → below u v = true →
      below t v = true := by
    decide +kernel
  exact table t (mem_all t) u (mem_all u) v (mem_all v) h k

theorem below_widen {t u w : Tag} (h : widen t u = some w) : below t w = true := by
  have table : ∀ t ∈ all, ∀ u ∈ all, (widen t u).all (below t) = true := by decide +kernel
  have := table t (mem_all t) u (mem_all u)
  rwa [h] at this

theorem widen_ne_char (t u : Tag) : widen t u ≠ some .char := by
  have table : ∀ t ∈ all, ∀ u ∈ all, widen t u ≠ some .char := by decide +kernel
  exact table t (mem_all t) u (mem_all u)

/-- The promoted tag is below every promoted tag above both operands. -/
theorem widen_below {t u p v x w : Tag} (h : widen t u = some p) (ht : below t w = true)
    (hu : below u w = true) (hw : widen v x = some w) : below p w = true := by
  have hchar : w ≠ .char := by
    rintro rfl
    exact widen_ne_char v x hw
  have table : ∀ t ∈ all, ∀ u ∈ all, ∀ w ∈ all, w ≠ .char → below t w = true →
      below u w = true → (widen t u).all (below · w) = true := by
    decide +kernel
  have := table t (mem_all t) u (mem_all u) w (mem_all w) hchar ht hu
  rwa [h] at this

theorem numeric_of_below {t v : Tag} (ht : t.isNumeric = true) (h : below t v = true) :
    v.isNumeric = true := by
  have table : ∀ t ∈ all, ∀ v ∈ all, t.isNumeric = true → below t v = true →
      v.isNumeric = true := by
    decide +kernel
  exact table t (mem_all t) v (mem_all v) ht h

theorem numeric_of_widen {t u w : Tag} (h : widen t u = some w) :
    t.isNumeric = true ∧ u.isNumeric = true ∧ w.isNumeric = true := by
  have hb := below_widen h
  simp only [widen] at h
  split at h
  · rename_i hn
    rw [Bool.and_eq_true] at hn
    exact ⟨hn.1, hn.2, numeric_of_below hn.1 hb⟩
  · contradiction

/-- The tag that an operand is read with: a string beside a number is read as such a number. -/
def readBeside (t other : Tag) : Tag := if t = .string ∧ other.isNumeric = true then other else t

/-- The tag of a bitwise result on operands with these tags. -/
def bitwise? (left right : Tag) : Option Tag :=
  if left = .boolean ∧ right = .boolean then some .boolean
  else if left.isIntegral && right.isIntegral then
    if left = .bigInteger ∨ right = .bigInteger then some .bigInteger
    else if left = .long ∨ right = .long then some .long
    else some .int
  else none

end Tag

/-- The tag of a result, if there is one, on operands with these tags. -/
def Operator.resultTag? (op : Operator) (left right : Tag) : Option Tag :=
  match op with
  | .eq | .neq | .lt | .gt | .le | .ge | .and | .or => some .boolean
  | .add =>
    if left = .string ∨ right = .string then some .string else Tag.widen left right
  | .sub | .mul | .div | .rem | .pow =>
    Tag.widen (left.readBeside right) (right.readBeside left)
  | .bitAnd | .bitOr | .bitXor | .shl | .shr | .ushr =>
    Tag.bitwise? (left.readBeside right) (right.readBeside left)

namespace Ty

/-- The tags that the values of a type can have. Null and truth values make every operation that
a numeric type matters for fail. -/
def admits : Ty → Tag → Bool
  | .any, _ => true
  | .null, v | .hostClass _, v => v != .string
  | .string, v => v == .string || v.isNumeric
  | t, v => v == .null || v == .boolean || Tag.below (Tag.ofTy t) v

theorem admits_of_below {ty : Ty} {v : Tag} (h : Tag.below (Tag.ofTy ty) v = true) :
    ty.admits v = true := by
  cases ty with
  | primitive k => simp [admits, h]
  | boxed k => simp [admits, h]
  | bigInteger => simp [admits, h]
  | bigDecimal => simp [admits, h]
  | any => rfl
  | string => revert h; cases v <;> decide
  | null | hostClass c =>
    have hs : v ≠ .string := by
      rintro rfl
      contradiction
    simp [admits, hs]

theorem admits_self (ty : Ty) : ty.admits (Tag.ofTy ty) = true :=
  admits_of_below (Tag.below_refl _)

theorem below_of_admits {ty : Ty} {v other : Tag} (hty : (Tag.ofTy ty).isNumeric = true)
    (h : ty.admits v = true) (hv : (v.readBeside other).isNumeric = true) :
    v.readBeside other = v ∧ Tag.below (Tag.ofTy ty) v = true := by
  have cases_of : v = .null ∨ v = .boolean ∨ Tag.below (Tag.ofTy ty) v = true := by
    cases ty with
    | primitive k => simpa [admits, or_assoc] using h
    | boxed k => simpa [admits, or_assoc] using h
    | bigInteger => simpa [admits, or_assoc] using h
    | bigDecimal => simpa [admits, or_assoc] using h
    | _ => contradiction
  rcases cases_of with rfl | rfl | hb
  · contradiction
  · contradiction
  · have hn := Tag.numeric_of_below hty hb
    have hs : v ≠ .string := by
      rintro rfl
      contradiction
    exact ⟨by simp [Tag.readBeside, hs], hb⟩

theorem null_or_boolean {ty : Ty} {v : Tag} (hty : Tag.ofTy ty = .boolean)
    (h : ty.admits v = true) : v = .null ∨ v = .boolean := by
  cases ty with
  | primitive k => cases k <;> revert hty h <;> cases v <;> decide
  | boxed k => cases k <;> revert hty h <;> cases v <;> decide
  | _ => contradiction

theorem not_numeric_of_boolean {ty : Ty} {v other : Tag} (hty : Tag.ofTy ty = .boolean)
    (h : ty.admits v = true) : (v.readBeside other).isNumeric = false := by
  rcases null_or_boolean hty h with rfl | rfl <;> rfl

/-- Numbers are admitted by every type that is not boolean, if they are not below it. -/
theorem admits_of_numeric {ty : Ty} {v : Tag} (hv : v.isNumeric = true)
    (hty : Tag.ofTy ty ≠ .boolean)
    (h : (Tag.ofTy ty).isNumeric = true → Tag.below (Tag.ofTy ty) v = true) :
    ty.admits v = true := by
  by_cases hn : (Tag.ofTy ty).isNumeric
  · exact admits_of_below (h hn)
  · cases ty with
    | primitive k => cases k <;> contradiction
    | boxed k => cases k <;> contradiction
    | bigInteger => exact absurd rfl hn
    | bigDecimal => exact absurd rfl hn
    | any => rfl
    | string => simp [admits, hv]
    | null | hostClass c =>
      have hs : v ≠ .string := by
        rintro rfl
        contradiction
      simp [admits, hs]

theorem admits_above {ty : Ty} {v w : Tag} (h : ty.admits v = true) (hv : v.isNumeric = true)
    (hb : Tag.below v w = true) : ty.admits w = true := by
  have hread : v.readBeside .null = v := by simp [Tag.readBeside, Tag.isNumeric]
  refine admits_of_numeric (Tag.numeric_of_below hv hb) ?_ fun hty => ?_
  · intro hbool
    have hn : (v.readBeside .null).isNumeric = false := not_numeric_of_boolean hbool h
    rw [hread, hv] at hn
    contradiction
  · obtain ⟨-, hbelow⟩ := below_of_admits hty h (hread.symm ▸ hv)
    exact Tag.below_trans hbelow hb

theorem right_admits {rty : Ty} {l r w : Tag} (hr : rty.admits r = true)
    (h : Tag.widen (l.readBeside r) (r.readBeside l) = some w) :
    (Tag.ofTy rty).isNumeric = true → Tag.below (Tag.ofTy rty) w = true := by
  obtain ⟨-, hrn, -⟩ := Tag.numeric_of_widen h
  intro hty
  obtain ⟨he, hb⟩ := below_of_admits hty hr hrn
  rw [he, Tag.widen_comm] at h
  exact Tag.below_trans hb (Tag.below_widen h)

theorem left_admits {lty : Ty} {l r w : Tag} (hl : lty.admits l = true)
    (h : Tag.widen (l.readBeside r) (r.readBeside l) = some w) :
    (Tag.ofTy lty).isNumeric = true → Tag.below (Tag.ofTy lty) w = true := by
  rw [Tag.widen_comm] at h
  exact right_admits hl h

theorem admits_of_widen_right {rty : Ty} {l r w : Tag} (hr : rty.admits r = true)
    (h : Tag.widen (l.readBeside r) (r.readBeside l) = some w) : rty.admits w = true := by
  obtain ⟨-, hrn, hwn⟩ := Tag.numeric_of_widen h
  refine admits_of_numeric hwn ?_ (right_admits hr h)
  intro hb
  rw [not_numeric_of_boolean hb hr] at hrn
  contradiction

theorem admits_of_widen_left {lty : Ty} {l r w : Tag} (hl : lty.admits l = true)
    (h : Tag.widen (l.readBeside r) (r.readBeside l) = some w) : lty.admits w = true := by
  rw [Tag.widen_comm] at h
  exact admits_of_widen_right hl h

theorem arithmeticResult_admits {lty rty : Ty} {l r w : Tag} (hl : lty.admits l = true)
    (hr : rty.admits r = true)
    (h : Tag.widen (l.readBeside r) (r.readBeside l) = some w) :
    (arithmeticResult lty rty).admits w = true := by
  unfold arithmeticResult
  split
  · rfl
  · split
    · rename_i p hp
      obtain ⟨hlty, hrty, -⟩ := Tag.numeric_of_widen hp
      have hb : Tag.below p w = true :=
        Tag.widen_below hp (left_admits hl h hlty) (right_admits hr h hrty) h
      split
      · exact admits_of_widen_left hl h
      · split
        · exact admits_of_widen_right hr h
        · exact admits_of_below (by rwa [Tag.ofTy_toTy])
    · split
      · exact admits_of_widen_right hr h
      · exact admits_of_widen_left hl h

theorem arithmeticResult_ne_string {lty rty : Ty} (hl : lty ≠ .string) (hr : rty ≠ .string) :
    arithmeticResult lty rty ≠ .string := by
  unfold arithmeticResult
  split
  · simp
  · split
    · rename_i p hp
      obtain ⟨-, -, hnum⟩ := Tag.numeric_of_widen hp
      split
      · exact hl
      · split
        · exact hr
        · rintro hs
          rw [← Tag.ofTy_toTy p, hs] at hnum
          contradiction
    · split
      · exact hr
      · exact hl

/-- The types whose bitwise results are `long` or a big integer. -/
def isWide (ty : Ty) : Bool := ty.kind? == some .long || ty == .bigInteger

theorem admits_of_isWide {ty : Ty} {v : Tag} (hty : ty.isWide = true) (h : ty.admits v = true) :
    v = .null ∨ v = .boolean ∨ Tag.below .long v = true ∨ Tag.below .bigInteger v = true := by
  cases ty with
  | primitive k => cases k <;> first | contradiction | (revert h; cases v <;> decide)
  | boxed k => cases k <;> first | contradiction | (revert h; cases v <;> decide)
  | bigInteger => revert h; cases v <;> decide
  | _ => contradiction

theorem int_admits_bitwise {l r w : Tag} (h : Tag.bitwise? l r = some w) :
    (primitive .int).admits w = true := by
  have table : ∀ l ∈ Tag.all, ∀ r ∈ Tag.all,
      (Tag.bitwise? l r).all ((primitive .int).admits ·) = true := by
    decide +kernel
  have := table l (Tag.mem_all l) r (Tag.mem_all r)
  rwa [h] at this

theorem long_admits_bitwise {lty rty : Ty} {l r w : Tag}
    (hty : lty.isWide = true ∨ rty.isWide = true) (hl : lty.admits l = true)
    (hr : rty.admits r = true)
    (h : Tag.bitwise? (l.readBeside r) (r.readBeside l) = some w) :
    (primitive .long).admits w = true := by
  have table : ∀ l ∈ Tag.all, ∀ r ∈ Tag.all,
      (l = .null ∨ l = .boolean ∨ Tag.below .long l = true ∨ Tag.below .bigInteger l = true) ∨
        (r = .null ∨ r = .boolean ∨ Tag.below .long r = true ∨ Tag.below .bigInteger r = true) →
      (Tag.bitwise? (l.readBeside r) (r.readBeside l)).all ((primitive .long).admits ·) = true := by
    decide +kernel
  have := table l (Tag.mem_all l) r (Tag.mem_all r)
    (hty.imp (admits_of_isWide · hl) (admits_of_isWide · hr))
  rwa [h] at this

theorem boolean_admits_bitwise {lty rty : Ty} {l r w : Tag} (hlty : lty.isBoolean = true)
    (hrty : rty.isBoolean = true) (hl : lty.admits l = true) (hr : rty.admits r = true)
    (h : Tag.bitwise? (l.readBeside r) (r.readBeside l) = some w) :
    (primitive .boolean).admits w = true := by
  have tag {ty : Ty} (hty : ty.isBoolean = true) : Tag.ofTy ty = .boolean := by
    cases ty with
    | primitive k => cases k <;> first | contradiction | rfl
    | boxed k => cases k <;> first | contradiction | rfl
    | _ => contradiction
  rcases null_or_boolean (tag hlty) hl with rfl | rfl <;>
    rcases null_or_boolean (tag hrty) hr with rfl | rfl <;>
      first | contradiction | (obtain rfl := Option.some.inj h; rfl)

theorem bitwiseResult_admits {lty rty : Ty} {l r w : Tag} (hl : lty.admits l = true)
    (hr : rty.admits r = true)
    (h : Tag.bitwise? (l.readBeside r) (r.readBeside l) = some w) :
    (bitwiseResult lty rty).admits w = true := by
  unfold bitwiseResult
  split
  · rename_i hb
    rw [Bool.and_eq_true] at hb
    exact boolean_admits_bitwise hb.1 hb.2 hl hr h
  · split
    · rename_i hk
      refine long_admits_bitwise (hk.imp ?_ ?_) hl hr h <;>
        · intro hk
          simp [isWide, hk]
    · exact int_admits_bitwise h

theorem string_of_admits {ty : Ty} (h : ty.admits .string = true) : ty = .any ∨ ty = .string := by
  cases ty with
  | primitive k => cases k <;> contradiction
  | boxed k => cases k <;> contradiction
  | any => exact .inl rfl
  | string => exact .inr rfl
  | _ => contradiction

end Ty

namespace Operator

/-- An operation on values of the first two types gives values of the third one. -/
def Yields (op : Operator) (lty rty ty : Ty) : Prop :=
  ∀ l r w, lty.admits l = true → rty.admits r = true → op.resultTag? l r = some w →
    ty.admits w = true

def isBitwise : Operator → Bool
  | .bitAnd | .bitOr | .bitXor | .shl | .shr | .ushr => true
  | _ => false

theorem not_arithmetic_of_bitwise {op : Operator} (hb : op.isBitwise = true) :
    op.isArithmetic = false := by
  cases op <;> first | contradiction | rfl

theorem resultTag?_arithmetic {op : Operator} (ha : op.isArithmetic = true) {l r w : Tag}
    (h : op.resultTag? l r = some w) :
    (op = .add ∧ (l = .string ∨ r = .string) ∧ w = .string) ∨
      Tag.widen (l.readBeside r) (r.readBeside l) = some w := by
  cases op <;> try contradiction
  case add =>
    simp only [resultTag?] at h
    split at h
    · rename_i hs
      exact .inl ⟨rfl, hs, (Option.some.inj h).symm⟩
    · rename_i hs
      rw [not_or] at hs
      right
      simpa [Tag.readBeside, hs] using h
  all_goals exact .inr h

theorem resultTag?_bitwise {op : Operator} (hb : op.isBitwise = true) (l r : Tag) :
    op.resultTag? l r = Tag.bitwise? (l.readBeside r) (r.readBeside l) := by
  cases op <;> first | contradiction | rfl

theorem resultTy_arithmetic {op : Operator} (ha : op.isArithmetic = true) {lty rty : Ty}
    (hs : ¬ (op = .add ∧ (lty = .string ∨ rty = .string))) :
    op.resultTy lty rty = Ty.arithmeticResult lty rty := by
  cases op <;> try contradiction
  case add =>
    rw [resultTy, if_neg fun h => hs ⟨rfl, h⟩]
  all_goals rfl

theorem resultTy_bitwise {op : Operator} (hb : op.isBitwise = true) (lty rty : Ty) :
    op.resultTy lty rty = Ty.bitwiseResult lty rty := by
  cases op <;> first | contradiction | rfl

theorem resultTy_boolean {op : Operator} (ha : op.isArithmetic = false)
    (hb : op.isBitwise = false) (lty rty : Ty) : op.resultTy lty rty = .primitive .boolean := by
  cases op <;> first | contradiction | rfl

theorem yields_boolean {op : Operator} (ha : op.isArithmetic = false) (hb : op.isBitwise = false)
    (lty rty : Ty) : op.Yields lty rty (.primitive .boolean) := by
  intro l r w _ _ h
  cases op <;> first | contradiction | (obtain rfl := Option.some.inj h; rfl)

theorem yields_concat (lty rty : Ty) : Operator.add.Yields lty rty .string := by
  intro l r w _ _ h
  rcases resultTag?_arithmetic rfl h with ⟨-, -, rfl⟩ | h
  · rfl
  · obtain ⟨-, -, hw⟩ := Tag.numeric_of_widen h
    simp [Ty.admits, hw]

/-- The type of an operation admits the tags of its results. -/
theorem yields_resultTy {op : Operator} {lty rty : Ty}
    (hs : ¬ (op = .add ∧ (lty = .string ∨ rty = .string))) :
    op.Yields lty rty (op.resultTy lty rty) := by
  intro l r w hl hr h
  by_cases ha : op.isArithmetic = true
  · rw [resultTy_arithmetic ha hs]
    rcases resultTag?_arithmetic ha h with ⟨hadd, hlr, rfl⟩ | h
    · have hany : lty = .any ∨ rty = .any := by
        rcases hlr with rfl | rfl
        · rcases Ty.string_of_admits hl with hty | hty
          · exact .inl hty
          · exact absurd ⟨hadd, .inl hty⟩ hs
        · rcases Ty.string_of_admits hr with hty | hty
          · exact .inr hty
          · exact absurd ⟨hadd, .inr hty⟩ hs
      rw [Ty.arithmeticResult, if_pos hany]
      rfl
    · exact Ty.arithmeticResult_admits hl hr h
  · by_cases hb : op.isBitwise = true
    · rw [resultTy_bitwise hb]
      rw [resultTag?_bitwise hb] at h
      exact Ty.bitwiseResult_admits hl hr h
    · simp only [Bool.not_eq_true] at ha hb
      rw [resultTy_boolean ha hb]
      exact yields_boolean ha hb lty rty l r w hl hr h

/-- What the literal on the right of an operation is converted into, if it is. -/
def literalTy (op : Operator) (lty rty : Ty) : Ty :=
  if op.isArithmetic then op.resultTy lty rty else lty

/-- The type of an operation whose right operand is converted comes from the operand before the
conversion. It still admits the results, if a `long` of a bitwise operation does not come from
that operand alone. -/
theorem yields_converted {op : Operator} {lty rty : Ty}
    (hs : ¬ (op = .add ∧ (lty = .string ∨ rty = .string)))
    (wide : op.isBitwise = true → op.resultTy lty rty = .primitive .long → lty.isWide = true) :
    op.Yields lty (op.literalTy lty rty) (op.resultTy lty rty) := by
  intro l r w hl hr h
  by_cases ha : op.isArithmetic = true
  · rw [literalTy, if_pos ha] at hr
    rcases resultTag?_arithmetic ha h with ⟨hadd, hlr, rfl⟩ | h
    · rcases hlr with rfl | rfl
      · rcases Ty.string_of_admits hl with rfl | hty
        · rw [resultTy_arithmetic ha hs, Ty.arithmeticResult, if_pos (.inl rfl)]
          rfl
        · exact absurd ⟨hadd, .inl hty⟩ hs
      · exact hr
    · exact Ty.admits_of_widen_right hr h
  · rw [literalTy, if_neg ha] at hr
    by_cases hb : op.isBitwise = true
    · rw [resultTag?_bitwise hb] at h
      have hw := wide hb
      rw [resultTy_bitwise hb, Ty.bitwiseResult] at hw ⊢
      split
      · rename_i hbool
        rw [Bool.and_eq_true] at hbool
        exact Ty.boolean_admits_bitwise hbool.1 hbool.1 hl hr h
      · rename_i hbool
        split
        · rename_i hk
          rw [if_neg hbool, if_pos hk] at hw
          exact Ty.long_admits_bitwise (.inl (hw rfl)) hl hr h
        · exact Ty.int_admits_bitwise h
    · simp only [Bool.not_eq_true] at ha hb
      rw [resultTy_boolean ha hb]
      exact yields_boolean ha hb lty lty l r w hl hr h

end Operator

end Scriptlet
