import Scriptlet.Proofs.Decimal.Rational
import Scriptlet.Proofs.Kernel.Coherence

/-!
# Exact numbers compare as rational numbers

Characters, integers of any size and decimals denote rational numbers. Equality across these kinds
is equality of the numbers, and the comparisons follow their order. Only the order of a decimal
and a big integer past the range of decimals has no answer.
-/
namespace Scriptlet

/-- The relation that an ordering operator stands for. -/
def Operator.Relates {α : Type} [LT α] [LE α] (op : Operator) (a b : α) : Prop :=
  match op with
  | .lt => a < b
  | .gt => b < a
  | .le => a ≤ b
  | .ge => b ≤ a
  | _ => False

namespace Value

/-- The rational number that an exact value denotes; a character denotes its code point. -/
def toRat? : Value → Option ℚ
  | .char c => some c.toNat
  | .byte n => some n.toInt
  | .short n => some n.toInt
  | .int n => some n.toInt
  | .long n => some n.toInt
  | .bigInteger n => some n
  | .bigDecimal d => some d.toRat
  | _ => none

/-- A big integer that no decimal can hold. -/
def PastDecimals : Value → Prop
  | .bigInteger n => 2 ^ 96 ≤ n.natAbs
  | _ => False

variable {v : Value} {p : ℚ}

theorem integral_or_decimal (h : v.toRat? = some p) :
    v.tag.isIntegral = true ∨ v.tag = .bigDecimal := by
  cases v <;> first | exact .inl rfl | exact .inr rfl | contradiction

theorem numeric_of_toRat? (h : v.toRat? = some p) : v.tag.isNumeric = true := by
  cases v <;> first | rfl | contradiction

theorem toInt_codePoint (c : Char) : (Int64.ofNat c.toNat).toInt = c.toNat := by
  have small : c.toNat < 2 ^ 63 := by
    have := c.val.toNat_lt
    have : c.toNat = c.val.toNat := rfl
    omega
  exact Int64.toInt_ofNat_of_lt small

theorem toInt?_of_toRat? (h : v.toRat? = some p) (hv : v.tag.isIntegral = true) :
    ∃ n : ℤ, v.toInt? = some n ∧ p = n := by
  cases v with
  | char c => exact ⟨c.toNat, congrArg some (toInt_codePoint c), (Option.some.inj h).symm⟩
  | byte n => exact ⟨n.toInt, congrArg some n.toInt_toInt64, (Option.some.inj h).symm⟩
  | short n => exact ⟨n.toInt, congrArg some n.toInt_toInt64, (Option.some.inj h).symm⟩
  | int n => exact ⟨n.toInt, congrArg some n.toInt_toInt64, (Option.some.inj h).symm⟩
  | long n => exact ⟨n.toInt, rfl, (Option.some.inj h).symm⟩
  | bigInteger n => exact ⟨n, rfl, (Option.some.inj h).symm⟩
  | _ => contradiction

/-- A machine integer is read as the decimal of its 64 bits. -/
theorem toDecimal?_of_machine {w : Int64} (hv : v.tag.isIntegral = true)
    (hbig : v.tag ≠ .bigInteger) (hw : v.toInt64? = some w) :
    v.toDecimal? = some (.ofInt64 w) := by
  cases v <;> first | contradiction | exact congrArg (Option.map Decimal.ofInt64) hw

/-- An exact value is read as the decimal of its number, unless it is past all decimals. -/
theorem toDecimal?_of_toRat? (h : v.toRat? = some p) :
    (v.PastDecimals ∧ v.toDecimal? = none) ∨
      (¬ v.PastDecimals ∧ ∃ d, v.toDecimal? = some d ∧ d.toRat = p) := by
  rcases integral_or_decimal h with hv | hv
  · obtain ⟨n, hn, rfl⟩ := toInt?_of_toRat? h hv
    by_cases hbig : v.tag = .bigInteger
    · cases v with
      | bigInteger m =>
        obtain rfl : m = n := Option.some.inj hn
        rcases Decimal.ofInt?_eq m with ⟨past, none⟩ | ⟨fits, d, some, value⟩
        · exact .inl ⟨past, none⟩
        · exact .inr ⟨Nat.not_le.mpr fits, d, some, value⟩
      | _ => contradiction
    · obtain ⟨hw, hw'⟩ := Kernel.toInt64?_of_machine hv hbig hn
      refine .inr ⟨?_, _, toDecimal?_of_machine hv hbig hw, ?_⟩
      · cases v <;> first | contradiction | exact id
      · rw [Decimal.toRat_ofInt64, hw']
  · cases v with
    | bigDecimal d => exact .inr ⟨id, d, rfl, Option.some.inj h⟩
    | _ => contradiction

theorem magnitude_of_past (h : v.toRat? = some p) (past : v.PastDecimals) :
    v.tag = .bigInteger ∧ 2 ^ 96 ≤ |p| := by
  cases v with
  | bigInteger n =>
    obtain rfl := Option.some.inj h
    refine ⟨rfl, ?_⟩
    rw [← Int.cast_abs, Int.abs_eq_natAbs]
    exact_mod_cast past
  | _ => contradiction

theorem magnitude_of_decimal (h : v.toRat? = some p) (hv : v.tag = .bigDecimal) :
    |p| < 2 ^ 96 := by
  cases v with
  | bigDecimal d =>
    obtain rfl := Option.some.inj h
    exact d.abs_toRat_lt
  | _ => contradiction

end Value

namespace Kernel

/-- The result is the truth value of the proposition. -/
def Answers (result : Result) (p : Prop) : Prop :=
  ∃ b, result = .ok (.boolean b) ∧ (b = true ↔ p)

theorem Answers.true_iff {result : Result} {p : Prop} (h : Answers result p) :
    result = .ok (.boolean true) ↔ p := by
  obtain ⟨b, rfl, hb⟩ := h
  rw [← hb]
  simp

/-- A decimal and a big integer that no decimal can hold. -/
def Unfit (l v : Value) : Prop :=
  (l.tag = .bigDecimal ∧ v.PastDecimals) ∨ (l.PastDecimals ∧ v.tag = .bigDecimal)

theorem holds_iff {α : Type} [LinearOrder α] {op : Operator} {o : Ordering} {a b : α}
    (hop : op.isOrdering = true) (h : o.Compares a b) : holds op o = true ↔ op.Relates a b := by
  cases op with
  | lt => exact Ordering.isLT_iff_eq_lt.trans h.eq_lt
  | gt => exact Ordering.isGT_iff_eq_gt.trans h.eq_gt
  | le => exact Ordering.isLE_iff_ne_gt.trans h.ne_gt
  | ge => exact Ordering.isGE_iff_ne_lt.trans h.ne_lt
  | _ => contradiction

variable {l v : Value} {p q : ℚ}

theorem answers_ordering {α : Type} [LinearOrder α] {r : ConversionRegistry} {op : Operator}
    {left right : Operand} {o : Ordering} {a b : α} (hop : op.isOrdering = true)
    (hl : l.tag ≠ .null) (hv : v.tag ≠ .null)
    (hread : spellOut r (.own l) (.own v) = .ok (left, right))
    (horder : order? left right = some (some o)) (h : o.Compares a b) :
    Answers (applyOwn r op l v) (op.Relates a b) := by
  refine ⟨holds op o, ?_, holds_iff hop h⟩
  rw [applyOwn_ordering r hop hl hv, hread]
  change comparison op left right = _
  rw [comparison, horder]
  rfl

theorem widen_decimal {t u : Tag} (ht : t.isNumeric = true) (hu : u.isNumeric = true)
    (h : t = .bigDecimal ∨ u = .bigDecimal) : Tag.widen t u = some .bigDecimal := by
  rcases h with rfl | rfl
  · cases u <;> first | rfl | contradiction
  · cases t <;> first | rfl | contradiction

/-- Two exact values in the order of their numbers. -/
structure InOrder (l v : Value) (p q : ℚ) : Prop where
  equal : equalsDirect (.own l) (.own v) = true ↔ p = q
  order : ¬ Unfit l v → order? (.own l) (.own v) = some (some (cmp p q))
  unfit : Unfit l v → order? (.own l) (.own v) = none

theorem inOrder_integral (hl : l.toRat? = some p) (hv : v.toRat? = some q)
    (hli : l.tag.isIntegral = true) (hvi : v.tag.isIntegral = true) : InOrder l v p q := by
  obtain ⟨m, hm, rfl⟩ := Value.toInt?_of_toRat? hl hli
  obtain ⟨n, hn, rfl⟩ := Value.toInt?_of_toRat? hv hvi
  have fit : ¬ Unfit l v := by
    rintro (⟨h, -⟩ | ⟨-, h⟩)
    · rw [h] at hli
      contradiction
    · rw [h] at hvi
      contradiction
  refine ⟨?_, fun _ => ?_, fun h => absurd h fit⟩
  · rw [equalsDirect_integral hli hvi hm hn, beq_iff_eq, Int.cast_inj]
  · rw [order?_integral hli hvi hm hn, Int.cast_strictMono.cmp_map_eq, cmp_eq_compare]

theorem ne_of_unfit (hl : l.toRat? = some p) (hv : v.toRat? = some q) (h : Unfit l v) :
    p ≠ q := by
  rintro rfl
  rcases h with ⟨hd, past⟩ | ⟨past, hd⟩
  · exact (Value.magnitude_of_decimal hl hd).not_ge (Value.magnitude_of_past hv past).2
  · exact (Value.magnitude_of_decimal hv hd).not_ge (Value.magnitude_of_past hl past).2

theorem both_of_unfit (hl : l.toRat? = some p) (hv : v.toRat? = some q) (h : Unfit l v) :
    both Value.toDecimal? l v = none := by
  rw [both]
  rcases h with ⟨-, past⟩ | ⟨past, -⟩
  · rcases Value.toDecimal?_of_toRat? hv with ⟨-, none⟩ | ⟨fits, -⟩
    · rw [none]
      cases l.toDecimal? <;> rfl
    · exact absurd past fits
  · rcases Value.toDecimal?_of_toRat? hl with ⟨-, none⟩ | ⟨fits, -⟩
    · rw [none]
      rfl
    · exact absurd past fits

theorem both_of_fit (hl : l.toRat? = some p) (hv : v.toRat? = some q)
    (hd : l.tag = .bigDecimal ∨ v.tag = .bigDecimal) (h : ¬ Unfit l v) :
    ∃ d e, both Value.toDecimal? l v = some (d, e) ∧ d.toRat = p ∧ e.toRat = q := by
  rcases Value.toDecimal?_of_toRat? hl with ⟨past, -⟩ | ⟨-, d, hld, rfl⟩
  · rcases hd with hd | hd
    · rw [(Value.magnitude_of_past hl past).1] at hd
      contradiction
    · exact absurd (.inr ⟨past, hd⟩) h
  · rcases Value.toDecimal?_of_toRat? hv with ⟨past, -⟩ | ⟨-, e, hve, rfl⟩
    · rcases hd with hd | hd
      · exact absurd (.inl ⟨hd, past⟩) h
      · rw [(Value.magnitude_of_past hv past).1] at hd
        contradiction
    · exact ⟨d, e, both_eq_some.mpr ⟨hld, hve⟩, rfl, rfl⟩

theorem inOrder_decimal (hl : l.toRat? = some p) (hv : v.toRat? = some q)
    (hd : l.tag = .bigDecimal ∨ v.tag = .bigDecimal) : InOrder l v p q := by
  have hln := Value.numeric_of_toRat? hl
  have hw := widen_decimal hln (Value.numeric_of_toRat? hv) hd
  have hs : ¬ (l.tag = .string ∧ v.tag = .string) := fun h => (ne_of_numeric hln).2.1 h.1
  have equal : equalsDirect (.own l) (.own v) =
      (both Value.toDecimal? l v).any fun p => p.1.equals p.2 := by
    rw [equalsDirect, hw]
  have order : order? (.own l) (.own v) =
      (both Value.toDecimal? l v).map fun p => some (p.1.compare p.2) := by
    rw [order?, if_neg hs, hw]
    rfl
  by_cases unfit : Unfit l v
  · rw [both_of_unfit hl hv unfit] at equal order
    refine ⟨?_, fun fit => absurd unfit fit, fun _ => order⟩
    rw [equal]
    exact iff_of_false Bool.false_ne_true (ne_of_unfit hl hv unfit)
  · obtain ⟨d, e, hboth, rfl, rfl⟩ := both_of_fit hl hv hd unfit
    rw [hboth] at equal order
    refine ⟨?_, fun _ => ?_, fun h => absurd h unfit⟩
    · rw [equal]
      exact Decimal.equals_iff d e
    · rw [order, ← Decimal.compare_eq]
      rfl

theorem inOrder_of_toRat? (hl : l.toRat? = some p) (hv : v.toRat? = some q) :
    InOrder l v p q := by
  rcases Value.integral_or_decimal hl with hli | hd
  · rcases Value.integral_or_decimal hv with hvi | hd
    · exact inOrder_integral hl hv hli hvi
    · exact inOrder_decimal hl hv (.inr hd)
  · exact inOrder_decimal hl hv (.inl hd)

theorem exact_equality (r : ConversionRegistry) (hl : l.toRat? = some p)
    (hv : v.toRat? = some q) : Answers (applyOwn r .eq l v) (p = q) := by
  have hln := ne_of_numeric (Value.numeric_of_toRat? hl)
  have hvn := ne_of_numeric (Value.numeric_of_toRat? hv)
  refine ⟨same r l v, applyOwn_eq r l v, ?_⟩
  rw [same_present r hln.1 hvn.1, equals_plain r hln.2.1 hvn.2.1]
  exact (inOrder_of_toRat? hl hv).equal

theorem exact_order (r : ConversionRegistry) {op : Operator} (hop : op.isOrdering = true)
    (hl : l.toRat? = some p) (hv : v.toRat? = some q) :
    (Unfit l v → applyOwn r op l v = .error (.incompatibleOperands op l.tag v.tag)) ∧
      (¬ Unfit l v → Answers (applyOwn r op l v) (op.Relates p q)) := by
  have hln := Value.numeric_of_toRat? hl
  have hvn := Value.numeric_of_toRat? hv
  have hread := spellOut_number r hln hvn
  obtain ⟨-, order, unfit⟩ := inOrder_of_toRat? hl hv
  constructor
  · intro h
    rw [applyOwn_ordering r hop (ne_of_numeric hln).1 (ne_of_numeric hvn).1, hread]
    change comparison op (.own l) (.own v) = _
    rw [comparison, unfit h]
    rfl
  · intro h
    exact answers_ordering hop (ne_of_numeric hln).1 (ne_of_numeric hvn).1 hread (order h)
      (cmp_compares p q)

/-- Equality of exact values is equality of the numbers that they denote, and so an equivalence.
The order operators answer as the order of the numbers, except for a decimal and a big integer
that no decimal can hold, which they refuse to compare. -/
theorem exact_comparisons (r : ConversionRegistry) :
    (∀ l v p q, l.toRat? = some p → v.toRat? = some q →
      Answers (applyOwn r .eq l v) (p = q) ∧
      ∀ op, op.isOrdering = true →
        (Unfit l v → applyOwn r op l v = .error (.incompatibleOperands op l.tag v.tag)) ∧
        (¬ Unfit l v → Answers (applyOwn r op l v) (op.Relates p q))) ∧
    Equivalence fun l v : { v : Value // v.toRat?.isSome = true } =>
      applyOwn r .eq l v = .ok (.boolean true) := by
  refine ⟨fun l v p q hl hv => ⟨exact_equality r hl hv, fun op hop => exact_order r hop hl hv⟩, ?_⟩
  have equal (l v : { v : Value // v.toRat?.isSome = true }) :
      applyOwn r .eq l v = .ok (.boolean true) ↔ l.val.toRat? = v.val.toRat? := by
    obtain ⟨p, hp⟩ := Option.isSome_iff_exists.mp l.property
    obtain ⟨q, hq⟩ := Option.isSome_iff_exists.mp v.property
    rw [(exact_equality r hp hq).true_iff, hp, hq, Option.some_inj]
  simp only [equal]
  exact ⟨fun _ => rfl, Eq.symm, Eq.trans⟩

/-- A big integer past all decimals is not equal to one, and has no order beside it. -/
theorem exact_comparisons_past :
    Answers (applyOwn .empty .eq (.bigInteger (2 ^ 96)) (.bigDecimal .one))
        (((2 ^ 96 : ℤ) : ℚ) = Decimal.one.toRat) ∧
      applyOwn .empty .lt (.bigInteger (2 ^ 96)) (.bigDecimal .one) =
        .error (.incompatibleOperands .lt .bigInteger .bigDecimal) ∧
      Answers (applyOwn .empty .lt (.bigInteger 2) (.bigDecimal .one))
        (((2 : ℤ) : ℚ) < Decimal.one.toRat) := by
  obtain ⟨comparisons, -⟩ := exact_comparisons .empty
  obtain ⟨equal, past⟩ :=
    comparisons (.bigInteger (2 ^ 96)) (.bigDecimal .one) _ _ rfl rfl
  obtain ⟨-, small⟩ := comparisons (.bigInteger 2) (.bigDecimal .one) _ _ rfl rfl
  have fit : ¬ Unfit (.bigInteger 2) (.bigDecimal .one) := by
    rintro (⟨h, -⟩ | ⟨h, -⟩)
    · contradiction
    · exact absurd h (by decide : ¬ 2 ^ 96 ≤ (2 : ℤ).natAbs)
  exact ⟨equal, (past .lt rfl).1 (.inr ⟨le_refl (2 ^ 96), rfl⟩), (small .lt rfl).2 fit⟩

end Kernel

end Scriptlet
