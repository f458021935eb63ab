import Scriptlet.Proofs.Conversion.Exact
import Scriptlet.Proofs.Kernel.Tags

/-!
# Operations on another right operand

When a literal is replaced by its conversion, the operation it takes part in has another right
operand. The outcome is `Kept` if it is the same value, or an error of the same kind.
-/
namespace Scriptlet

/-- The errors are the same, apart from the tags of operands and the causes of conversions. -/
def RuntimeError.SameKind : RuntimeError → RuntimeError → Prop
  | .incompatibleOperands op _ _, .incompatibleOperands op' _ _ => op = op'
  | .conversion _, .conversion _ => True
  | e, e' => e = e'

theorem RuntimeError.SameKind.refl (e : RuntimeError) : e.SameKind e := by
  cases e <;> simp [SameKind]

namespace Kernel

/-- A value under its own tag. -/
abbrev Operand.own (v : Value) : Operand := ⟨v.tag, v⟩

/-- The same value, or errors of one kind. -/
inductive Agree : Result → Result → Prop
  | value (v : Value) : Agree (.ok v) (.ok v)
  | failure {e e' : RuntimeError} (same : e.SameKind e') : Agree (.error e) (.error e')

theorem Agree.refl (r : Result) : Agree r r := by
  cases r with
  | ok v => exact .value v
  | error e => exact .failure (.refl e)

theorem agree_incompatible (op : Operator) (l r l' r' : Operand) :
    Agree (.error (incompatible op l r)) (.error (incompatible op l' r')) :=
  .failure (show op = op from rfl)

/-- An operation has the same outcome on the right operand `w` as on `v`. -/
def Kept (r : ConversionRegistry) (op : Operator) (l v w : Value) : Prop :=
  Agree (applyOwn r op l w) (applyOwn r op l v)

/-! ## Operations on numbers -/

theorem not_null_of_tag {v : Value} (h : v.tag ≠ .null) : v.isNull = false := by
  cases v <;> first | rfl | contradiction

theorem applyOwn_present (r : ConversionRegistry) {op : Operator} {l v : Value}
    (hl : l.tag ≠ .null) (hv : v.tag ≠ .null)
    (hs : ¬ (op = .add ∧ (l.tag = .string ∨ v.tag = .string))) :
    applyOwn r op l v = applyPresent r op (.own l) (.own v) := by
  simp only [applyOwn, apply, Operand.live, liveTag_own, applyLive, if_neg hs,
    not_null_of_tag hl, not_null_of_tag hv, Bool.or_self, Bool.false_eq_true, if_false]

theorem ne_of_numeric {t : Tag} (h : t.isNumeric = true) :
    t ≠ .null ∧ t ≠ .string ∧ t ≠ .boolean ∧ t ≠ .object := by
  cases t <;> first | contradiction | simp

theorem spellOut_number (r : ConversionRegistry) {l v : Value} (hl : l.tag.isNumeric = true)
    (hv : v.tag.isNumeric = true) : spellOut r (.own l) (.own v) = .ok (.own l, .own v) := by
  simp only [spellOut, (ne_of_numeric hl).2.1, (ne_of_numeric hv).2.1, false_and, if_false]

theorem equals_plain (r : ConversionRegistry) {l v : Value} (hl : l.tag ≠ .string)
    (hv : v.tag ≠ .string) : equals r (.own l) (.own v) = equalsDirect (.own l) (.own v) := by
  simp [equals, hl, hv]

theorem logical_number {op : Operator} {l : Value} (v : Operand) (hl : l.tag.isNumeric = true) :
    logical op (.own l) v = .error (incompatible op (.own l) v) := by
  have : l.toBool? = none := by cases l <;> first | rfl | contradiction
  simp [logical, both, this]

/-! ### Readings of one kind -/

theorem both_congr {α : Type} {view : Value → Option α} {l v w : Value} (h : view v = view w) :
    both view l w = both view l v := by
  rw [both, both, h]

theorem promotedArithmetic?_congr {op : Operator} {tag : Tag} {l v w : Value}
    (h : v.ReadsAs tag w) : promotedArithmetic? op tag l w = promotedArithmetic? op tag l v := by
  cases tag <;> simp only [promotedArithmetic?, both_congr h]

theorem promotedOrder?_congr {tag : Tag} {l v w : Value} (h : v.ReadsAs tag w) :
    promotedOrder? tag l w = promotedOrder? tag l v := by
  cases tag <;> simp only [promotedOrder?, both_congr h]

variable {l v w : Value} {tag : Tag}

theorem arithmetic_congr (op : Operator) (hv : Tag.widen l.tag v.tag = some tag)
    (hw : Tag.widen l.tag w.tag = some tag) (h : v.ReadsAs tag w) :
    Agree (arithmetic op (.own l) (.own w)) (arithmetic op (.own l) (.own v)) := by
  simp only [arithmetic, hv, hw, promotedArithmetic?_congr h]
  cases promotedArithmetic? op tag l v with
  | some result => exact .refl result
  | none => exact agree_incompatible ..

theorem order?_congr (hv : Tag.widen l.tag v.tag = some tag)
    (hw : Tag.widen l.tag w.tag = some tag) (h : v.ReadsAs tag w) :
    order? (.own l) (.own w) = order? (.own l) (.own v) := by
  have hl := ne_of_numeric (Tag.numeric_of_widen hv).1
  simp only [order?, hl.2.1, false_and, if_false, hv, hw, Option.bind_some,
    promotedOrder?_congr h]

theorem equalsDirect_congr (hv : Tag.widen l.tag v.tag = some tag)
    (hw : Tag.widen l.tag w.tag = some tag) (h : v.ReadsAs tag w) :
    equalsDirect (.own l) (.own w) = equalsDirect (.own l) (.own v) := by
  simp only [equalsDirect, hv, hw]
  cases tag <;> simp only [both_congr h]

theorem comparison_congr {op : Operator}
    (h : order? (.own l) (.own w) = order? (.own l) (.own v)) :
    Agree (comparison op (.own l) (.own w)) (comparison op (.own l) (.own v)) := by
  rw [comparison, comparison, h]
  cases order? (.own l) (.own v) with
  | some order => exact .refl _
  | none => exact agree_incompatible ..

/-! ### Integers -/

/-- Two integral tags are promoted to that of a machine integer, unless one is a big integer. -/
theorem widen_integral {t u : Tag} (ht : t.isIntegral = true) (hu : u.isIntegral = true) :
    Tag.widen t u = some .bigInteger ∨
      (t ≠ .bigInteger ∧ u ≠ .bigInteger ∧
        ∃ p ∈ [Tag.byte, .short, .int, .long], Tag.widen t u = some p) := by
  have table : ∀ t ∈ Tag.all, ∀ u ∈ Tag.all, t.isIntegral = true → u.isIntegral = true →
      Tag.widen t u = some .bigInteger ∨
        (t ≠ .bigInteger ∧ u ≠ .bigInteger ∧
          ∃ p ∈ [Tag.byte, .short, .int, .long], Tag.widen t u = some p) := by
    decide +kernel
  exact table t (Tag.mem_all t) u (Tag.mem_all u) ht hu

theorem numeric_of_integral {t : Tag} (h : t.isIntegral = true) : t.isNumeric = true := by
  cases t <;> first | rfl | contradiction

theorem toInt?_isSome {v : Value} (h : v.tag.isIntegral = true) : ∃ n, v.toInt? = some n := by
  cases v <;> first | contradiction | exact ⟨_, rfl⟩

theorem toInt64?_of_machine {v : Value} {n : Int} (h : v.tag.isIntegral = true)
    (hbig : v.tag ≠ .bigInteger) (hn : v.toInt? = some n) :
    v.toInt64? = some (Int64.ofInt n) ∧ (Int64.ofInt n).toInt = n := by
  have some {m : Int64} (hm : v.toInt64? = .some m) (hmap : v.toInt? = v.toInt64?.map Int64.toInt) :
      v.toInt64? = .some (Int64.ofInt n) ∧ (Int64.ofInt n).toInt = n := by
    rw [hmap, hm] at hn
    obtain rfl := Option.some.inj hn
    simp [hm]
  cases v <;> first | contradiction | exact some rfl rfl

theorem order?_integral {l v : Value} {m n : Int} (hl : l.tag.isIntegral = true)
    (hv : v.tag.isIntegral = true) (hm : l.toInt? = some m) (hn : v.toInt? = some n) :
    order? (.own l) (.own v) = some (some (compare m n)) := by
  have hs := (ne_of_numeric (numeric_of_integral hl)).2.1
  rcases widen_integral hl hv with hw | ⟨hlb, hvb, p, hp, hw⟩
  · simp [order?, hs, hw, promotedOrder?, both, hm, hn]
  · obtain ⟨hm, hm'⟩ := toInt64?_of_machine hl hlb hm
    obtain ⟨hn, hn'⟩ := toInt64?_of_machine hv hvb hn
    have view : promotedOrder? p l v =
        (both Value.toInt64? l v).map fun p => some (compare p.1.toInt p.2.toInt) := by
      simp only [List.mem_cons, List.not_mem_nil, or_false] at hp
      rcases hp with rfl | rfl | rfl | rfl <;> rfl
    simp [order?, hs, hw, view, both, hm, hn, hm', hn']

theorem equalsDirect_integral {l v : Value} {m n : Int} (hl : l.tag.isIntegral = true)
    (hv : v.tag.isIntegral = true) (hm : l.toInt? = some m) (hn : v.toInt? = some n) :
    equalsDirect (.own l) (.own v) = (m == n) := by
  rcases widen_integral hl hv with hw | ⟨hlb, hvb, p, hp, hw⟩
  · simp [equalsDirect, hw, both, hm, hn]
  · obtain ⟨hm, hm'⟩ := toInt64?_of_machine hl hlb hm
    obtain ⟨hn, hn'⟩ := toInt64?_of_machine hv hvb hn
    have view : equalsDirect (.own l) (.own v) =
        (both Value.toInt64? l v).any fun p => p.1 == p.2 := by
      simp only [List.mem_cons, List.not_mem_nil, or_false] at hp
      rcases hp with rfl | rfl | rfl | rfl <;> simp only [equalsDirect, hw]
    rw [view, both, hm, hn]
    simp only [Option.map_some, Option.bind_some, Option.any_some]
    rw [Bool.eq_iff_iff, beq_iff_eq, beq_iff_eq, ← Int64.toInt_inj, hm', hn']

theorem integralBitwise?_congr {op : Operator} (hl : l.tag.isIntegral = true)
    (hv : v.tag.isIntegral = true) (hw : w.tag.isIntegral = true) (same : v.toInt? = w.toInt?)
    (bits : Tag.bitwise? l.tag v.tag = Tag.bitwise? l.tag w.tag) :
    integralBitwise? op (.own l) (.own w) = integralBitwise? op (.own l) (.own v) := by
  have table : ∀ t ∈ Tag.all, ∀ u ∈ Tag.all, ∀ x ∈ Tag.all, t.isIntegral = true →
      u.isIntegral = true → x.isIntegral = true → Tag.bitwise? t u = Tag.bitwise? t x →
      ((t = .bigInteger ∨ u = .bigInteger) ↔ (t = .bigInteger ∨ x = .bigInteger)) ∧
        (¬ (t = .bigInteger ∨ u = .bigInteger) →
          ((t = .long ∨ u = .long) ↔ (t = .long ∨ x = .long))) := by
    decide +kernel
  obtain ⟨big, long⟩ := table _ (Tag.mem_all l.tag) _ (Tag.mem_all v.tag) _ (Tag.mem_all w.tag)
    hl hv hw bits
  by_cases hbig : l.tag = .bigInteger ∨ v.tag = .bigInteger
  · rw [integralBitwise?, integralBitwise?, if_pos hbig, if_pos (big.mp hbig), both_congr same]
  · have hbigw := fun h => hbig (big.mpr h)
    obtain ⟨n, hn⟩ := toInt?_isSome hv
    have hvn := (toInt64?_of_machine hv (fun h => hbig (.inr h)) hn).1
    have hwn := (toInt64?_of_machine hw (fun h => hbigw (.inr h)) (same ▸ hn)).1
    rw [integralBitwise?, integralBitwise?, if_neg hbig, if_neg hbigw,
      both_congr (hvn.trans hwn.symm)]
    simp only [long hbig]

theorem bitwise_congr (op : Operator) (hl : l.tag.isNumeric = true)
    (integral : (l.tag.isIntegral && w.tag.isIntegral) = (l.tag.isIntegral && v.tag.isIntegral))
    (bits : l.tag.isIntegral = true → v.tag.isIntegral = true → w.tag.isIntegral = true →
      v.toInt? = w.toInt? ∧ Tag.bitwise? l.tag v.tag = Tag.bitwise? l.tag w.tag) :
    Agree (bitwise op (.own l) (.own w)) (bitwise op (.own l) (.own v)) := by
  have hb := (ne_of_numeric hl).2.2.1
  simp only [bitwise, hb, false_and, if_false, integral]
  by_cases hi : (l.tag.isIntegral && v.tag.isIntegral) = true
  · have hw := integral.trans hi
    rw [Bool.and_eq_true] at hi hw
    obtain ⟨same, bits⟩ := bits hi.1 hi.2 hw.2
    rw [if_pos (by simp [hi]), if_pos (by simp [hi]),
      integralBitwise?_congr hi.1 hi.2 hw.2 same bits]
    cases integralBitwise? op (.own l) (.own v) with
    | some result => exact .refl result
    | none => exact agree_incompatible ..
  · rw [if_neg hi, if_neg hi]
    exact agree_incompatible ..

/-! ## Operations that are kept -/

variable {r : ConversionRegistry} {op : Operator}

/-- An operation on two numbers is kept if equality, arithmetic, order and bits are. -/
theorem Kept.of_numbers (hl : l.tag.isNumeric = true) (hv : v.tag.isNumeric = true)
    (hw : w.tag.isNumeric = true)
    (equal : equalsDirect (.own l) (.own w) = equalsDirect (.own l) (.own v))
    (arith : op.isArithmetic = true →
      Agree (arithmetic op (.own l) (.own w)) (arithmetic op (.own l) (.own v)))
    (order : order? (.own l) (.own w) = order? (.own l) (.own v))
    (bits : op.isBitwise = true →
      Agree (bitwise op (.own l) (.own w)) (bitwise op (.own l) (.own v))) :
    Kept r op l v w := by
  have hs := (ne_of_numeric hl).2.1
  have present {x : Value} (hx : x.tag.isNumeric = true) :
      applyOwn r op l x = applyPresent r op (.own l) (.own x) :=
    applyOwn_present r (ne_of_numeric hl).1 (ne_of_numeric hx).1 (by
      simp [hs, (ne_of_numeric hx).2.1])
  rw [Kept, present hv, present hw]
  cases op
  case eq | neq =>
    simp only [applyPresent, equals_plain r hs (ne_of_numeric hv).2.1,
      equals_plain r hs (ne_of_numeric hw).2.1, equal]
    exact .refl _
  case and | or =>
    simp only [applyPresent, logical_number _ hl]
    exact agree_incompatible ..
  case lt | gt | le | ge =>
    simp only [applyPresent, spellOut_number r hl hv, spellOut_number r hl hw]
    exact comparison_congr order
  case add | sub | mul | div | rem | pow =>
    simp only [applyPresent, spellOut_number r hl hv, spellOut_number r hl hw]
    exact arith rfl
  case bitAnd | bitOr | bitXor | shl | shr | ushr =>
    simp only [applyPresent, spellOut_number r hl hv, spellOut_number r hl hw]
    exact bits rfl

/-- Promotion to a tag is promotion with an operand of this tag. -/
theorem widen_widened {t u p : Tag} (h : Tag.widen t u = some p) :
    Tag.widen t p = some p ∧ (t.isIntegral && p.isIntegral) = (t.isIntegral && u.isIntegral) ∧
      (p.isIntegral = true → p ≠ .bigInteger → u ≠ .bigInteger) ∧
      (t.isIntegral = true → u.isIntegral = true → Tag.bitwise? t u = Tag.bitwise? t p) := by
  have table : ∀ t ∈ Tag.all, ∀ u ∈ Tag.all, (Tag.widen t u).all (fun p =>
      Tag.widen t p = some p ∧ (t.isIntegral && p.isIntegral) = (t.isIntegral && u.isIntegral) ∧
      (p.isIntegral = true → p ≠ .bigInteger → u ≠ .bigInteger) ∧
      (t.isIntegral = true → u.isIntegral = true → Tag.bitwise? t u = Tag.bitwise? t p)) =
        true := by
    decide +kernel
  have := table t (Tag.mem_all t) u (Tag.mem_all u)
  rw [h] at this
  exact of_decide_eq_true this

/-- Readings of one integral kind are readings of one integer. -/
theorem toInt?_eq_of_readsAs (h : v.ReadsAs w.tag w) (hv : v.tag.isIntegral = true)
    (hw : w.tag.isIntegral = true) (hbig : w.tag ≠ .bigInteger → v.tag ≠ .bigInteger) :
    v.toInt? = w.toInt? := by
  by_cases hwb : w.tag = .bigInteger
  · rw [hwb] at h
    exact h
  · obtain ⟨m, hm⟩ := toInt?_isSome hv
    obtain ⟨n, hn⟩ := toInt?_isSome hw
    obtain ⟨hvm, hm'⟩ := toInt64?_of_machine hv (hbig hwb) hm
    obtain ⟨hwn, hn'⟩ := toInt64?_of_machine hw hwb hn
    have same : v.toInt64? = w.toInt64? := by
      revert h hwb hw
      cases w.tag <;> intro hw h hwb <;> first | contradiction | exact hw
    rw [hvm, hwn] at same
    rw [hm, hn, ← hm', ← hn', Option.some.inj same]

/-- A right operand of the tag that both are promoted to, read as the same number. -/
theorem Kept.of_widened (hv : Tag.widen l.tag v.tag = some w.tag) (same : v.ReadsAs w.tag w) :
    Kept r op l v w := by
  obtain ⟨hln, hvn, hwn⟩ := Tag.numeric_of_widen hv
  obtain ⟨hw, integral, big, bits⟩ := widen_widened hv
  refine .of_numbers hln hvn hwn (equalsDirect_congr hv hw same)
    (fun _ => arithmetic_congr op hv hw same) (order?_congr hv hw same) fun _ => ?_
  refine bitwise_congr op hln integral fun hl hv hw => ⟨?_, bits hl hv⟩
  exact toInt?_eq_of_readsAs same hv hw (big hw)

/-- The same integer of another integral kind, where the kind of the result does not matter. -/
theorem Kept.of_integers (hop : op.isArithmetic = false) (hl : l.tag.isIntegral = true)
    (hv : v.tag.isIntegral = true) (hw : w.tag.isIntegral = true) (same : v.toInt? = w.toInt?)
    (bits : op.isBitwise = true → Tag.bitwise? l.tag v.tag = Tag.bitwise? l.tag w.tag) :
    Kept r op l v w := by
  obtain ⟨m, hm⟩ := toInt?_isSome hl
  obtain ⟨n, hn⟩ := toInt?_isSome hv
  have hn' : w.toInt? = some n := same ▸ hn
  refine .of_numbers (numeric_of_integral hl) (numeric_of_integral hv) (numeric_of_integral hw)
    ?_ (fun h => ?_) ?_ fun hb => ?_
  · rw [equalsDirect_integral hl hw hm hn', equalsDirect_integral hl hv hm hn]
  · rw [hop] at h
    contradiction
  · rw [order?_integral hl hw hm hn', order?_integral hl hv hm hn]
  · exact bitwise_congr op (numeric_of_integral hl) (by rw [hv, hw]) fun _ _ _ => ⟨same, bits hb⟩

/-- Equality with a string reads it as the kind of the other operand. -/
theorem equals_spelled (hl : isSpelled l.tag = true) (hs : v.tag = .string) (hw : w.tag = l.tag)
    (h : r.convert v l.tag.toTy = .ok w) :
    equals r (.own l) (.own w) = equals r (.own l) (.own v) := by
  have hls : l.tag ≠ .string := by
    intro h
    rw [h] at hl
    contradiction
  rw [equals_plain r hls (by rwa [hw]), equals]
  simp only [hls, hs, hl, false_and, and_self, if_false, if_true, convertsTo, h]
  rw [← hw]

/-- A string on the right of a number is read as a number of this kind, or replaced by it. -/
theorem Kept.of_spelled (hop : op ≠ .add) (hl : l.tag.isNumeric = true) (hs : v.tag = .string)
    (hw : w.tag = l.tag) (h : r.convert v l.tag.toTy = .ok w) : Kept r op l v w := by
  have hln := ne_of_numeric hl
  have hwn : w.tag.isNumeric = true := hw ▸ hl
  have present {x : Value} (hx : x.tag ≠ .null) :
      applyOwn r op l x = applyPresent r op (.own l) (.own x) :=
    applyOwn_present r hln.1 hx fun h => hop h.1
  have spelled : spellOut r (.own l) (.own v) = .ok (.own l, .own w) := by
    simp [spellOut, hln.2.1, hs, hl, h, hw]
  rw [Kept, present (hw ▸ hln.1 : w.tag ≠ .null), present (by simp [hs])]
  cases op
  case add => contradiction
  case eq | neq =>
    have spelledTag : isSpelled l.tag = true := by
      revert hl
      cases l.tag <;> simp [Tag.isNumeric, isSpelled]
    simp only [applyPresent, equals_spelled spelledTag hs hw h]
    exact .refl _
  case and | or =>
    simp only [applyPresent, logical_number _ hl]
    exact agree_incompatible ..
  all_goals
    simp only [applyPresent, spelled, spellOut_number r hl hwn]
    exact .refl _

/-- Equality of a truth value with a string that spells one. -/
theorem Kept.of_truth (hop : op.isEquality = true) (hl : l.tag = .boolean) (hs : v.tag = .string)
    (hw : w.tag = .boolean) (h : r.convert v (.boxed .boolean) = .ok w) : Kept r op l v w := by
  have equal : equals r (.own l) (.own w) = equals r (.own l) (.own v) :=
    equals_spelled (by rw [hl]; rfl) hs (hw.trans hl.symm) (by rwa [hl])
  have present {x : Value} (hx : x.tag ≠ .null) :
      applyOwn r op l x = applyPresent r op (.own l) (.own x) :=
    applyOwn_present r (by simp [hl]) hx (by rintro ⟨rfl, -⟩; contradiction)
  rw [Kept, present (by simp [hw]), present (by simp [hs])]
  cases op <;> first | contradiction | (simp only [applyPresent, equal]; exact .refl _)

end Kernel

end Scriptlet
