import Scriptlet.Proofs.Kernel.Outcome
import Scriptlet.Proofs.Value.Equality

/-!
# Comparisons agree with each other

The six comparison operators tell one story: equality and its negation are opposite and
symmetric, and operands that have an order are less, equal or greater, the same from both sides.
-/
namespace Scriptlet

/-- The operators that ask for an order. -/
def Operator.isOrdering : Operator → Bool
  | .lt | .gt | .le | .ge => true
  | _ => false

namespace Kernel

variable {r : ConversionRegistry} {l v : Value}

/-! ## Equality -/

theorem both_swap {α : Type} (view : Value → Option α) (l v : Value) :
    both view v l = (both view l v).map Prod.swap := by
  simp only [both]
  cases view l <;> cases view v <;> rfl

theorem both_eq_some {α : Type} {view : Value → Option α} {a b : α} :
    both view l v = some (a, b) ↔ view l = some a ∧ view v = some b := by
  simp only [both]
  cases view l <;> cases view v <;> simp

theorem any_both_swap {α : Type} (view : Value → Option α) {same : α → α → Bool}
    (comm : ∀ a b, same a b = same b a) (l v : Value) :
    (both view v l).any (fun p => same p.1 p.2) = (both view l v).any fun p => same p.1 p.2 := by
  rw [both_swap view l v, Option.any_map]
  exact congrArg (Option.any · _) (funext fun p => comm p.2 p.1)

theorem equalsDirect_comm (left right : Operand) :
    equalsDirect left right = equalsDirect right left := by
  have integers (m n : Int) : (m == n) = (n == m) := BEq.comm
  have words (m n : Int64) : (m == n) = (n == m) := BEq.comm
  simp only [equalsDirect, Tag.widen_comm right.tag left.tag]
  split
  · exact any_both_swap _ Floating.double_beq_comm ..
  · exact any_both_swap _ Floating.double_beq_comm ..
  · exact any_both_swap _ integers ..
  · exact any_both_swap _ Decimal.equals_comm ..
  · exact any_both_swap _ words ..
  · exact left.value.equals_comm right.value

theorem isObject_iff (v : Value) : isObject v = true ↔ v.tag = .object := by
  cases v <;> simp [isObject, Value.tag]

/-- A string is read as what stands beside it, on either side. -/
theorem equals_comm_string (r : ConversionRegistry) (hl : l.tag = .string) :
    equals r (.own l) (.own v) = equals r (.own v) (.own l) := by
  have direct := equalsDirect_comm (.own l) (.own v)
  cases ht : v.tag with
  | string | null =>
    have ho : ¬ isObject v = true := by simp [isObject_iff, ht]
    simpa [equals, hl, ht, ho, isObject_iff, isSpelled] using direct
  | object =>
    have ho : isObject v = true := (isObject_iff v).mpr ht
    simp only [equals, hl, ht, ho, isObject_iff, isSpelled, reduceCtorEq, Bool.false_eq_true,
      and_false, and_self, if_true, if_false]
    exact congrArg (convertsTo r l v.ty) (funext fun x => x.equals_comm v)
  | _ =>
    simp only [equals, hl, ht, isSpelled, reduceCtorEq, false_and, and_self, if_true, if_false]
    exact congrArg (convertsTo r l _) (funext fun x => equalsDirect_comm ..)

theorem equals_comm (r : ConversionRegistry) (l v : Value) :
    equals r (.own l) (.own v) = equals r (.own v) (.own l) := by
  by_cases hl : l.tag = .string
  · exact equals_comm_string r hl
  by_cases hv : v.tag = .string
  · exact (equals_comm_string r hv).symm
  rw [equals_plain r hl hv, equals_plain r hv hl]
  exact equalsDirect_comm _ _

/-- Whether two values are equal: null is equal to itself only. -/
def same (r : ConversionRegistry) (l v : Value) : Bool :=
  if l.isNull || v.isNull then l.isNull && v.isNull else equals r (.own l) (.own v)

theorem same_present (r : ConversionRegistry) (hl : l.tag ≠ .null) (hv : v.tag ≠ .null) :
    same r l v = equals r (.own l) (.own v) := by
  rw [same, not_null_of_tag hl, not_null_of_tag hv]
  rfl

theorem applyOwn_eq (r : ConversionRegistry) (l v : Value) :
    applyOwn r .eq l v = .ok (.boolean (same r l v)) := by
  simp only [applyOwn, apply, Operand.live, liveTag_own, applyLive, reduceCtorEq, false_and,
    if_false, same]
  split
  · rfl
  · rfl

theorem applyOwn_neq (r : ConversionRegistry) (l v : Value) :
    applyOwn r .neq l v = .ok (.boolean (!same r l v)) := by
  simp only [applyOwn, apply, Operand.live, liveTag_own, applyLive, reduceCtorEq, false_and,
    if_false, same]
  split
  · rename_i h
    cases hl : l.isNull <;> cases hv : v.isNull <;> simp_all [withNull]
  · rfl

theorem same_comm (r : ConversionRegistry) (l v : Value) : same r l v = same r v l := by
  rw [same, same, equals_comm r l v, Bool.or_comm, Bool.and_comm]

/-! ## Order -/

/-- The kind that a comparison promotes two values to, a string beside a number being read as
such a number. -/
def comparedKind? (l v : Value) : Option Tag :=
  Tag.widen (l.tag.readBeside v.tag) (v.tag.readBeside l.tag)

theorem spellOut_swap (r : ConversionRegistry) (left right : Operand) :
    spellOut r right left = (spellOut r left right).map Prod.swap := by
  by_cases hl : left.tag = .string ∧ right.tag.isNumeric = true
  · have hr : ¬ (right.tag = .string ∧ left.tag.isNumeric = true) := by
      rintro ⟨-, h⟩
      rw [hl.1] at h
      contradiction
    simp only [spellOut, if_pos hl, if_neg hr]
    cases r.convert left.value right.tag.toTy <;> rfl
  · by_cases hr : right.tag = .string ∧ left.tag.isNumeric = true
    · simp only [spellOut, if_neg hl, if_pos hr]
      cases r.convert right.value left.tag.toTy <;> rfl
    · simp only [spellOut, if_neg hl, if_neg hr]
      rfl

/-- Both operands are compared: the order from the left, that from the right, and equality. -/
structure Compared (left right : Operand) (o : Ordering) : Prop where
  order : order? left right = some (some o)
  mirrored : order? right left = some (some o.swap)
  equal : equalsDirect left right = o.isEq

/-- Views that are compared by a total order. -/
theorem both_compared {α : Type} {view : Value → Option α} {cmp : α → α → Ordering}
    {same : α → α → Bool} {order : Option Ordering}
    (total : ∀ a b, cmp b a = (cmp a b).swap ∧ same a b = (cmp a b).isEq)
    (h : (both view l v).map (fun p => some (cmp p.1 p.2)) = some order) :
    ∃ o, order = some o ∧ (both view v l).map (fun p => some (cmp p.1 p.2)) = some (some o.swap) ∧
      (both view l v).any (fun p => same p.1 p.2) = o.isEq := by
  obtain ⟨⟨a, b⟩, hab, rfl⟩ := Option.map_eq_some_iff.mp h
  obtain ⟨swap, equal⟩ := total a b
  refine ⟨cmp a b, rfl, ?_, ?_⟩
  · simp [both_swap view l v, hab, swap]
  · simp [hab, equal]

theorem integers_compared (m n : Int) :
    compare n m = (compare m n).swap ∧ (m == n) = (compare m n).isEq := by
  refine ⟨Std.OrientedOrd.eq_swap, ?_⟩
  rw [Bool.eq_iff_iff, beq_iff_eq, Ordering.isEq_iff_eq_eq, Std.LawfulEqOrd.compare_eq_iff_eq]

theorem words_compared (m n : Int64) :
    compare n.toInt m.toInt = (compare m.toInt n.toInt).swap ∧
      (m == n) = (compare m.toInt n.toInt).isEq := by
  obtain ⟨swap, equal⟩ := integers_compared m.toInt n.toInt
  refine ⟨swap, ?_⟩
  rw [← equal, Bool.eq_iff_iff, beq_iff_eq, beq_iff_eq, Int64.toInt_inj]

theorem decimals_compared (a b : Decimal) :
    b.compare a = (a.compare b).swap ∧ a.equals b = (a.compare b).isEq :=
  integers_compared ..

theorem strings_compared (s t : String) :
    compare t.toList s.toList = (compare s.toList t.toList).swap ∧
      (s == t) = (compare s.toList t.toList).isEq := by
  refine ⟨Std.OrientedOrd.eq_swap, ?_⟩
  rw [Bool.eq_iff_iff, beq_iff_eq, Ordering.isEq_iff_eq_eq, Std.LawfulEqOrd.compare_eq_iff_eq,
    String.toList_inj]

variable {left right : Operand} {order : Option Ordering}

/-- Numbers that are not promoted to a floating kind. -/
theorem compared_numbers {kind : Tag} (hw : Tag.widen left.tag right.tag = some kind)
    (exact : kind.isFloating = false) (h : order? left right = some order) :
    ∃ o, order = some o ∧ Compared left right o := by
  obtain ⟨hl, hr, -⟩ := Tag.numeric_of_widen hw
  have hs : ¬ (left.tag = .string ∧ right.tag = .string) := fun h => (ne_of_numeric hl).2.1 h.1
  have hs' : ¬ (right.tag = .string ∧ left.tag = .string) := fun h => hs h.symm
  have hw' : Tag.widen right.tag left.tag = some kind := Tag.widen_comm .. ▸ hw
  rw [order?, if_neg hs, hw, Option.bind_some] at h
  have settle : (∃ o, order = some o ∧
      promotedOrder? kind right.value left.value = some (some o.swap) ∧
        equalsDirect left right = o.isEq) → ∃ o, order = some o ∧ Compared left right o := by
    rintro ⟨o, horder, mirrored, equal⟩
    refine ⟨o, horder, ?_, ?_, equal⟩
    · rw [order?, if_neg hs, hw, Option.bind_some, h, horder]
    · rw [order?, if_neg hs', hw', Option.bind_some, mirrored]
  rw [equalsDirect, hw] at settle
  cases kind with
  | float | double => contradiction
  | bigInteger => exact settle (both_compared integers_compared h)
  | bigDecimal => exact settle (both_compared decimals_compared h)
  | _ => exact settle (both_compared words_compared h)

theorem eq_of_toStr? {s : String} (h : v.toStr? = some s) : v = .string s := by
  cases v <;> first | contradiction | exact congrArg _ (Option.some.inj h)

theorem compared_strings (hl : left.tag = .string) (hr : right.tag = .string)
    (h : order? left right = some order) : ∃ o, order = some o ∧ Compared left right o := by
  have hw : Tag.widen left.tag right.tag = none := by rw [hl, hr]; rfl
  rw [order?, if_pos ⟨hl, hr⟩] at h
  obtain ⟨o, horder, mirrored, equal⟩ := both_compared strings_compared h
  refine ⟨o, horder, ?_, ?_, ?_⟩
  · rw [order?, if_pos ⟨hl, hr⟩, h, horder]
  · rw [order?, if_pos ⟨hr, hl⟩, mirrored]
  · obtain ⟨⟨s, t⟩, hst, -⟩ := Option.map_eq_some_iff.mp h
    rw [hst] at equal
    obtain ⟨hs, ht⟩ := both_eq_some.mp hst
    rw [equalsDirect, hw, eq_of_toStr? hs, eq_of_toStr? ht]
    exact equal

/-- Whatever has an order that is not one of floating numbers is compared by a total order. -/
theorem compared_of_order?
    (exact : ∀ kind, Tag.widen left.tag right.tag = some kind → kind.isFloating = false)
    (h : order? left right = some order) : ∃ o, order = some o ∧ Compared left right o := by
  by_cases hs : left.tag = .string ∧ right.tag = .string
  · exact compared_strings hs.1 hs.2 h
  · obtain ⟨kind, hw, -⟩ : ∃ kind, Tag.widen left.tag right.tag = some kind ∧ _ := by
      rw [order?, if_neg hs] at h
      exact Option.bind_eq_some_iff.mp h
    exact compared_numbers hw (exact kind hw) h

theorem exists_string (h : v.tag = .string) : ∃ s, v = .string s := by
  cases v <;> first | contradiction | exact ⟨_, rfl⟩

theorem isSpelled_of_numeric {t : Tag} (h : t.isNumeric = true) : isSpelled t = true := by
  cases t <;> first | contradiction | rfl

/-- A string beside a number is read as such a number for an equality and for an order alike. -/
theorem equals_of_spellOut (hread : spellOut r (.own l) (.own v) = .ok (left, right))
    (h : order? left right = some order) :
    equals r (.own l) (.own v) = equalsDirect left right := by
  unfold spellOut at hread
  split at hread
  -- a string on the left of a number
  · rename_i hl
    split at hread
    · rename_i x hx
      obtain ⟨rfl, rfl⟩ := Prod.mk.inj (Except.ok.inj hread)
      rw [equals, if_pos ⟨hl.1, isSpelled_of_numeric hl.2⟩, convertsTo, hx]
    · contradiction
  · rename_i hl
    split at hread
    -- a string on the right of a number
    · rename_i hv
      split at hread
      · rename_i x hx
        obtain ⟨rfl, rfl⟩ := Prod.mk.inj (Except.ok.inj hread)
        have hls : l.tag ≠ .string := (ne_of_numeric hv.2).2.1
        rw [equals, if_neg (fun h => hls h.1), if_pos ⟨hv.1, isSpelled_of_numeric hv.2⟩,
          convertsTo, hx]
      · contradiction
    -- operands that stand for themselves: they have an order, so they are strings or numbers
    · obtain ⟨rfl, rfl⟩ := Prod.mk.inj (Except.ok.inj hread)
      by_cases hs : l.tag = .string ∧ v.tag = .string
      · obtain ⟨s, rfl⟩ := exists_string hs.1
        obtain ⟨t, rfl⟩ := exists_string hs.2
        rfl
      · rw [order?, if_neg hs] at h
        obtain ⟨kind, hw, -⟩ := Option.bind_eq_some_iff.mp h
        obtain ⟨hln, hvn, -⟩ := Tag.numeric_of_widen hw
        exact equals_plain r (ne_of_numeric hln).2.1 (ne_of_numeric hvn).2.1

/-! ## The six operators -/

/-- An ordering operator reads its operands and compares what it has read. -/
theorem applyOwn_ordering (r : ConversionRegistry) {op : Operator} (hop : op.isOrdering = true)
    (hl : l.tag ≠ .null) (hv : v.tag ≠ .null) :
    applyOwn r op l v =
      (spellOut r (.own l) (.own v)).bind fun p => comparison op p.1 p.2 := by
  rw [applyOwn_present r hl hv (by rintro ⟨rfl, -⟩; contradiction)]
  cases op <;> first
    | contradiction
    | simp only [applyPresent]; cases spellOut r (.own l) (.own v) <;> rfl

/-- The six operators answer as the order of the operands says. -/
structure Placed (r : ConversionRegistry) (l v : Value) (o : Ordering) : Prop where
  less : applyOwn r .lt l v = .ok (.boolean o.isLT)
  equal : applyOwn r .eq l v = .ok (.boolean o.isEq)
  unequal : applyOwn r .neq l v = .ok (.boolean (!o.isEq))
  greater : applyOwn r .gt l v = .ok (.boolean o.isGT)
  atMost : applyOwn r .le l v = .ok (.boolean (o.isLT || o.isEq))
  atLeast : applyOwn r .ge l v = .ok (.boolean (o.isGT || o.isEq))

theorem placed_of_compared {o : Ordering} (hl : l.tag ≠ .null) (hv : v.tag ≠ .null)
    (hread : spellOut r (.own l) (.own v) = .ok (left, right)) (h : Compared left right o) :
    Placed r l v o := by
  have hsame : same r l v = o.isEq := by
    rw [same_present r hl hv, equals_of_spellOut hread h.order, h.equal]
  have ordered {op : Operator} (hop : op.isOrdering = true) :
      applyOwn r op l v = .ok (.boolean (holds op o)) := by
    rw [applyOwn_ordering r hop hl hv, hread]
    change comparison op left right = _
    rw [comparison, h.order]
    rfl
  have atMost : (o.isLT || o.isEq) = holds .le o := by cases o <;> rfl
  have atLeast : (o.isGT || o.isEq) = holds .ge o := by cases o <;> rfl
  constructor
  · exact ordered rfl
  · rw [applyOwn_eq, hsame]
  · rw [applyOwn_neq, hsame]
  · exact ordered rfl
  · rw [atMost, ordered rfl]
  · rw [atLeast, ordered rfl]

theorem Compared.swap {o : Ordering} (h : Compared left right o) : Compared right left o.swap where
  order := h.mirrored
  mirrored := by rw [Ordering.swap_swap, h.order]
  equal := by rw [equalsDirect_comm, h.equal, Ordering.isEq_swap]

/-- A comparison that answers has read its operands and found an order. -/
theorem order_of_less {w : Value} (h : applyOwn r .lt l v = .ok w) :
    l.tag ≠ .null ∧ v.tag ≠ .null ∧ ∃ left right order,
      spellOut r (.own l) (.own v) = .ok (left, right) ∧ order? left right = some order := by
  have live : applyLive r .lt (.own l) (.own v) = .ok w := by
    simpa only [applyOwn, apply, Operand.live, liveTag_own] using h
  have present : ¬ (l.isNull = true ∨ v.isNull = true) := by
    intro hnull
    rw [applyLive_null r hnull fun h => by cases h.1] at live
    contradiction
  have hl : l.tag ≠ .null := fun h => present (.inl (l.isNull_iff_tag.mpr h))
  have hv : v.tag ≠ .null := fun h => present (.inr (v.isNull_iff_tag.mpr h))
  rw [applyOwn_ordering r rfl hl hv] at h
  cases hread : spellOut r (.own l) (.own v) with
  | error e =>
    rw [hread] at h
    contradiction
  | ok p =>
    cases horder : order? p.1 p.2 with
    | some order => exact ⟨hl, hv, p.1, p.2, order, rfl, horder⟩
    | none =>
      rw [hread] at h
      change comparison .lt p.1 p.2 = .ok w at h
      rw [comparison, horder] at h
      contradiction

/-- Inequality is the negation of equality, equality is symmetric, and where `<` answers without
a promotion to a floating kind, all six operators answer as one order of the operands says, the
same from both sides. -/
theorem comparisons_coherent (r : ConversionRegistry) (l v : Value) :
    (∃ b, applyOwn r .eq l v = .ok (.boolean b) ∧ applyOwn r .neq l v = .ok (.boolean !b)) ∧
    applyOwn r .eq l v = applyOwn r .eq v l ∧
    ∀ w, applyOwn r .lt l v = .ok w →
      (∀ kind, comparedKind? l v = some kind → kind.isFloating = false) →
      ∃ o : Ordering, Placed r l v o ∧ Placed r v l o.swap := by
  refine ⟨⟨same r l v, applyOwn_eq r l v, applyOwn_neq r l v⟩, ?_, ?_⟩
  · rw [applyOwn_eq, applyOwn_eq, same_comm]
  · intro w less exact
    obtain ⟨hl, hv, left, right, order, hread, horder⟩ := order_of_less less
    obtain ⟨ht, hu⟩ := tag_spellOut hread
    obtain ⟨o, -, compared⟩ := compared_of_order?
      (fun kind hw => exact kind (by rwa [comparedKind?, ← ht, ← hu])) horder
    have mirrored : spellOut r (.own v) (.own l) = .ok (right, left) := by
      rw [spellOut_swap, hread]
      rfl
    exact ⟨o, placed_of_compared hl hv hread compared,
      placed_of_compared hv hl mirrored compared.swap⟩

/-- A string that spells a number is placed beside another number as this number is. -/
theorem comparisons_coherent_spelled :
    Placed .empty (.string " 5 ") (.bigInteger 7) .lt ∧
      Placed .empty (.bigInteger 7) (.string " 5 ") .gt := by
  have less : applyOwn .empty .lt (.string " 5 ") (.bigInteger 7) = .ok (.boolean true) := by
    rfl
  have exact : ∀ kind, comparedKind? (.string " 5 ") (.bigInteger 7) = some kind →
      kind.isFloating = false := by
    intro kind hkind
    obtain rfl : Tag.bigInteger = kind := Option.some.inj hkind
    rfl
  obtain ⟨-, -, coherent⟩ := comparisons_coherent .empty (.string " 5 ") (.bigInteger 7)
  obtain ⟨o, placed, mirrored⟩ := coherent _ less exact
  obtain rfl : o = .lt := by
    have : o.isLT = true := by simpa [less] using placed.less.symm
    cases o <;> first | rfl | contradiction
  exact ⟨placed, mirrored⟩

end Kernel

end Scriptlet
