import Scriptlet.Kernel.Apply
import Scriptlet.Proofs.Kind.Widening

/-!
# Tags of operands and of results

The kernel answers with a value of the tag that `resultTag?` gives. A tag that `Fits` its operand
selects nothing that the operand's own tag would not select.
-/
namespace Scriptlet.Kernel

/-- `left op right` under the tags of the values themselves. -/
def applyOwn (r : ConversionRegistry) (op : Operator) (left right : Value) : Result :=
  apply r op left.tag left right.tag right

theorem liveTag_own (v : Value) : liveTag v.tag v = v.tag := by simp [liveTag]

/-! ## Tags of results -/

theorem ok_of_getD {r : Option Result} {e : RuntimeError} {w : Value}
    (h : r.getD (.error e) = .ok w) : r = some (.ok w) := by
  cases r with
  | none => contradiction
  | some x => exact congrArg _ h

theorem map_eq_ok {ε α β : Type} {r : Except ε α} {f : α → β} {b : β} (h : r.map f = .ok b) :
    ∃ a, r = .ok a ∧ f a = b := by
  cases r with
  | error e => contradiction
  | ok a => exact ⟨a, rfl, Except.ok.inj h⟩

/-- An operation whose results all have one shape. -/
theorem ok_of_map {α : Type} {r : Option (Except RuntimeError α)} {f : α → Value} {w : Value}
    (h : r.map (·.map f) = some (.ok w)) : ∃ a, w = f a := by
  obtain ⟨x, -, h⟩ := Option.map_eq_some_iff.mp h
  obtain ⟨a, -, h⟩ := map_eq_ok h
  exact ⟨a, h.symm⟩

theorem tag_arithmetic {op : Operator} {left right : Operand} {w : Value}
    (h : arithmetic op left right = .ok w) : Tag.widen left.tag right.tag = some w.tag := by
  unfold arithmetic at h
  split at h
  · rename_i tag htag
    rw [htag]
    have promoted :
        tag ∈ [.byte, .short, .int, .long, .float, .double, .bigInteger, .bigDecimal] := by
      have table : ∀ l ∈ Tag.all, ∀ r ∈ Tag.all, (Tag.widen l r).all (· ∈
          [.byte, .short, .int, .long, .float, .double, .bigInteger, .bigDecimal]) = true := by
        decide +kernel
      have := table _ (Tag.mem_all left.tag) _ (Tag.mem_all right.tag)
      rw [htag] at this
      exact of_decide_eq_true this
    have h := ok_of_getD h
    unfold promotedArithmetic? at h
    split at h
    · obtain ⟨⟨l, r⟩, -, h⟩ := Option.bind_eq_some_iff.mp h
      obtain ⟨x, -, h⟩ := Option.map_eq_some_iff.mp h
      obtain rfl := Except.ok.inj h
      rfl
    · obtain ⟨⟨l, r⟩, -, h⟩ := Option.bind_eq_some_iff.mp h
      obtain ⟨x, -, h⟩ := Option.map_eq_some_iff.mp h
      obtain rfl := Except.ok.inj h
      rfl
    · obtain ⟨⟨l, r⟩, -, h⟩ := Option.bind_eq_some_iff.mp h
      obtain ⟨a, rfl⟩ := ok_of_map h
      rfl
    · obtain ⟨⟨l, r⟩, -, h⟩ := Option.bind_eq_some_iff.mp h
      obtain ⟨a, rfl⟩ := ok_of_map h
      rfl
    · obtain ⟨⟨l, r⟩, -, h⟩ := Option.bind_eq_some_iff.mp h
      obtain ⟨a, rfl⟩ := ok_of_map h
      cases tag <;> first | rfl | contradiction
  · contradiction

theorem tag_bitwise {op : Operator} {left right : Operand} {w : Value}
    (h : bitwise op left right = .ok w) : Tag.bitwise? left.tag right.tag = some w.tag := by
  have h := ok_of_getD h
  unfold Tag.bitwise?
  split at h
  · rename_i hb
    rw [if_pos hb]
    obtain ⟨⟨l, r⟩, -, h⟩ := Option.bind_eq_some_iff.mp h
    obtain ⟨x, -, h⟩ := Option.map_eq_some_iff.mp h
    obtain rfl := Except.ok.inj h
    rfl
  · rename_i hb
    rw [if_neg hb]
    split at h
    · rename_i hi
      rw [if_pos hi]
      unfold integralBitwise? at h
      split at h
      · rename_i hbig
        rw [if_pos hbig]
        obtain ⟨⟨l, r⟩, -, h⟩ := Option.bind_eq_some_iff.mp h
        obtain ⟨a, rfl⟩ := ok_of_map h
        rfl
      · rename_i hbig
        rw [if_neg hbig]
        obtain ⟨⟨l, r⟩, -, h⟩ := Option.bind_eq_some_iff.mp h
        simp only at h
        split at h
        · rename_i hlong
          rw [if_pos hlong]
          obtain ⟨x, -, h⟩ := Option.map_eq_some_iff.mp h
          obtain rfl := Except.ok.inj h
          rfl
        · rename_i hlong
          rw [if_neg hlong]
          obtain ⟨x, -, h⟩ := Option.map_eq_some_iff.mp h
          obtain rfl := Except.ok.inj h
          rfl
    · contradiction

theorem tag_spellOut {r : ConversionRegistry} {left right l v : Operand}
    (h : spellOut r left right = .ok (l, v)) :
    l.tag = left.tag.readBeside right.tag ∧ v.tag = right.tag.readBeside left.tag := by
  unfold spellOut at h
  unfold Tag.readBeside
  split at h
  · rename_i hl
    have hr : right.tag ≠ .string := by
      intro hr
      rw [hr] at hl
      exact absurd hl.2 (by decide)
    split at h
    · obtain ⟨rfl, rfl⟩ := Prod.mk.inj (Except.ok.inj h)
      simp [hl, hr]
    · contradiction
  · rename_i hl
    rw [if_neg hl]
    split at h
    · rename_i hr
      split at h
      · obtain ⟨rfl, rfl⟩ := Prod.mk.inj (Except.ok.inj h)
        simp [hr]
      · contradiction
    · rename_i hr
      obtain ⟨rfl, rfl⟩ := Prod.mk.inj (Except.ok.inj h)
      simp [hr]

theorem tag_numeric {r : ConversionRegistry} {op : Operator} {left right l v : Operand} {w : Value}
    (hop : op ≠ .eq ∧ op ≠ .neq ∧ op ≠ .and ∧ op ≠ .or)
    (hs : ¬ (op = .add ∧ (left.tag = .string ∨ right.tag = .string)))
    (hread : spellOut r left right = .ok (l, v)) (h : numeric op l v = .ok w) :
    op.resultTag? left.tag right.tag = some w.tag := by
  obtain ⟨hl, hv⟩ := tag_spellOut hread
  cases op
  case add =>
    have hs : left.tag ≠ .string ∧ right.tag ≠ .string := by simpa using hs
    have h := tag_arithmetic h
    rw [hl, hv] at h
    simpa [Operator.resultTag?, Tag.readBeside, hs] using h
  case sub | mul | div | rem | pow =>
    have h := tag_arithmetic h
    rwa [hl, hv] at h
  case lt | gt | le | ge =>
    simp only [numeric, comparison] at h
    split at h
    · obtain rfl := Except.ok.inj h
      rfl
    · contradiction
  case eq | neq | and | or => simp at hop
  case bitAnd | bitOr | bitXor | shl | shr | ushr =>
    have h := tag_bitwise h
    rwa [hl, hv] at h

theorem tag_applyOwn {r : ConversionRegistry} {op : Operator} {left right w : Value}
    (h : applyOwn r op left right = .ok w) :
    op.resultTag? left.tag right.tag = some w.tag := by
  simp only [applyOwn, apply, Operand.live, liveTag_own, applyLive] at h
  split at h
  · rename_i hs
    obtain ⟨rfl, hs⟩ := hs
    obtain rfl := Except.ok.inj h
    rw [Operator.resultTag?, if_pos hs]
    rfl
  · rename_i hs
    split at h
    · cases op <;> first | contradiction | (obtain rfl := Except.ok.inj h; rfl)
    · cases op
      case eq | neq =>
        obtain rfl := Except.ok.inj h
        rfl
      case and | or =>
        simp only [applyPresent, logical] at h
        split at h
        · obtain rfl := Except.ok.inj h
          rfl
        · contradiction
      all_goals
        simp only [applyPresent] at h
        split at h
        · rename_i hread
          exact tag_numeric (by decide) hs hread h
        · contradiction

/-! ## Tags of operands -/

/-- Dispatch on the tag comes to the same as dispatch on the value's own tag. A null operand has
the tag it is given, which matters for a sum with a string only. -/
def Fits (op : Operator) (tag : Tag) (v : Value) : Prop :=
  liveTag tag v = v.tag ∨ (v = .null ∧ ¬ (op = .add ∧ tag = .string))

theorem fits_own (op : Operator) (v : Value) : Fits op v.tag v := .inl (liveTag_own v)

theorem applyLive_string (r : ConversionRegistry) {op : Operator} {left right : Operand}
    (hs : op = .add ∧ (left.tag = .string ∨ right.tag = .string)) :
    applyLive r op left right = .ok (.string (left.value.display ++ right.value.display)) := by
  rw [applyLive, if_pos hs]

theorem applyLive_null (r : ConversionRegistry) {op : Operator} {left right : Operand}
    (hnull : left.value.isNull = true ∨ right.value.isNull = true)
    (hs : ¬ (op = .add ∧ (left.tag = .string ∨ right.tag = .string))) :
    applyLive r op left right = withNull op left.value right.value := by
  have hnull : (left.value.isNull || right.value.isNull) = true := by simpa using hnull
  rw [applyLive, if_neg hs, if_pos hnull]

theorem Fits.string_iff {op : Operator} {tag : Tag} {v : Value} (h : Fits op tag v)
    (hop : op = .add) : liveTag tag v = .string ↔ v.tag = .string := by
  rcases h with h | ⟨rfl, h⟩
  · rw [h]
  · have htag : tag ≠ .string := fun ht => h ⟨hop, ht⟩
    simp [liveTag, Value.isNull, Value.tag, htag]

theorem Fits.liveTag_eq {op : Operator} {tag : Tag} {v : Value} (h : Fits op tag v)
    (hv : v.isNull = false) : liveTag tag v = v.tag := by
  rcases h with h | ⟨rfl, -⟩
  · exact h
  · contradiction

theorem apply_eq_applyOwn (r : ConversionRegistry) {op : Operator} {leftTag rightTag : Tag}
    {left right : Value} (hl : Fits op leftTag left) (hr : Fits op rightTag right) :
    apply r op leftTag left rightTag right = applyOwn r op left right := by
  by_cases hnull : left.isNull = true ∨ right.isNull = true
  · by_cases hs : op = .add ∧ (left.tag = .string ∨ right.tag = .string)
    · have hlive : op = .add ∧
          (liveTag leftTag left = .string ∨ liveTag rightTag right = .string) := by
        rwa [hl.string_iff hs.1, hr.string_iff hs.1]
      have hown : op = .add ∧
          (liveTag left.tag left = .string ∨ liveTag right.tag right = .string) := by
        rwa [liveTag_own, liveTag_own]
      rw [apply, applyOwn, apply, applyLive_string r hlive, applyLive_string r hown]
      rfl
    · have hlive : ¬ (op = .add ∧
          (liveTag leftTag left = .string ∨ liveTag rightTag right = .string)) := by
        rintro ⟨hop, hlive⟩
        rw [hl.string_iff hop, hr.string_iff hop] at hlive
        exact hs ⟨hop, hlive⟩
      have hown : ¬ (op = .add ∧
          (liveTag left.tag left = .string ∨ liveTag right.tag right = .string)) := by
        rwa [liveTag_own, liveTag_own]
      rw [apply, applyOwn, apply, applyLive_null r hnull hlive, applyLive_null r hnull hown]
      rfl
  · simp only [not_or, Bool.not_eq_true] at hnull
    simp only [apply, applyOwn, Operand.live, hl.liveTag_eq hnull.1, hr.liveTag_eq hnull.2,
      liveTag_own]

theorem liveTag_of_below {t : Tag} {v : Value} (hv : v.isNull = false)
    (h : t = .string ∨ v.tag = .boolean ∨ t.below v.tag = true) : liveTag t v = v.tag := by
  have table : ∀ t ∈ Tag.all, ∀ u ∈ Tag.all, t = .string ∨ u = .boolean ∨ t.below u = true →
      (if u = t then t else (Tag.widen t u).getD u) = u := by
    decide +kernel
  have := table t (Tag.mem_all t) v.tag (Tag.mem_all v.tag) h
  simpa [liveTag, hv] using this

/-- The tag that a static type gives an operand fits every value that the type admits. -/
theorem fits_of_admits (op : Operator) {ty : Ty} {v : Value} (h : ty.admits v.tag = true) :
    Fits op ((OperandTag.ofTy ty).resolve v) v := by
  have known {t : Tag} (hs : t = .string → v.isNull = false)
      (ht : v.isNull = false → t = .string ∨ v.tag = .boolean ∨ t.below v.tag = true) :
      Fits op t v := by
    by_cases hv : v.isNull = true
    · obtain rfl : v = .null := by cases v <;> first | rfl | contradiction
      exact .inr ⟨rfl, fun hadd => Bool.noConfusion (hs hadd.2)⟩
    · simp only [Bool.not_eq_true] at hv
      exact .inl (liveTag_of_below hv (ht hv))
  have number {t : Tag} (ht : t ≠ .string)
      (h : (v.tag == .null || v.tag == .boolean || t.below v.tag) = true) : Fits op t v := by
    refine known (fun hs => absurd hs ht) fun hv => ?_
    have hnull : v.tag ≠ .null := by
      rw [Ne, ← Value.isNull_iff_tag, hv]
      decide
    right
    simpa [hnull] using h
  cases ty with
  | primitive k =>
    have hk : (OperandTag.ofTy (.primitive k)).resolve v = .ofPrimitive k := by cases k <;> rfl
    rw [hk]
    exact number (by cases k <;> decide) h
  | boxed k =>
    have hk : (OperandTag.ofTy (.boxed k)).resolve v = .ofPrimitive k := by cases k <;> rfl
    rw [hk]
    exact number (by cases k <;> decide) h
  | bigInteger => exact number (t := .bigInteger) (by decide) h
  | bigDecimal => exact number (t := .bigDecimal) (by decide) h
  | string =>
    refine known (fun _ => ?_) fun _ => .inl rfl
    cases v <;> first | rfl | contradiction
  | any => exact fits_own op v
  | null => exact fits_own op v
  | hostClass c => exact fits_own op v

end Scriptlet.Kernel
