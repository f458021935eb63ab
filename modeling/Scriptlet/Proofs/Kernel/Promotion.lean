import Scriptlet.Proofs.Kernel.Faults
import Scriptlet.Proofs.Kernel.Wrapping

/-!
# Promotion of machine integers

Machine integers meet in the kind that their tags and their own kinds are promoted to. The
operation yields a value of that kind, and it is the exact result as far as the kind holds it.
-/
namespace Scriptlet

namespace Tag

/-- The kinds of machine integers; a character counts as its code point. -/
def isMachine : Tag → Bool
  | .char | .byte | .short | .int | .long => true
  | _ => false

/-- The bits of a machine integer; a character has those of an `int`. -/
def width : Tag → Nat
  | .byte => 8
  | .short => 16
  | .long => 64
  | _ => 32

theorem width_le (t : Tag) : t.width ≤ 64 := by
  cases t <;> decide

/-- The tags of machine integers. -/
def machine : List Tag := [.char, .byte, .short, .int, .long]

theorem mem_machine {t : Tag} (h : t.isMachine = true) : t ∈ machine := by
  cases t <;> first | contradiction | simp [machine]

theorem integral_of_machine {t : Tag} (h : t.isMachine = true) :
    t.isIntegral = true ∧ t ≠ .bigInteger := by
  cases t <;> first | contradiction | exact ⟨rfl, by decide⟩

end Tag

namespace Kernel

/-- A value that stands for the integer, with its tag: both are those of machine integers, and
they need not be the same. -/
structure MachineInteger (tag : Tag) (v : Value) (n : Int) : Prop where
  tag : tag.isMachine = true
  kind : v.tag.isMachine = true
  reads : v.toInt? = some n

/-- The kind in which machine integers meet: arithmetic widens both tags and the kinds of both
values, and a bitwise operation is on `long` if one of them is. -/
def promotedKind (op : Operator) (leftTag leftKind rightTag rightKind : Tag) : Tag :=
  if op.isArithmetic then
    .widenNumeric (.widenNumeric leftTag leftKind) (.widenNumeric rightTag rightKind)
  else if .long ∈ [leftTag, leftKind, rightTag, rightKind] then .long
  else .int

/-- The result is a value of the kind which holds the low bits of the integer. -/
def Holds (kind : Tag) (z : Int) (result : Result) : Prop :=
  ∃ w, result = .ok w ∧ w.tag = kind ∧ w.toInt? = some (z.bmod (2 ^ kind.width))

/-- An operation on `m` and `n` as machine integers of the kind is the exact one, reduced to the
bits of the kind. -/
structure Reduced (op : Operator) (kind : Tag) (m n : Int) (exact machine : Result) : Prop where
  left : m.bmod (2 ^ kind.width) = m
  right : n.bmod (2 ^ kind.width) = n
  result : ∀ x, exact = .ok x → Machine.InWidth op kind.width n →
    ∃ z, x = .bigInteger z ∧ Holds kind z machine
  divisionByZero : machine = .error .divisionByZero ↔ exact = .error .divisionByZero

/-! ## Kinds -/

variable {tag leftTag rightTag : Tag} {v left right : Value} {m n : Int}

theorem liveTag_machine (ht : tag.isMachine = true) (hv : v.tag.isMachine = true) :
    liveTag tag v = if v.tag = tag then tag else .widenNumeric tag v.tag := by
  have hnull : v.isNull = false := by cases v <;> first | contradiction | rfl
  have table : ∀ t ∈ Tag.machine, ∀ u ∈ Tag.machine,
      (Tag.widen t u).getD u = Tag.widenNumeric t u := by
    decide +kernel
  simp only [liveTag, hnull, Bool.false_eq_true, or_false,
    table tag (Tag.mem_machine ht) v.tag (Tag.mem_machine hv)]

theorem live_isMachine (h : MachineInteger tag v n) : (liveTag tag v).isMachine = true := by
  have table : ∀ t ∈ Tag.machine, ∀ u ∈ Tag.machine,
      (if u = t then t else Tag.widenNumeric t u).isMachine = true := by
    decide +kernel
  rw [liveTag_machine h.tag h.kind]
  exact table tag (Tag.mem_machine h.tag) v.tag (Tag.mem_machine h.kind)

theorem live_long (h : MachineInteger tag v n) :
    liveTag tag v = .long ↔ tag = .long ∨ v.tag = .long := by
  have table : ∀ t ∈ Tag.machine, ∀ u ∈ Tag.machine,
      (if u = t then t else Tag.widenNumeric t u) = .long ↔ t = .long ∨ u = .long := by
    decide +kernel
  rw [liveTag_machine h.tag h.kind]
  exact table tag (Tag.mem_machine h.tag) v.tag (Tag.mem_machine h.kind)

theorem widen_live {op : Operator} (ha : op.isArithmetic = true)
    (hl : MachineInteger leftTag left m) (hr : MachineInteger rightTag right n) :
    Tag.widen (liveTag leftTag left) (liveTag rightTag right) =
      some (promotedKind op leftTag left.tag rightTag right.tag) := by
  have table : ∀ t ∈ Tag.machine, ∀ u ∈ Tag.machine, ∀ t' ∈ Tag.machine, ∀ u' ∈ Tag.machine,
      Tag.widen (if u = t then t else .widenNumeric t u)
        (if u' = t' then t' else .widenNumeric t' u') =
        some (.widenNumeric (.widenNumeric t u) (.widenNumeric t' u')) := by
    decide +kernel
  rw [liveTag_machine hl.tag hl.kind, liveTag_machine hr.tag hr.kind, promotedKind, if_pos ha]
  exact table _ (Tag.mem_machine hl.tag) _ (Tag.mem_machine hl.kind) _ (Tag.mem_machine hr.tag) _
    (Tag.mem_machine hr.kind)

/-- An operation promotes to one of four kinds, neither of them narrower than a kind of its
operands. -/
theorem promotedKind_wide (op : Operator) (hl : MachineInteger leftTag left m)
    (hr : MachineInteger rightTag right n) :
    let kind := promotedKind op leftTag left.tag rightTag right.tag
    kind ∈ [Tag.byte, .short, .int, .long] ∧ left.tag.width ≤ kind.width ∧
      right.tag.width ≤ kind.width := by
  have arithmetic : ∀ t ∈ Tag.machine, ∀ u ∈ Tag.machine, ∀ t' ∈ Tag.machine,
      ∀ u' ∈ Tag.machine,
      Tag.widenNumeric (.widenNumeric t u) (.widenNumeric t' u') ∈
        [Tag.byte, .short, .int, .long] ∧
      u.width ≤ (Tag.widenNumeric (.widenNumeric t u) (.widenNumeric t' u')).width ∧
      u'.width ≤ (Tag.widenNumeric (.widenNumeric t u) (.widenNumeric t' u')).width := by
    decide +kernel
  have bitwise : ∀ t ∈ Tag.machine, ∀ u ∈ Tag.machine, ∀ t' ∈ Tag.machine, ∀ u' ∈ Tag.machine,
      let kind : Tag := if .long ∈ [t, u, t', u'] then .long else .int
      kind ∈ [Tag.byte, .short, .int, .long] ∧ u.width ≤ kind.width ∧ u'.width ≤ kind.width := by
    decide +kernel
  have ht := Tag.mem_machine hl.tag
  have hu := Tag.mem_machine hl.kind
  have ht' := Tag.mem_machine hr.tag
  have hu' := Tag.mem_machine hr.kind
  unfold promotedKind
  split
  · exact arithmetic _ ht _ hu _ ht' _ hu'
  · exact bitwise _ ht _ hu _ ht' _ hu'

theorem bmod_of_wider {narrow wide : Nat} (hle : narrow ≤ wide)
    (h : n.bmod (2 ^ narrow) = n) : n.bmod (2 ^ wide) = n := by
  have hpow : 2 ^ narrow ≤ 2 ^ wide := Nat.pow_le_pow_right (by decide) hle
  have hlow : -(((2 ^ narrow : Nat) : Int) / 2) ≤ n.bmod (2 ^ narrow) :=
    Int.le_bmod (by exact_mod_cast Nat.two_pow_pos narrow)
  have hhigh : n.bmod (2 ^ narrow) < (((2 ^ narrow : Nat) : Int) + 1) / 2 :=
    Int.bmod_lt (by exact_mod_cast Nat.two_pow_pos narrow)
  rw [h] at hlow hhigh
  exact Int.bmod_eq_of_le (by omega) (by omega)

theorem MachineInteger.bmod_kind (h : MachineInteger tag v n) :
    n.bmod (2 ^ v.tag.width) = n := by
  obtain ⟨-, hv, hn⟩ := h
  cases v with
  | char c =>
    obtain rfl := Option.some.inj hn
    rw [← Conversion.toInt64_codePoint, Int32.toInt_toInt64]
    exact BitVec.toInt_bmod_cancel (Int32.ofNat c.toNat).toBitVec
  | byte b =>
    obtain rfl := Option.some.inj hn
    rw [Int8.toInt_toInt64]
    exact BitVec.toInt_bmod_cancel b.toBitVec
  | short s =>
    obtain rfl := Option.some.inj hn
    rw [Int16.toInt_toInt64]
    exact BitVec.toInt_bmod_cancel s.toBitVec
  | int i =>
    obtain rfl := Option.some.inj hn
    rw [Int32.toInt_toInt64]
    exact BitVec.toInt_bmod_cancel i.toBitVec
  | long l =>
    obtain rfl := Option.some.inj hn
    exact BitVec.toInt_bmod_cancel l.toBitVec
  | _ => contradiction

/-! ## Operations -/

/-- A machine integer as 64 bits. -/
theorem MachineInteger.word (h : MachineInteger tag v n) :
    ∃ w : Int64, v.toInt64? = some w ∧ w.toInt = n :=
  have ⟨hi, hb⟩ := Tag.integral_of_machine h.kind
  ⟨_, toInt64?_of_machine hi hb h.reads⟩

theorem applyLive_numeric (r : ConversionRegistry) {op : Operator} {left right : Operand}
    (hop : op.isArithmetic = true ∨ op.isBitwise = true)
    (hl : left.tag.isNumeric = true) (hr : right.tag.isNumeric = true)
    (hleft : left.value.isNull = false) (hright : right.value.isNull = false) :
    applyLive r op left right = numeric op left right := by
  have hls := (ne_of_numeric hl).2.1
  have hrs := (ne_of_numeric hr).2.1
  have read : spellOut r left right = .ok (left, right) := by
    simp only [spellOut, hls, hrs, false_and, if_false]
  have present : applyLive r op left right = applyPresent r op left right := by
    simp only [applyLive, hls, hrs, or_self, and_false, if_false, hleft, hright, Bool.or_self,
      Bool.false_eq_true]
  rw [present]
  cases op
  case lt | gt | le | ge | eq | neq | and | or => rcases hop with hop | hop <;> contradiction
  all_goals simp only [applyPresent, read]

theorem apply_machine (r : ConversionRegistry) {op : Operator}
    (hop : op.isArithmetic = true ∨ op.isBitwise = true)
    (hl : MachineInteger leftTag left m) (hr : MachineInteger rightTag right n) :
    apply r op leftTag left rightTag right =
      numeric op (.live leftTag left) (.live rightTag right) := by
  have number {t : Tag} (h : t.isMachine = true) : t.isNumeric = true :=
    numeric_of_integral (Tag.integral_of_machine h).1
  have present {v : Value} (h : v.tag.isMachine = true) : v.isNull = false :=
    not_null_of_tag (ne_of_numeric (number h)).1
  exact applyLive_numeric r hop (number (live_isMachine hl)) (number (live_isMachine hr))
    (present hl.kind) (present hr.kind)

theorem applyOwn_big (r : ConversionRegistry) {op : Operator}
    (hop : op.isArithmetic = true ∨ op.isBitwise = true) (m n : Int) :
    applyOwn r op (.bigInteger m) (.bigInteger n) =
      numeric op (.own (.bigInteger m)) (.own (.bigInteger n)) := by
  rw [applyOwn, apply, Operand.live, Operand.live, liveTag_own, liveTag_own]
  exact applyLive_numeric r hop rfl rfl rfl rfl

theorem ofInt64_kind {kind : Tag} (h : kind ∈ [Tag.byte, .short, .int, .long]) (w : Int64) :
    (ofInt64 kind w).tag = kind ∧
      (ofInt64 kind w).toInt? = some (w.toInt.bmod (2 ^ kind.width)) := by
  simp only [List.mem_cons, List.not_mem_nil, or_false] at h
  rcases h with rfl | rfl | rfl | rfl <;>
    simp [ofInt64, Value.tag, Value.toInt?, Value.toInt64?, Tag.width]

theorem arithmetic_machine {op : Operator} {l v : Int64} (ha : op.isArithmetic = true)
    (hl : MachineInteger leftTag left m) (hr : MachineInteger rightTag right n)
    (hleft : left.toInt64? = some l) (hright : right.toInt64? = some v) :
    arithmetic op (.live leftTag left) (.live rightTag right) =
      ((Machine.arithmetic? op l v).map
        (·.map (ofInt64 (promotedKind op leftTag left.tag rightTag right.tag)))).getD
        (.error (incompatible op (.live leftTag left) (.live rightTag right))) := by
  obtain ⟨hkind, -⟩ := promotedKind_wide op hl hr
  simp only [arithmetic, Operand.live, widen_live ha hl hr]
  generalize promotedKind op leftTag left.tag rightTag right.tag = kind at hkind
  simp only [List.mem_cons, List.not_mem_nil, or_false] at hkind
  rcases hkind with rfl | rfl | rfl | rfl <;>
    simp [promotedArithmetic?, both, hleft, hright]

theorem arithmetic_big (op : Operator) (m n : Int) :
    arithmetic op (.own (.bigInteger m)) (.own (.bigInteger n)) =
      ((Big.arithmetic? op m n).map (·.map .bigInteger)).getD
        (.error (incompatible op (.own (.bigInteger m)) (.own (.bigInteger n)))) := rfl

theorem bitwise_big (op : Operator) (m n : Int) :
    bitwise op (.own (.bigInteger m)) (.own (.bigInteger n)) =
      ((Big.bitwise? op m n).map (·.map .bigInteger)).getD
        (.error (incompatible op (.own (.bigInteger m)) (.own (.bigInteger n)))) := rfl

theorem big_ok {result : Option (Except RuntimeError Int)} {e : RuntimeError} {x : Value}
    (h : (result.map (·.map .bigInteger)).getD (.error e) = .ok x) :
    ∃ z, result = some (.ok z) ∧ x = .bigInteger z := by
  obtain ⟨y, hy, h⟩ := Option.map_eq_some_iff.mp (ok_of_getD h)
  obtain ⟨z, hz, h⟩ := map_eq_ok h
  exact ⟨z, by rw [hy, hz], h.symm⟩

/-- What arithmetic on big integers yields, machine integers yield reduced to their kind. -/
theorem arithmetic_reduced {op : Operator} {x : Value} (ha : op.isArithmetic = true)
    (hl : MachineInteger leftTag left m) (hr : MachineInteger rightTag right n)
    (h : arithmetic op (.own (.bigInteger m)) (.own (.bigInteger n)) = .ok x) :
    ∃ z, x = .bigInteger z ∧ Holds (promotedKind op leftTag left.tag rightTag right.tag) z
      (arithmetic op (.live leftTag left) (.live rightTag right)) := by
  obtain ⟨l, hleft, rfl⟩ := hl.word
  obtain ⟨v, hright, rfl⟩ := hr.word
  obtain ⟨hkind, -⟩ := promotedKind_wide op hl hr
  rw [arithmetic_big] at h
  obtain ⟨z, hz, rfl⟩ := big_ok h
  obtain ⟨w, hw, hwrap⟩ := Machine.arithmetic_wraps hz
  refine ⟨z, rfl, ofInt64 (promotedKind op leftTag left.tag rightTag right.tag) w, ?_, ?_, ?_⟩
  · rw [arithmetic_machine ha hl hr hleft hright, hw]
    rfl
  · exact (ofInt64_kind hkind w).1
  · have hdvd : 2 ^ (promotedKind op leftTag left.tag rightTag right.tag).width ∣ 2 ^ 64 :=
      Nat.pow_dvd_pow 2 (Tag.width_le _)
    rw [(ofInt64_kind hkind w).2, hwrap, Int.bmod_bmod_of_dvd hdvd]

theorem integralBitwise_live (op : Operator) {l v : Int64}
    (hl : MachineInteger leftTag left m) (hr : MachineInteger rightTag right n)
    (hleft : left.toInt64? = some l) (hright : right.toInt64? = some v) :
    integralBitwise? op (.live leftTag left) (.live rightTag right) =
      if .long ∈ [leftTag, left.tag, rightTag, right.tag] then
        (Machine.bitwiseLong? op l v).map fun n => .ok (.long n)
      else (Machine.bitwiseInt? op l.toInt32 v.toInt32).map fun n => .ok (.int n) := by
  have hlb := (Tag.integral_of_machine (live_isMachine hl)).2
  have hrb := (Tag.integral_of_machine (live_isMachine hr)).2
  have hlong : (liveTag leftTag left = .long ∨ liveTag rightTag right = .long) ↔
      .long ∈ [leftTag, left.tag, rightTag, right.tag] := by
    rw [live_long hl, live_long hr]
    simp only [List.mem_cons, List.not_mem_nil, or_false, eq_comm (a := Tag.long), or_assoc]
  simp only [integralBitwise?, Operand.live, hlb, hrb, or_self, if_false, both, hleft, hright,
    Option.map_some, Option.bind_some, hlong]

theorem bitwise_live {op : Operator} {w : Value}
    (hl : MachineInteger leftTag left m) (hr : MachineInteger rightTag right n)
    (h : integralBitwise? op (.live leftTag left) (.live rightTag right) = some (.ok w)) :
    bitwise op (.live leftTag left) (.live rightTag right) = .ok w := by
  obtain ⟨hli, -⟩ := Tag.integral_of_machine (live_isMachine hl)
  obtain ⟨hri, -⟩ := Tag.integral_of_machine (live_isMachine hr)
  have hlb := (ne_of_numeric (numeric_of_integral hli)).2.2.1
  simp only [bitwise, Operand.live, hlb, false_and, if_false, hli, hri, Bool.and_self, if_true]
  rw [Operand.live, Operand.live] at h
  rw [h]
  rfl

/-- What a bitwise operation on big integers yields, machine integers yield reduced to their
kind, if a shift distance is less than its width. -/
theorem bitwise_reduced {op : Operator} {x : Value} (hb : op.isBitwise = true)
    (hl : MachineInteger leftTag left m) (hr : MachineInteger rightTag right n)
    (hshift : Machine.InWidth op (promotedKind op leftTag left.tag rightTag right.tag).width n)
    (h : bitwise op (.own (.bigInteger m)) (.own (.bigInteger n)) = .ok x) :
    ∃ z, x = .bigInteger z ∧ Holds (promotedKind op leftTag left.tag rightTag right.tag) z
      (bitwise op (.live leftTag left) (.live rightTag right)) := by
  obtain ⟨l, hleft, rfl⟩ := hl.word
  obtain ⟨v, hright, rfl⟩ := hr.word
  obtain ⟨-, hlk, hrk⟩ := promotedKind_wide op hl hr
  rw [bitwise_big] at h
  obtain ⟨z, hz, rfl⟩ := big_ok h
  have live := integralBitwise_live op hl hr hleft hright
  by_cases hlong : Tag.long ∈ [leftTag, left.tag, rightTag, right.tag]
  · have hkind : promotedKind op leftTag left.tag rightTag right.tag = .long := by
      rw [promotedKind, Operator.not_arithmetic_of_bitwise hb, if_neg (by decide), if_pos hlong]
    rw [hkind] at hshift ⊢
    obtain ⟨n, hn, hwrap⟩ := Machine.wordBitwise_wraps (x := l.toBitVec) (y := v.toBitVec) hz
    refine ⟨z, rfl, .long (.ofBitVec n), bitwise_live hl hr ?_, rfl, congrArg some hwrap⟩
    rw [live, if_pos hlong, Machine.bitwiseLong_word hshift hn]
    rfl
  · have hkind : promotedKind op leftTag left.tag rightTag right.tag = .int := by
      rw [promotedKind, Operator.not_arithmetic_of_bitwise hb, if_neg (by decide), if_neg hlong]
    rw [hkind] at hshift hlk hrk ⊢
    -- both values fit 32 bits, so that nothing is lost when they are cut to them
    have hl32 : l.toInt32.toInt = l.toInt := by
      rw [Int64.toInt_toInt32]
      exact bmod_of_wider hlk hl.bmod_kind
    have hr32 : v.toInt32.toInt = v.toInt := by
      rw [Int64.toInt_toInt32]
      exact bmod_of_wider hrk hr.bmod_kind
    rw [← hl32, ← hr32] at hz
    rw [← hr32] at hshift
    obtain ⟨n, hn, hwrap⟩ :=
      Machine.wordBitwise_wraps (x := l.toInt32.toBitVec) (y := v.toInt32.toBitVec) hz
    refine ⟨z, rfl, .int (.ofBitVec n), bitwise_live hl hr ?_, rfl, ?_⟩
    · rw [live, if_neg hlong, Machine.bitwiseInt_word hshift hn]
      rfl
    · exact congrArg some ((Int32.toInt_toInt64 _).trans hwrap)

/-! ## The machine kernel and the exact one -/

theorem divisionByZero_iff {α : Type} {result : Option (Except RuntimeError α)} {f : α → Value}
    {op : Operator} {left right : Operand} :
    (result.map (·.map f)).getD (.error (incompatible op left right)) =
      .error .divisionByZero ↔ result = some (.error .divisionByZero) := by
  rcases result with _ | _ | _ <;> simp [incompatible, Except.map]

/-- No bitwise operation divides. -/
theorem bitwise_divides {op : Operator} (hb : op.isBitwise = true) (left right : Operand) :
    bitwise op left right ≠ .error .divisionByZero := by
  intro h
  obtain ⟨divides⟩ := faults_bitwise op left right _ h
  rcases divides with rfl | rfl <;> contradiction

/-- The operators on machine integers are those on big integers modulo two's complement. A
division fails where theirs does, and everything else that yields an integer there yields its low
bits here, in the kind that both tags and both values are promoted to. -/
theorem machine_integers_wrap (r : ConversionRegistry) {op : Operator}
    (hop : op.isArithmetic = true ∨ op.isBitwise = true)
    (hl : MachineInteger leftTag left m) (hr : MachineInteger rightTag right n) :
    Reduced op (promotedKind op leftTag left.tag rightTag right.tag) m n
      (applyOwn r op (.bigInteger m) (.bigInteger n))
      (apply r op leftTag left rightTag right) := by
  obtain ⟨-, hwl, hwr⟩ := promotedKind_wide op hl hr
  have holds_left := bmod_of_wider hwl hl.bmod_kind
  have holds_right := bmod_of_wider hwr hr.bmod_kind
  rw [apply_machine r hop hl hr, applyOwn_big r hop]
  rcases hop with ha | hb
  · have arithmetical (left right : Operand) : numeric op left right = arithmetic op left right := by
      cases op <;> first | contradiction | rfl
    rw [arithmetical, arithmetical]
    refine ⟨holds_left, holds_right, fun x h _ => arithmetic_reduced ha hl hr h, ?_⟩
    obtain ⟨l, hleft, rfl⟩ := hl.word
    obtain ⟨v, hright, rfl⟩ := hr.word
    rw [arithmetic_machine ha hl hr hleft hright, arithmetic_big, divisionByZero_iff,
      divisionByZero_iff, Machine.arithmetic_divisionByZero]
  · have bitwise_op (left right : Operand) : numeric op left right = bitwise op left right := by
      cases op <;> first | contradiction | rfl
    rw [bitwise_op, bitwise_op]
    exact ⟨holds_left, holds_right, fun x h hshift => bitwise_reduced hb hl hr hshift h,
      fun h => absurd h (bitwise_divides hb _ _), fun h => absurd h (bitwise_divides hb _ _)⟩

/-- A `long` under the tag of a `byte`, raised to the power of a character. -/
theorem machine_integers_wrap_power :
    MachineInteger .byte (.long 3) 3 ∧ MachineInteger .char (.char 'd') 100 ∧
      applyOwn .empty .pow (.bigInteger 3) (.bigInteger 100) = .ok (.bigInteger (3 ^ 100)) ∧
      Holds .long (3 ^ 100) (apply .empty .pow .byte (.long 3) .char (.char 'd')) := by
  have hl : MachineInteger .byte (.long 3) 3 := ⟨rfl, rfl, by decide⟩
  have hr : MachineInteger .char (.char 'd') 100 := ⟨rfl, rfl, by decide⟩
  have exact : applyOwn .empty .pow (.bigInteger 3) (.bigInteger 100) =
      .ok (.bigInteger (3 ^ 100)) := rfl
  obtain ⟨z, hz, holds⟩ := (machine_integers_wrap .empty (.inl rfl) hl hr).result _ exact
    (by rintro (h | h) <;> contradiction)
  obtain rfl := Value.bigInteger.inj hz
  exact ⟨hl, hr, exact, holds⟩

end Kernel

end Scriptlet
