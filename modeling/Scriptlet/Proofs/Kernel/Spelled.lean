import Scriptlet.Proofs.Kernel.Promotion
import Scriptlet.Proofs.Kernel.Rational
import Scriptlet.Proofs.Text.Integers

/-!
# Strings beside machine integers

A string that meets a machine integer is read as 64 bits and reduced to the width of that integer.
The comparison is then one of integers: of the integer that the string spells, wherever that width
holds it. A string that spells no 64-bit integer is equal to no machine integer and has no order
beside one.
-/
namespace Scriptlet.Kernel

/-- The string spells an integer of 64 bits. -/
def SpellsLong (s : String) (k : Int) : Prop :=
  Text.Spells s.toList k ∧ -2 ^ 63 ≤ k ∧ k < 2 ^ 63

variable {r : ConversionRegistry} {s : String} {n : Value} {m k : Int} {kind : Tag}

/-! ## Reading the string -/

theorem fitInt64?_eq_some {w : Int64} :
    Value.fitInt64? k = some w ↔ (-2 ^ 63 ≤ k ∧ k < 2 ^ 63) ∧ w.toInt = k := by
  have range : (Int64.minValue.toInt ≤ k ∧ k ≤ Int64.maxValue.toInt) ↔
      -2 ^ 63 ≤ k ∧ k < 2 ^ 63 := by
    rw [show Int64.minValue.toInt = -2 ^ 63 from rfl,
      show Int64.maxValue.toInt = 2 ^ 63 - 1 from rfl]
    omega
  simp only [Value.fitInt64?, range]
  split
  · rename_i h
    have exact : (Int64.ofInt k).toInt = k := Int64.toInt_ofInt_of_le h.1 h.2
    rw [Option.some_inj, ← Int64.toInt_inj, exact]
    exact ⟨fun hw => ⟨h, hw.symm⟩, fun hw => hw.2.symm⟩
  · rename_i h
    exact ⟨fun hw => by contradiction, fun hw => absurd hw.1 h⟩

/-- The 64 bits that a string is read as. -/
def readLong? (s : String) : Option Int64 :=
  (Text.readInt? (Text.trim s.toList)).bind Value.fitInt64?

theorem readLong?_eq_some {w : Int64} : readLong? s = some w ↔ SpellsLong s w.toInt := by
  rw [readLong?, Option.bind_eq_some_iff]
  constructor
  · rintro ⟨k, hread, hfit⟩
    obtain ⟨range, hw⟩ := fitInt64?_eq_some.mp hfit
    rw [hw]
    exact ⟨Text.readInt?_trim.mp hread, range⟩
  · rintro ⟨spells, range⟩
    exact ⟨w.toInt, Text.readInt?_trim.mpr spells, fitInt64?_eq_some.mpr ⟨range, rfl⟩⟩

theorem SpellsLong.read (h : SpellsLong s k) : ∃ w, readLong? s = some w ∧ w.toInt = k := by
  have exact : (Int64.ofInt k).toInt = k := Int64.toInt_ofInt_of_le h.2.1 h.2.2
  exact ⟨_, readLong?_eq_some.mpr (by rwa [exact]), exact⟩

theorem readLong?_eq_none (h : ∀ k, ¬ SpellsLong s k) : readLong? s = none := by
  cases hread : readLong? s with
  | none => rfl
  | some w => exact absurd (readLong?_eq_some.mp hread) (h _)

theorem toNumeric_string {p : Primitive} (hp : Conversion.isFloatingKind p = false)
    (target : Ty) : Conversion.toNumeric (.string s) p target =
      (readLong? s).elim (.error (.invalidLiteral s target))
        fun w => .ok (Conversion.narrow (.integral w) p) := by
  have read : Conversion.spelledNumber? false s.toList = (readLong? s).map .integral := rfl
  rw [Conversion.toNumeric, hp, read]
  cases readLong? s <;> rfl

/-- Conversion to the kind of a machine integer keeps the low bits of what the string spells. -/
theorem convert_string (r : ConversionRegistry) (s : String)
    (hk : kind ∈ [Tag.byte, .short, .int, .long]) :
    r.convert (.string s) kind.toTy =
      (readLong? s).elim (.error (.invalidLiteral s kind.toTy)) fun w => .ok (ofInt64 kind w) := by
  simp only [List.mem_cons, List.not_mem_nil, or_false] at hk
  rcases hk with rfl | rfl | rfl | rfl <;> exact toNumeric_string rfl _

/-! ## Comparing what has been read -/

theorem tag_string (s : String) : (Value.string s).tag ≠ .null := nofun

theorem tag_of_machine (hn : n.tag ∈ [Tag.byte, .short, .int, .long]) :
    n.tag.isIntegral = true ∧ n.tag.isNumeric = true ∧ n.tag.toTy = n.ty := by
  cases n <;> first | exact ⟨rfl, rfl, rfl⟩ | simp [Value.tag] at hn

theorem own_ofInt64 (hk : kind ∈ [Tag.byte, .short, .int, .long]) (w : Int64) :
    (⟨kind, ofInt64 kind w⟩ : Operand) = .own (ofInt64 kind w) := by
  rw [Operand.own, (ofInt64_kind hk w).1]

theorem equals_string (hn : n.tag ∈ [Tag.byte, .short, .int, .long]) (hm : n.toInt? = some m) :
    equals r (.own (.string s)) (.own n) =
      (readLong? s).any fun w => w.toInt.bmod (2 ^ n.tag.width) == m := by
  obtain ⟨hi, hnum, -⟩ := tag_of_machine hn
  rw [equals, if_pos ⟨rfl, isSpelled_of_numeric hnum⟩, convertsTo, convert_string r s hn]
  cases readLong? s with
  | none => rfl
  | some w =>
    obtain ⟨htag, hint⟩ := ofInt64_kind hn w
    change equalsDirect ⟨n.tag, ofInt64 n.tag w⟩ (.own n) = _
    rw [own_ofInt64 hn, equalsDirect_integral (by rwa [htag]) hi hint hm]
    rfl

theorem spellOut_string (hn : n.tag ∈ [Tag.byte, .short, .int, .long]) :
    spellOut r (.own (.string s)) (.own n) =
      (readLong? s).elim (.error (.conversion (.invalidLiteral s n.ty)))
        fun w => .ok (.own (ofInt64 n.tag w), .own n) := by
  obtain ⟨-, hnum, hty⟩ := tag_of_machine hn
  rw [spellOut, if_pos ⟨rfl, hnum⟩, convert_string r s hn, hty]
  cases readLong? s with
  | none => rfl
  | some w => exact congrArg (fun left => Except.ok (left, Operand.own n)) (own_ofInt64 hn w)

theorem compare_compares (a b : Int) : (compare a b).Compares a b := by
  rw [← cmp_eq_compare]
  exact cmp_compares a b

/-- Equality with a string is that of what it spells, reduced to the width of the other side. -/
theorem string_equality (r : ConversionRegistry) (s : String)
    (hn : n.tag ∈ [Tag.byte, .short, .int, .long]) (hm : n.toInt? = some m) :
    Answers (applyOwn r .eq (.string s) n)
      (∃ k, SpellsLong s k ∧ k.bmod (2 ^ n.tag.width) = m) := by
  have hnull := (ne_of_numeric (tag_of_machine hn).2.1).1
  refine ⟨_, applyOwn_eq r (.string s) n, ?_⟩
  rw [same_present r (tag_string s) hnull, equals_string hn hm, Option.any_eq_true]
  constructor
  · rintro ⟨w, hw, hb⟩
    exact ⟨w.toInt, readLong?_eq_some.mp hw, by simpa using hb⟩
  · rintro ⟨k, hk, hb⟩
    obtain ⟨w, hw, rfl⟩ := hk.read
    exact ⟨w, hw, by simpa using hb⟩

theorem string_order (r : ConversionRegistry) {op : Operator} (hop : op.isOrdering = true)
    (hn : n.tag ∈ [Tag.byte, .short, .int, .long]) (hm : n.toInt? = some m)
    (hk : SpellsLong s k) :
    Answers (applyOwn r op (.string s) n) (op.Relates (k.bmod (2 ^ n.tag.width)) m) ∧
      Answers (applyOwn r op n (.string s)) (op.Relates m (k.bmod (2 ^ n.tag.width))) := by
  obtain ⟨hi, hnum, -⟩ := tag_of_machine hn
  have hnull := (ne_of_numeric hnum).1
  obtain ⟨w, hw, rfl⟩ := hk.read
  obtain ⟨htag, hint⟩ := ofInt64_kind hn w
  have hwi : (ofInt64 n.tag w).tag.isIntegral = true := by rwa [htag]
  have hread : spellOut r (.own (.string s)) (.own n) = .ok (.own (ofInt64 n.tag w), .own n) := by
    rw [spellOut_string hn, hw]
    rfl
  have mirrored : spellOut r (.own n) (.own (.string s)) =
      .ok (.own n, .own (ofInt64 n.tag w)) := by
    rw [spellOut_swap, hread]
    rfl
  exact ⟨answers_ordering hop (tag_string s) hnull hread (order?_integral hwi hi hint hm)
      (compare_compares _ _),
    answers_ordering hop hnull (tag_string s) mirrored (order?_integral hi hwi hm hint)
      (compare_compares _ _)⟩

theorem string_unspelled (r : ConversionRegistry) {op : Operator} (hop : op.isOrdering = true)
    (hn : n.tag ∈ [Tag.byte, .short, .int, .long]) (hk : ∀ k, ¬ SpellsLong s k) :
    applyOwn r op (.string s) n = .error (.conversion (.invalidLiteral s n.ty)) ∧
      applyOwn r op n (.string s) = .error (.conversion (.invalidLiteral s n.ty)) := by
  have hnull := (ne_of_numeric (tag_of_machine hn).2.1).1
  have hread : spellOut r (.own (.string s)) (.own n) =
      .error (.conversion (.invalidLiteral s n.ty)) := by
    rw [spellOut_string hn, readLong?_eq_none hk]
    rfl
  constructor
  · rw [applyOwn_ordering r hop (tag_string s) hnull, hread]
    rfl
  · rw [applyOwn_ordering r hop hnull (tag_string s), spellOut_swap, hread]
    rfl

/-- A string beside a byte, short, int or long, on either side, is equal to it if it spells a
64-bit integer whose low bits are those of the number, and is ordered as these low bits are. A
string that spells no 64-bit integer has no order, and the reason is that it does not convert. -/
theorem string_comparisons (r : ConversionRegistry) (s : String)
    (hn : n.tag ∈ [Tag.byte, .short, .int, .long]) (hm : n.toInt? = some m) :
    Answers (applyOwn r .eq (.string s) n)
      (∃ k, SpellsLong s k ∧ k.bmod (2 ^ n.tag.width) = m) ∧
    Answers (applyOwn r .eq n (.string s))
      (∃ k, SpellsLong s k ∧ k.bmod (2 ^ n.tag.width) = m) ∧
    ∀ op : Operator, op.isOrdering = true →
      (∀ k, SpellsLong s k →
        Answers (applyOwn r op (.string s) n) (op.Relates (k.bmod (2 ^ n.tag.width)) m) ∧
        Answers (applyOwn r op n (.string s)) (op.Relates m (k.bmod (2 ^ n.tag.width)))) ∧
      ((∀ k, ¬ SpellsLong s k) →
        applyOwn r op (.string s) n = .error (.conversion (.invalidLiteral s n.ty)) ∧
        applyOwn r op n (.string s) = .error (.conversion (.invalidLiteral s n.ty))) := by
  have equal := string_equality r s hn hm
  refine ⟨equal, ?_, fun op hop => ⟨fun k hk => ?_, fun hk => ?_⟩⟩
  · rwa [applyOwn_eq, same_comm, ← applyOwn_eq]
  · exact string_order r hop hn hm hk
  · exact string_unspelled r hop hn hk

/-- An `int` is compared with what a string of a few digits spells. -/
theorem string_comparisons_int :
    Answers (applyOwn .empty .lt (.string " +5 ") (.int 7)) ((5 : Int) < 7) := by
  have spelled : SpellsLong " +5 " 5 :=
    ⟨Text.readInt?_trim.mp rfl, by decide, by decide⟩
  obtain ⟨-, -, order⟩ := string_comparisons .empty " +5 " (n := .int 7) (by decide) rfl
  exact ((order .lt rfl).1 5 spelled).1

/-- A string past the width of the number wraps, and one past 64 bits has no order. -/
theorem string_comparisons_wrap :
    (applyOwn .empty .eq (.string "4294967297") (.int 1) = .ok (.boolean true) ∧
      ¬ Text.Spells "4294967297".toList 1) ∧
    (Text.Spells "9223372036854775808".toList 9223372036854775808 ∧
      applyOwn .empty .gt (.string "9223372036854775808") (.long 1) =
        .error (.conversion (.invalidLiteral "9223372036854775808" (.boxed .long)))) := by
  refine ⟨⟨rfl, fun h => ?_⟩, Text.readInt?_trim.mp rfl, rfl⟩
  have read : Text.readInt? (Text.trim "4294967297".toList) = some 4294967297 := rfl
  rw [Text.readInt?_trim.mpr h] at read
  contradiction

end Scriptlet.Kernel
