import Scriptlet.Proofs.Decimal.Reading
import Scriptlet.Proofs.Kernel.Spelled

/-!
# Conversions by way of other types

A value is read back from its text. An integer of 64 bits is the same as a `long`, as a big
integer and as a string, so a conversion of it into an integral type may go by way of any of
these: each time its low bits are left.
-/
namespace Scriptlet

namespace Tag

/-- The kinds of machine integers other than characters. -/
abbrev words : List Tag := [.byte, .short, .int, .long]

/-- The kinds of integers. -/
abbrev integers : List Tag := [.byte, .short, .int, .long, .bigInteger]

end Tag

namespace Conversion

/-- A 64-bit integer as a value of an integral type: the low bits that the kind has, and the
whole of it as a big integer. -/
def lowBits (target : Ty) (w : Int64) : Value :=
  match target.kind? with
  | some p => narrow (.integral w) p
  | none => .bigInteger w.toInt

variable {target : Ty} {v : Value} {w : Int64} {p : Primitive}

theorem integral_of_word {t : Tag} (h : t ∈ Tag.words) : t ∈ Tag.integers := by
  revert h
  cases t <;> decide

theorem present_of_integral (hv : v.tag ∈ Tag.integers) : v.isNull = false := by
  cases v <;> first | rfl | simp [Value.tag] at hv

theorem integral_target (ht : Tag.ofTy target ∈ Tag.integers) :
    target = .bigInteger ∨ ∃ p, Tag.ofPrimitive p ∈ Tag.words ∧
      (target = .primitive p ∨ target = .boxed p) := by
  have kind {p : Primitive} (h : Tag.ofPrimitive p ∈ Tag.integers) :
      Tag.ofPrimitive p ∈ Tag.words := by
    revert h
    cases p <;> decide
  cases target with
  | bigInteger => exact .inl rfl
  | primitive p => exact .inr ⟨p, kind ht, .inl rfl⟩
  | boxed p => exact .inr ⟨p, kind ht, .inr rfl⟩
  | _ => simp [Tag.ofTy] at ht

theorem not_floating_of_word (hp : Tag.ofPrimitive p ∈ Tag.words) : isFloatingKind p = false := by
  revert hp
  cases p <;> decide

theorem toPrimitive_of_word (hp : Tag.ofPrimitive p ∈ Tag.words) (v : Value) (target : Ty) :
    toPrimitive v p target = toNumeric v p target := by
  cases p <;> first | rfl | (simp [Tag.ofPrimitive] at hp)

theorem lowBits_kind (ht : target = .primitive p ∨ target = .boxed p) :
    lowBits target w = narrow (.integral w) p := by
  rcases ht with rfl | rfl <;> rfl

/-- The low bits are of the target type, and they are the residue that lies around zero. -/
theorem lowBits_spec (ht : Tag.ofTy target ∈ Tag.integers)
    (w : Int64) : (lowBits target w).tag = Tag.ofTy target ∧
      (lowBits target w).toInt? = some (if target = .bigInteger then w.toInt
        else w.toInt.bmod (2 ^ (Tag.ofTy target).width)) := by
  rcases integral_target ht with rfl | ⟨p, hp, kind⟩
  · exact ⟨rfl, rfl⟩
  · have targeted : Tag.ofTy target = .ofPrimitive p ∧ target ≠ .bigInteger := by
      rcases kind with rfl | rfl <;> exact ⟨rfl, nofun⟩
    rw [lowBits_kind kind, targeted.1, if_neg targeted.2]
    have low : narrow (.integral w) p = Kernel.ofInt64 (.ofPrimitive p) w := by
      cases p <;> first | rfl | (simp [Tag.ofPrimitive] at hp)
    rw [low]
    exact Kernel.ofInt64_kind hp w

/-- A value of an integral kind is the low bits of what it is read as. -/
theorem lowBits_self (hv : v.tag ∈ Tag.words) (hw : v.toInt64? = some w) :
    lowBits v.ty w = v := by
  cases v <;> simp [Value.tag] at hv <;>
    (obtain rfl := Option.some.inj hw; simp [lowBits, Value.ty, Ty.kind?, narrow])

/-- A value that is read as 64 bits keeps the low ones. -/
theorem toNumeric_integral (hp : Tag.ofPrimitive p ∈ Tag.words)
    (hv : v.tag ∈ Tag.integers) (hw : v.toInt64? = some w) :
    toNumeric v p target = .ok (narrow (.integral w) p) := by
  have number : integralNumber? v = some (.integral w) := by
    cases v <;> simp [Value.tag] at hv <;> simp [integralNumber?, hw]
  cases v <;> simp [Value.tag] at hv <;>
    simp only [toNumeric, not_floating_of_word hp, Bool.false_eq_true, if_false, number]

theorem toBigInteger_integral (hv : v.tag ∈ Tag.integers)
    (hw : v.toInt64? = some w) : toBigInteger v target = .ok (.bigInteger w.toInt) := by
  cases v <;> simp [Value.tag] at hv
  case bigInteger n =>
    obtain ⟨-, rfl⟩ := Kernel.fitInt64?_eq_some.mp hw
    rfl
  all_goals simp [toBigInteger, Value.toInt?, hw]

end Conversion

namespace ConversionRegistry

open Conversion (lowBits)

variable (r : ConversionRegistry) {target : Ty} {v : Value} {w : Int64}

/-! ## Routes of an integer -/

/-- The text of a 64-bit integer. -/
def textOf (w : Int64) : Value := .string (.ofList (Text.integer w.toInt))

theorem convert_bigInteger (hv : v.isNull = false) :
    r.convert v .bigInteger = Conversion.toBigInteger v .bigInteger := by
  simp [convert, hv]

theorem convert_word {p : Primitive} (hv : v.isNull = false) (hp : Tag.ofPrimitive p ∈ Tag.words)
    (ht : target = .primitive p ∨ target = .boxed p) :
    r.convert v target = Conversion.toNumeric v p target := by
  rw [← Conversion.toPrimitive_of_word hp]
  rcases ht with rfl | rfl <;> simp [convert, hv]

theorem convert_integral (hv : v.tag ∈ Tag.integers)
    (hw : v.toInt64? = some w) (ht : Tag.ofTy target ∈ Tag.integers) :
    r.convert v target = .ok (lowBits target w) := by
  have present := Conversion.present_of_integral hv
  rcases Conversion.integral_target ht with rfl | ⟨p, hp, kind⟩
  · rw [r.convert_bigInteger present, Conversion.toBigInteger_integral hv hw]
    rfl
  · rw [r.convert_word present hp kind, Conversion.toNumeric_integral hp hv hw,
      Conversion.lowBits_kind kind]

theorem convert_integer_text (n : Int) :
    r.convert (.string (.ofList (Text.integer n))) .bigInteger = .ok (.bigInteger n) := by
  rw [r.convert_bigInteger rfl]
  simp only [Conversion.toBigInteger, String.toList_ofList, Text.trim_integer,
    (Text.numeral_integer n).readLoose?]

/-- The text of an integer is converted as the integer is. -/
theorem convert_textOf (w : Int64) (ht : Tag.ofTy target ∈ Tag.integers) :
    r.convert (textOf w) target = .ok (lowBits target w) := by
  have read : Kernel.readLong? (.ofList (Text.integer w.toInt)) = some w := by
    refine Kernel.readLong?_eq_some.mpr ⟨?_, w.le_toInt, w.toInt_lt⟩
    rw [String.toList_ofList]
    exact Text.spells_integer w.toInt
  rcases Conversion.integral_target ht with rfl | ⟨p, hp, kind⟩
  · rw [textOf, r.convert_integer_text]
    rfl
  · rw [r.convert_word rfl hp kind, textOf,
      Kernel.toNumeric_string (Conversion.not_floating_of_word hp), read,
      Conversion.lowBits_kind kind]
    rfl

theorem convert_word_string (hv : v.tag ∈ Tag.words)
    (hw : v.toInt64? = some w) : r.convert v .string = .ok (textOf w) := by
  have present := Conversion.present_of_integral (Conversion.integral_of_word hv)
  have chars : v.displayChars = Text.integer w.toInt := by
    cases v with
    | byte n =>
      obtain rfl := Option.some.inj hw
      exact congrArg Text.integer (Int8.toInt_toInt64 n).symm
    | short n =>
      obtain rfl := Option.some.inj hw
      exact congrArg Text.integer (Int16.toInt_toInt64 n).symm
    | int n =>
      obtain rfl := Option.some.inj hw
      exact congrArg Text.integer (Int32.toInt_toInt64 n).symm
    | long n =>
      obtain rfl := Option.some.inj hw
      rfl
    | _ => simp [Value.tag] at hv
  simp only [convert, present, Bool.false_eq_true, if_false, Value.display, chars, textOf]

/-- A string, a `long` and a big integer are all the same on the way to an integral type. -/
theorem convert_by_way (hv : v.tag ∈ Tag.words) (hw : v.toInt64? = some w)
    (ht : Tag.ofTy target ∈ Tag.integers) {via : Ty}
    (hvia : via ∈ [Ty.string, .primitive .long, .boxed .long, .bigInteger]) :
    ∃ u, r.convert v via = .ok u ∧ r.convert u target = .ok (lowBits target w) := by
  have integral := Conversion.integral_of_word hv
  have long : r.convert (.long w) target = .ok (lowBits target w) :=
    r.convert_integral (by simp [Value.tag]) rfl ht
  have big : r.convert (.bigInteger w.toInt) target = .ok (lowBits target w) :=
    r.convert_integral (by simp [Value.tag])
      (Kernel.fitInt64?_eq_some.mpr ⟨⟨w.le_toInt, w.toInt_lt⟩, rfl⟩) ht
  simp only [List.mem_cons, List.not_mem_nil, or_false] at hvia
  rcases hvia with rfl | rfl | rfl | rfl
  · exact ⟨_, r.convert_word_string hv hw, r.convert_textOf w ht⟩
  · exact ⟨_, r.convert_integral integral hw (by decide), long⟩
  · exact ⟨_, r.convert_integral integral hw (by decide), long⟩
  · exact ⟨_, r.convert_integral integral hw (by decide), big⟩

/-! ## Values read back -/

theorem exists_word (hv : v.tag ∈ Tag.words) :
    ∃ w, v.toInt64? = some w ∧ v.toInt? = some w.toInt := by
  cases v <;> simp [Value.tag] at hv <;> exact ⟨_, rfl, rfl⟩

/-- A value is read back from its text, a decimal up to its representation. -/
theorem read_back (hv : v.tag ∈ [Tag.boolean, .char, .byte, .short, .int, .long, .bigInteger,
    .bigDecimal]) :
    ∃ text w, r.convert v .string = .ok text ∧ r.convert text v.ty = .ok w ∧
      w.equals v = true ∧ (v.tag ≠ .bigDecimal → w = v) := by
  by_cases hm : v.tag ∈ Tag.words
  · obtain ⟨w, hw, -⟩ := exists_word hm
    have integral : Tag.ofTy v.ty ∈ Tag.integers :=
      v.tag_eq_ofTy ▸ Conversion.integral_of_word hm
    have read := r.convert_textOf w integral
    rw [Conversion.lowBits_self hm hw] at read
    refine ⟨textOf w, v, r.convert_word_string hm hw, read, ?_, fun _ => rfl⟩
    cases v <;> simp [Value.tag] at hm <;> simp [Value.equals]
  · cases v with
    | boolean b => cases b <;> exact ⟨_, _, rfl, rfl, rfl, fun _ => rfl⟩
    | char c =>
      refine ⟨.string (.ofList [c]), .char c, rfl, ?_, by simp [Value.equals], fun _ => rfl⟩
      simp [convert, Value.isNull, Value.ty, Conversion.toPrimitive, Conversion.toChar]
    | bigInteger n =>
      exact ⟨_, _, rfl, r.convert_integer_text n, by simp [Value.equals], fun _ => rfl⟩
    | bigDecimal d =>
      obtain ⟨d', read, value⟩ := d.read?_trim_text
      refine ⟨.string (.ofList d.text), .bigDecimal d', rfl, ?_, ?_, fun h => absurd rfl h⟩
      · simp [convert, Value.isNull, Value.ty, Conversion.toBigDecimal, read]
      · exact (d'.equals_iff d).mpr value
    | _ => simp [Value.tag] at hv hm

/-- Exact conversions lose nothing and do not depend on the route. A value other than a floating
number is read back from its text, and a machine integer becomes the same value of an integral
type by way of a string, of `long` and of a big integer as directly: its low bits in two's
complement, and the number itself as a big integer. -/
theorem exact_conversions :
    (∀ v : Value, v.tag ∈ [Tag.boolean, .char, .byte, .short, .int, .long, .bigInteger,
        .bigDecimal] →
      ∃ text w, r.convert v .string = .ok text ∧ r.convert text v.ty = .ok w ∧
        w.equals v = true ∧ (v.tag ≠ .bigDecimal → w = v)) ∧
    ∀ v : Value, v.tag ∈ Tag.words → ∃ n, v.toInt? = some n ∧
      ∀ target, Tag.ofTy target ∈ Tag.integers →
        ∃ w, r.convert v target = .ok w ∧ w.tag = Tag.ofTy target ∧
          w.toInt? = some (if target = .bigInteger then n
            else n.bmod (2 ^ (Tag.ofTy target).width)) ∧
          ∀ via ∈ [Ty.string, .primitive .long, .boxed .long, .bigInteger],
            ∃ u, r.convert v via = .ok u ∧ r.convert u target = .ok w := by
  refine ⟨fun v => r.read_back, fun v hv => ?_⟩
  obtain ⟨w, hw, hn⟩ := exists_word hv
  have integral := Conversion.integral_of_word hv
  refine ⟨w.toInt, hn, fun target ht => ?_⟩
  obtain ⟨tag, value⟩ := Conversion.lowBits_spec ht w
  exact ⟨lowBits target w, r.convert_integral integral hw ht, tag, value,
    fun via hvia => r.convert_by_way hv hw ht hvia⟩

/-- A `long` that does not fit a `byte` wraps, also by way of its text, and a decimal that is a
negative zero is read back as the zero that it is equal to. -/
theorem exact_conversions_wrap :
    (∃ text w, empty.convert (.bigDecimal (Decimal.zero.neg)) .string = .ok text ∧
      empty.convert text .bigDecimal = .ok w ∧
      w.equals (.bigDecimal (Decimal.zero.neg)) = true) ∧
    ∃ u, empty.convert (.long (-129)) .string = .ok u ∧
      empty.convert u (.primitive .byte) = .ok (.byte 127) := by
  obtain ⟨back, routes⟩ := exact_conversions empty
  obtain ⟨text, w, printed, read, equal, -⟩ := back (.bigDecimal Decimal.zero.neg) (by decide)
  refine ⟨⟨text, w, printed, read, equal⟩, ?_⟩
  obtain ⟨n, -, narrowed⟩ := routes (.long (-129)) (by decide)
  obtain ⟨w, direct, -, -, ways⟩ := narrowed (.primitive .byte) (by decide)
  obtain rfl : Value.byte 127 = w := Except.ok.inj direct
  exact ways .string (by decide)

end ConversionRegistry

end Scriptlet
