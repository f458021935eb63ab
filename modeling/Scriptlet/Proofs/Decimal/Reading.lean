import Scriptlet.Decimal.Text
import Scriptlet.Proofs.Decimal.Rational
import Scriptlet.Proofs.Text.Integers

/-!
# Reading what was printed

A decimal is read back from its text with the same mantissa and the same scale, since no prefix
of its digits is too large and no place is missing. Only the sign of a zero is lost.
-/
namespace Scriptlet

namespace Text

/-- What `digits` read to on top of what was read before is no less. -/
theorem le_ofDigitChars (digits : List Char) (n : Nat) : n ≤ Nat.ofDigitChars 10 digits n := by
  rw [Nat.ofDigitChars_eq_ofDigitChars_zero]
  have := Nat.le_mul_of_pos_left n (Nat.pow_pos (n := digits.length) (show 0 < 10 by decide))
  omega

theorem isDigit_of_paddedDigits {width n : Nat} {c : Char} (hc : c ∈ paddedDigits width n) :
    c.isDigit = true := by
  rcases List.mem_append.mp hc with zero | digit
  · rw [List.eq_of_mem_replicate zero]
    rfl
  · exact Nat.isDigit_of_mem_toDigits (by decide) (by decide) digit

theorem ofDigitChars_paddedDigits (width n : Nat) :
    Nat.ofDigitChars 10 (paddedDigits width n) 0 = n := by
  rw [paddedDigits, Nat.ofDigitChars_append, Nat.ofDigitChars_replicate_zero, Nat.mul_zero,
    Nat.ofDigitChars_ten_toDigits]

theorem le_length_paddedDigits (width n : Nat) : width ≤ (paddedDigits width n).length := by
  rw [paddedDigits, List.length_append, List.length_replicate]
  omega

/-- A number in positional notation: digits, and a point before the last places of them. -/
inductive Placed (places n : Nat) : List Char → Prop
  | whole {digits : List Char} (present : digits ≠ [])
      (digit : ∀ c ∈ digits, c.isDigit = true) (value : Nat.ofDigitChars 10 digits 0 = n)
      (none : places = 0) : Placed places n digits
  | pointed {whole fraction : List Char} (present : whole ≠ [])
      (digit : ∀ c ∈ whole ++ fraction, c.isDigit = true)
      (value : Nat.ofDigitChars 10 (whole ++ fraction) 0 = n)
      (length : fraction.length = places) (some : places ≠ 0) :
      Placed places n (whole ++ '.' :: fraction)

theorem placed_positional (places n : Nat) : Placed places n (positional places n) := by
  unfold positional
  split
  · rename_i none
    exact .whole Nat.toDigits_ne_nil
      (fun _ hc => Nat.isDigit_of_mem_toDigits (by decide) (by decide) hc)
      Nat.ofDigitChars_ten_toDigits none
  · rename_i some
    have long := le_length_paddedDigits (places + 1) n
    refine .pointed ?_ ?_ ?_ ?_ some
    · rw [← List.length_pos_iff, List.length_take]
      omega
    · rw [List.take_append_drop]
      exact fun _ => isDigit_of_paddedDigits
    · rw [List.take_append_drop, ofDigitChars_paddedDigits]
    · rw [List.length_drop]
      omega

/-- A number in positional notation starts and ends with a digit. -/
theorem Placed.ends {places n : Nat} {text : List Char} (h : Placed places n text) :
    text ≠ [] ∧ (∀ c ∈ text.head?, c.isDigit = true) ∧ ∀ c ∈ text.getLast?, c.isDigit = true := by
  cases h with
  | whole present digit =>
    exact ⟨present, fun c hc => digit c (List.mem_of_head? hc),
      fun c hc => digit c (List.mem_of_getLast? hc)⟩
  | @pointed whole fraction present digit value length some =>
    have last : fraction ≠ [] := by
      rintro rfl
      exact some length.symm
    refine ⟨by simp, fun c hc => ?_, fun c hc => ?_⟩
    · rw [List.head?_append_of_ne_nil _ present] at hc
      exact digit c (List.mem_append_left _ (List.mem_of_head? hc))
    · rw [List.getLast?_append_of_ne_nil _ (by simp), List.getLast?_cons_of_ne_nil last] at hc
      exact digit c (List.mem_append_right _ (List.mem_of_getLast? hc))

end Text

namespace Decimal

variable {mantissa scale : Nat} {point seen : Bool} {rest : List Char}

theorem readDigits?_nil :
    readDigits? mantissa scale point true [] = some ⟨mantissa, scale, []⟩ := rfl

theorem readDigits?_point : readDigits? mantissa scale false seen ('.' :: rest) =
    readDigits? mantissa scale true seen rest := by
  cases rest <;> rfl

/-- A digit that fits is appended. -/
theorem readDigits?_digit {c : Char} (digit : c.isDigit = true)
    (fits : 10 * mantissa + (c.toNat - '0'.toNat) < capacity)
    (room : point = true → scale + 1 + rest.length ≤ maxScale) :
    readDigits? mantissa scale point seen (c :: rest) =
      readDigits? (10 * mantissa + (c.toNat - '0'.toNat)) (if point then scale + 1 else scale)
        point true rest := by
  have fits := Nat.not_le.mpr fits
  rw [Nat.mul_comm] at fits ⊢
  -- The definition is opened by `change`: its equations would compute with `2 ^ 96`.
  cases rest with
  | nil =>
    change ite (c.isDigit = true) (ite (capacity ≤ _) _ _) _ = _
    rw [if_pos digit, if_neg fits]
    rfl
  | cons next after =>
    have places : ¬ (point && decide (maxScale ≤ if point then scale + 1 else scale) &&
        !isExponentMark next) = true := by
      cases point with
      | false => simp
      | true =>
        have := room rfl
        rw [List.length_cons] at this
        simp only [if_true, Bool.true_and, Bool.and_eq_true, decide_eq_true_eq]
        omega
    change ite (c.isDigit = true) (ite (capacity ≤ _) _ (ite (_ = true) _ _)) _ = _
    rw [if_pos digit, if_neg fits, if_neg places]

/-- Digits are appended one by one as long as they fit. -/
theorem readDigits?_digits (mantissa scale : Nat) (point seen : Bool) (rest : List Char)
    {digits : List Char} (digit : ∀ c ∈ digits, c.isDigit = true)
    (fits : Nat.ofDigitChars 10 digits mantissa < capacity)
    (room : point = true → scale + digits.length + rest.length ≤ maxScale) :
    readDigits? mantissa scale point seen (digits ++ rest) =
      readDigits? (Nat.ofDigitChars 10 digits mantissa)
        (if point then scale + digits.length else scale) point (seen || !digits.isEmpty) rest := by
  induction digits generalizing mantissa scale seen with
  | nil => simp [Nat.ofDigitChars_nil]
  | cons c digits ih =>
    rw [List.forall_mem_cons] at digit
    rw [Nat.ofDigitChars_cons] at fits ⊢
    have first := Nat.lt_of_le_of_lt (Text.le_ofDigitChars digits _) fits
    rw [List.cons_append, readDigits?_digit digit.1 first ?_, ih _ _ _ digit.2 fits ?_]
    · cases point <;> simp [Nat.add_assoc, Nat.add_comm 1]
    · rintro rfl
      have := room rfl
      rw [List.length_cons] at this
      simp only [if_true]
      omega
    · intro h
      have := room h
      rw [List.length_cons] at this
      rw [List.length_append]
      omega

theorem readDigits?_placed {places n : Nat} {text : List Char} (h : Text.Placed places n text)
    (hn : n < capacity) (hp : places ≤ maxScale) :
    readDigits? 0 0 false false text = some ⟨n, places, []⟩ := by
  cases h with
  | whole present digit value none =>
    have run := readDigits?_digits 0 0 false false [] digit (by rwa [value]) nofun
    rw [List.append_nil, value] at run
    rw [run, none, List.isEmpty_eq_false_iff.mpr present]
    exact readDigits?_nil
  | @pointed whole fraction present digit value length some =>
    rw [Nat.ofDigitChars_append] at value
    have within := Text.le_ofDigitChars fraction (Nat.ofDigitChars 10 whole 0)
    have before := readDigits?_digits 0 0 false false ('.' :: fraction)
      (fun c hc => digit c (List.mem_append_left _ hc)) (by omega) nofun
    have after := readDigits?_digits (Nat.ofDigitChars 10 whole 0) 0 true true []
      (fun c hc => digit c (List.mem_append_right _ hc)) (by rwa [value])
      (by simpa [length] using hp)
    rw [List.append_nil, value, length] at after
    rw [before, List.isEmpty_eq_false_iff.mpr present]
    refine readDigits?_point.trans (after.trans ?_)
    rw [if_pos rfl, Nat.zero_add, Bool.true_or]
    exact readDigits?_nil

/-- The text of a decimal has no blanks at its ends. -/
theorem trim_text (d : Decimal) : Text.trim d.text = d.text := by
  obtain ⟨present, first, last⟩ := (Text.placed_positional d.scale d.mantissa).ends
  unfold text Text.signed
  cases d.negative with
  | false =>
    exact Text.trim_eq_self (fun c hc => Text.not_blank_of_isDigit (first c hc))
      (fun c hc => Text.not_blank_of_isDigit (last c hc)) present
  | true =>
    refine Text.trim_eq_self (fun c hc => ?_) (fun c hc => ?_) (List.cons_ne_nil _ _)
    · obtain rfl := Option.some.inj hc
      rfl
    · rw [if_pos rfl, List.getLast?_cons_of_ne_nil present] at hc
      exact Text.not_blank_of_isDigit (last c hc)

theorem readSigned?_positional (d : Decimal) : readSigned? d.negative
    (Text.positional d.scale d.mantissa) = ofParts? d.negative d.mantissa d.scale := by
  rw [readSigned?, readDigits?_placed (Text.placed_positional _ _) d.mantissa_lt d.scale_le]
  cases h : ofParts? d.negative d.mantissa d.scale <;> simp [h, withExponent?]

/-- A decimal is read back as it is, apart from the sign of a zero. -/
theorem read?_text (d : Decimal) : read? d.text = ofParts? d.negative d.mantissa d.scale := by
  rw [← readSigned?_positional]
  unfold text Text.signed
  cases hneg : d.negative with
  | true => rfl
  | false =>
    obtain ⟨-, first, -⟩ := (Text.placed_positional d.scale d.mantissa).ends
    unfold read?
    split <;> rename_i h
    · rw [if_neg (by simp)] at h
      rw [h] at first
      cases first _ rfl
    · rw [if_neg (by simp)] at h
      rw [h] at first
      cases first _ rfl
    · rfl

/-- The parts of a decimal make a decimal of the same value. -/
theorem toRat_ofParts (d : Decimal) :
    ∃ d', ofParts? d.negative d.mantissa d.scale = some d' ∧ d'.toRat = d.toRat := by
  refine ⟨_, dif_pos ⟨d.mantissa_lt, d.scale_le⟩, ?_⟩
  have value : (if (d.negative && d.mantissa != 0) = true then -(d.mantissa : ℤ) else d.mantissa) =
      d.signedMantissa := by
    unfold signedMantissa
    cases d.negative <;> simp
  rw [toRat, toRat, signedMantissa, value]

/-- The text of a decimal spells its value. -/
theorem read?_trim_text (d : Decimal) :
    ∃ d', read? (Text.trim d.text) = some d' ∧ d'.toRat = d.toRat := by
  rw [trim_text, read?_text]
  exact d.toRat_ofParts

end Decimal

end Scriptlet
