import Scriptlet.Proofs.Grammar.Spelling
import Scriptlet.Text.Blank
import Scriptlet.Text.Numeral

/-!
# Integers that a text spells

A text spells an integer if it consists of decimal digits with at most one sign, blanks around
them apart. This is what `readInt?` reads from a trimmed text.
-/
namespace Scriptlet.Text

/-- Decimal digits with at most one sign, and the integer that they denote. -/
inductive Numeral : List Char → Int → Prop
  | bare {digits : List Char} (present : digits ≠ []) (digit : ∀ c ∈ digits, c.isDigit = true) :
    Numeral digits (Nat.ofDigitChars 10 digits 0)
  | plus {digits : List Char} (present : digits ≠ []) (digit : ∀ c ∈ digits, c.isDigit = true) :
    Numeral ('+' :: digits) (Nat.ofDigitChars 10 digits 0)
  | minus {digits : List Char} (present : digits ≠ []) (digit : ∀ c ∈ digits, c.isDigit = true) :
    Numeral ('-' :: digits) (-(Nat.ofDigitChars 10 digits 0 : Int))

/-- The text is that of the integer, with any blanks around it. -/
def Spells (text : List Char) (n : Int) : Prop :=
  ∃ before body after, text = before ++ (body ++ after) ∧ (∀ c ∈ before, isBlank c = true) ∧
    (∀ c ∈ after, isBlank c = true) ∧ Numeral body n

/-! ## Digits and signs -/

variable {text digits body : List Char} {k : Nat} {n : Int}

theorem readDigits?_eq_some : readDigits? digits = some k ↔
    digits ≠ [] ∧ (∀ c ∈ digits, c.isDigit = true) ∧ Nat.ofDigitChars 10 digits 0 = k := by
  simp only [readDigits?, List.isEmpty_iff]
  split
  · simp_all
  · split <;> simp_all

theorem readInt?_minus (digits : List Char) :
    readInt? ('-' :: digits) = (readDigits? digits).map fun k : Nat => -(k : Int) := by
  rw [readInt?]
  cases readDigits? digits <;> rfl

theorem readInt?_plus (digits : List Char) :
    readInt? ('+' :: digits) = (readDigits? digits).map Int.ofNat := by
  rw [readInt?]

theorem readInt?_digits (digit : ∀ c ∈ digits, c.isDigit = true) :
    readInt? digits = (readDigits? digits).map Int.ofNat := by
  unfold readInt?
  split
  · cases digit '-' (List.mem_cons_self ..)
  · cases digit '+' (List.mem_cons_self ..)
  · rfl

theorem numeral_of_readInt? (h : readInt? body = some n) : Numeral body n := by
  have read := h
  unfold readInt? at h
  split at h
  -- the branch of a minus sign casts before it negates, in two maps
  · rw [readInt?_minus] at read
    obtain ⟨k, hk, rfl⟩ := Option.map_eq_some_iff.mp read
    obtain ⟨present, digit, rfl⟩ := readDigits?_eq_some.mp hk
    exact .minus present digit
  · obtain ⟨k, hk, rfl⟩ := Option.map_eq_some_iff.mp h
    obtain ⟨present, digit, rfl⟩ := readDigits?_eq_some.mp hk
    exact .plus present digit
  · obtain ⟨k, hk, rfl⟩ := Option.map_eq_some_iff.mp h
    obtain ⟨present, digit, rfl⟩ := readDigits?_eq_some.mp hk
    exact .bare present digit

theorem Numeral.readInt? (h : Numeral body n) : readInt? body = some n := by
  cases h with
  | bare present digit =>
    rw [readInt?_digits digit, readDigits?_eq_some.mpr ⟨present, digit, rfl⟩]
    rfl
  | plus present digit =>
    rw [readInt?_plus, readDigits?_eq_some.mpr ⟨present, digit, rfl⟩]
    rfl
  | minus present digit =>
    rw [readInt?_minus, readDigits?_eq_some.mpr ⟨present, digit, rfl⟩]
    rfl

/-! ## Blanks -/

theorem not_blank_of_isDigit {c : Char} (h : c.isDigit = true) : isBlank c = false := by
  rw [Grammar.isDigit_iff] at h
  simp only [isBlank, Bool.or_eq_false_iff, decide_eq_false_iff_not, beq_eq_false_iff_ne]
  omega

/-- A text with characters other than blanks at both ends is what is left between blanks. -/
theorem trim_append {before after : List Char} (hb : ∀ c ∈ before, isBlank c = true)
    (ha : ∀ c ∈ after, isBlank c = true) (first : ∀ c ∈ body.head?, isBlank c = false)
    (last : ∀ c ∈ body.getLast?, isBlank c = false) (present : body ≠ []) :
    trim (before ++ (body ++ after)) = body := by
  have start : ∀ c ∈ (body ++ after).head?, isBlank c = false := by
    rw [List.head?_append_of_ne_nil _ present]
    exact first
  have finish : ∀ c ∈ body.reverse.head?, isBlank c = false := by
    rw [List.head?_reverse]
    exact last
  rw [trim, (Grammar.takeWhile_append_stop hb start).2, trimEnd, List.reverse_append,
    (Grammar.takeWhile_append_stop (by simpa using ha) finish).2, List.reverse_reverse]

theorem trim_eq_self (first : ∀ c ∈ body.head?, isBlank c = false)
    (last : ∀ c ∈ body.getLast?, isBlank c = false) (present : body ≠ []) : trim body = body := by
  have bare : trim ([] ++ (body ++ [])) = body :=
    trim_append (by simp) (by simp) first last present
  rwa [List.append_nil, List.nil_append] at bare

/-- What is trimmed off a text are blanks. -/
theorem exists_trim (text : List Char) : ∃ before after, text = before ++ (trim text ++ after) ∧
    (∀ c ∈ before, isBlank c = true) ∧ (∀ c ∈ after, isBlank c = true) := by
  let rest := text.dropWhile isBlank
  refine ⟨text.takeWhile isBlank, (rest.reverse.takeWhile isBlank).reverse, ?_, ?_, ?_⟩
  · rw [trim, trimEnd, ← List.reverse_append, List.takeWhile_append_dropWhile,
      List.reverse_reverse, List.takeWhile_append_dropWhile]
  · exact fun c hc => List.mem_takeWhile_imp hc
  · exact fun c hc => List.mem_takeWhile_imp (List.mem_reverse.mp hc)

theorem Numeral.ends (h : Numeral body n) : body ≠ [] ∧
    (∀ c ∈ body.head?, isBlank c = false) ∧ ∀ c ∈ body.getLast?, isBlank c = false := by
  have ends {digits : List Char} (digit : ∀ c ∈ digits, c.isDigit = true) :
      (∀ c ∈ digits.head?, isBlank c = false) ∧ ∀ c ∈ digits.getLast?, isBlank c = false :=
    ⟨fun c hc => not_blank_of_isDigit (digit c (List.mem_of_head? hc)),
      fun c hc => not_blank_of_isDigit (digit c (List.mem_of_getLast? hc))⟩
  cases h with
  | bare present digit => exact ⟨present, ends digit⟩
  | plus present digit | minus present digit =>
    obtain ⟨-, last⟩ := ends digit
    refine ⟨List.cons_ne_nil _ _, fun c hc => ?_, ?_⟩
    · obtain rfl := Option.some.inj hc
      rfl
    · rwa [List.getLast?_cons_of_ne_nil present]

/-- The integer that a text spells is the one that is read from it without its blanks. -/
theorem readInt?_trim : readInt? (trim text) = some n ↔ Spells text n := by
  constructor
  · intro h
    obtain ⟨before, after, htext, hb, ha⟩ := exists_trim text
    exact ⟨before, trim text, after, htext, hb, ha, numeral_of_readInt? h⟩
  · rintro ⟨before, body, after, rfl, hb, ha, h⟩
    obtain ⟨present, first, last⟩ := h.ends
    rw [trim_append hb ha first last present, h.readInt?]

/-! ## Printed integers -/

theorem numeral_integer (n : Int) : Numeral (integer n) n := by
  have digit : ∀ c ∈ Nat.toDigits 10 n.natAbs, c.isDigit = true := fun _ hc =>
    Nat.isDigit_of_mem_toDigits (by decide) (by decide) hc
  by_cases hn : n < 0
  · have h := Numeral.minus Nat.toDigits_ne_nil digit
    rw [Nat.ofDigitChars_ten_toDigits, show -(n.natAbs : Int) = n by omega] at h
    simpa [integer, signed, hn] using h
  · have h := Numeral.bare Nat.toDigits_ne_nil digit
    rw [Nat.ofDigitChars_ten_toDigits, show (n.natAbs : Int) = n by omega] at h
    simpa [integer, signed, hn] using h

theorem spells_integer (n : Int) : Spells (integer n) n :=
  ⟨[], integer n, [], by simp, by simp, by simp, numeral_integer n⟩

theorem trim_integer (n : Int) : trim (integer n) = integer n := by
  obtain ⟨present, first, last⟩ := (numeral_integer n).ends
  exact trim_eq_self first last present

theorem readSpaced?_digits (digit : ∀ c ∈ digits, c.isDigit = true) :
    readSpaced? digits = readDigits? digits := by
  have unspaced : digits.filter (· ≠ '_') = digits := by
    refine List.filter_eq_self.mpr fun c hc => ?_
    rw [decide_eq_true_eq]
    rintro rfl
    cases digit '_' hc
  unfold readSpaced?
  split
  · cases digit '_' (List.mem_cons_self ..)
  · rw [unspaced]

/-- A numeral without underscores is read as one that may have them. -/
theorem Numeral.readLoose? (h : Numeral body n) : readLoose? body = some n := by
  cases h with
  | bare present digit =>
    unfold Text.readLoose?
    split
    · cases digit '-' (List.mem_cons_self ..)
    · cases digit '-' (List.mem_cons_self ..)
    · cases digit '+' (List.mem_cons_self ..)
    · rw [readSpaced?_digits digit, readDigits?_eq_some.mpr ⟨present, digit, rfl⟩]
      rfl
  | plus present digit =>
    simp only [Text.readLoose?]
    rw [readSpaced?_digits digit, readDigits?_eq_some.mpr ⟨present, digit, rfl⟩]
    rfl
  | @minus digits present digit =>
    unfold Text.readLoose?
    split
    · rename_i h
      obtain ⟨-, rfl⟩ := List.cons.inj h
      cases digit '+' (List.mem_cons_self ..)
    · rename_i h
      obtain ⟨-, rfl⟩ := List.cons.inj h
      rw [readSpaced?_digits digit, readDigits?_eq_some.mpr ⟨present, digit, rfl⟩]
      rfl
    · rename_i h
      cases (List.cons.inj h).1
    · rename_i minus _
      exact absurd rfl (minus _)

end Scriptlet.Text
