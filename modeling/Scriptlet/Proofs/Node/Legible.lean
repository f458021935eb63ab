import Scriptlet.Compile.Expression
import Scriptlet.Node.Render
import Scriptlet.Proofs.Grammar.Spelling

/-!
# Literals that are read as they are rendered

Rendering writes a value, not the literal it came from. Null, truth values, integers without a
sign and strings of plain characters are written so that they are read as the same value.
-/
namespace Scriptlet

/-- The printable characters of ASCII and the controls whose escape is a letter or the digit
zero. -/
def isPlain (c : Char) : Bool :=
  decide (0x20 ≤ c.toNat) && decide (c.toNat ≤ 0x7e) || c == '\n' || c == '\t' || c == '\r' ||
    c == '\x00'

/-- The value is rendered as the leaf. -/
inductive Value.Legible : Value → Grammar.Leaf → Prop
  | null : Legible .null .null
  | boolean (b : Bool) : Legible (.boolean b) (.boolean b)
  | integer {n : Nat} {v : Value} (fits : Literal.ofInt? n = some v) :
    Legible v (.number (Nat.toDigits 10 n))
  | string {s : String} (plain : ∀ c ∈ s.toList, isPlain c = true) :
    Legible (.string s) (.string '"' (s.toList.flatMap Text.Quoted.escape))

/-! ## Integers -/

namespace Literal

theorem readNumber?_digits {digits : List Char} (present : digits ≠ [])
    (digit : ∀ c ∈ digits, c.isDigit = true) :
    readNumber? digits = ofInt? (Nat.ofDigitChars 10 digits 0) := by
  have pointless : digits.contains '.' = false := by
    rw [List.contains_eq_mem, decide_eq_false_iff_not]
    intro h
    cases digit '.' h
  have unsuffixed (c : Char) (hc : c.isDigit = true) : c.isAlpha = false := by
    by_contra h
    rw [Bool.not_eq_false] at h
    have start : Grammar.isNameStart c = true := by simp [Grammar.isNameStart, h]
    have := (Grammar.start_of_isNameStart start).2
    rw [hc] at this
    contradiction
  have read : Text.readInt? digits = some (Nat.ofDigitChars 10 digits 0) := by
    have all : digits.all Char.isDigit = true := List.all_eq_true.mpr digit
    obtain ⟨c, rest, rfl⟩ := List.exists_cons_of_ne_nil present
    have hc := digit c (List.mem_cons_self ..)
    unfold Text.readInt?
    split
    · rename_i heq
      obtain ⟨rfl, -⟩ := List.cons.inj heq
      cases hc
    · rename_i heq
      obtain ⟨rfl, -⟩ := List.cons.inj heq
      cases hc
    · simp [Text.readDigits?, all]
  have last := digit _ (List.getLast_mem present)
  rw [readNumber?, List.getLast?_eq_some_getLast present]
  simp only [unsuffixed _ last, Bool.false_eq_true, if_false]
  rw [readPlain?, pointless, if_neg (by simp), read]
  rfl

theorem renderChars_of_ofInt? {n : Nat} {v : Value} (h : ofInt? n = some v) :
    v.renderChars = Nat.toDigits 10 n := by
  have digits : Text.integer (n : Int) = Nat.toDigits 10 n := by
    have positive : ¬ ((n : Int) < 0) := by omega
    simp [Text.integer, Text.signed, positive]
  rw [ofInt?] at h
  rcases Option.or_eq_some_iff.mp h with h | ⟨-, h⟩
  · obtain ⟨i, hi, rfl⟩ := Option.map_eq_some_iff.mp h
    unfold fitInt32? at hi
    split at hi
    · rename_i bounds
      obtain rfl := Option.some.inj hi
      have upper : (n : Int) < 2 ^ 31 := by
        have : Int32.maxValue.toInt = 2147483647 := by decide
        omega
      rw [Value.renderChars, Value.displayChars, Int32.toInt_ofInt_of_le (by omega) upper, digits]
      all_goals simp
    · contradiction
  · obtain ⟨i, hi, rfl⟩ := Option.map_eq_some_iff.mp h
    unfold Value.fitInt64? at hi
    split at hi
    · rename_i bounds
      obtain rfl := Option.some.inj hi
      have upper : (n : Int) < 2 ^ 63 := by
        have : Int64.maxValue.toInt = 9223372036854775807 := by decide
        omega
      rw [Value.renderChars, Value.displayChars, Int64.toInt_ofInt_of_le (by omega) upper, digits]
      all_goals simp
    · contradiction

end Literal

/-! ## Strings -/

/-- Between quotes the text stands for the character: a backslash and a letter, or the character
itself. -/
def Literal.Shows (quote c : Char) (text : List Char) : Prop :=
  (∃ d, d ≠ 'u' ∧ escaped d = c ∧ text = ['\\', d]) ∨ c ≠ quote ∧ c ≠ '\\' ∧ text = [c]

section

variable {quote : Char} {escape : Char → List Char} {text : List Char}

theorem quoted?_flatMap (hquote : quote ≠ '\\')
    (shows : ∀ c ∈ text, Literal.Shows quote c (escape c)) (rest : List Char) :
    Source.quoted? quote (text.flatMap escape ++ quote :: rest) =
      some (text.flatMap escape, rest) := by
  induction text with
  | nil =>
    rw [List.flatMap_nil, List.nil_append,
      Source.quoted?.eq_3 _ _ _ (fun _ _ hc => absurd hc hquote), if_pos rfl]
  | cons c text ih =>
    obtain ⟨first, later⟩ := List.forall_mem_cons.mp shows
    rw [List.flatMap_cons, List.append_assoc]
    rcases first with ⟨d, -, -, escape⟩ | ⟨quoteless, slashless, escape⟩
    · rw [escape]
      simp [Source.quoted?, ih later]
    · rw [escape, List.singleton_append,
        Source.quoted?.eq_3 _ _ _ (fun _ _ hc => absurd hc slashless), if_neg quoteless, ih later]
      rfl

theorem unescape_flatMap (shows : ∀ c ∈ text, Literal.Shows quote c (escape c)) :
    Literal.unescape (text.flatMap escape) = .ok text := by
  induction text with
  | nil => simp [Literal.unescape]
  | cons c text ih =>
    obtain ⟨first, later⟩ := List.forall_mem_cons.mp shows
    rw [List.flatMap_cons]
    rcases first with ⟨d, other, escaped, escape⟩ | ⟨-, slashless, escape⟩
    · rw [escape]
      simp [Literal.unescape, ih later, escaped, Except.map]
    · rw [escape]
      simp [Literal.unescape, ih later, slashless, Except.map]

end

/-- A plain character is escaped with a character that stands for it, or stands for itself. -/
theorem shows_escape {c : Char} (h : isPlain c = true) :
    Literal.Shows '"' c (Text.Quoted.escape c) := by
  by_cases quote : c = '"'
  · exact .inl ⟨'"', by decide, by rw [quote]; rfl, by rw [quote]; rfl⟩
  by_cases slash : c = '\\'
  · exact .inl ⟨'\\', by decide, by rw [slash]; rfl, by rw [slash]; rfl⟩
  by_cases newline : c = '\n'
  · exact .inl ⟨'n', by decide, by rw [newline]; rfl, by rw [newline]; rfl⟩
  by_cases tab : c = '\t'
  · exact .inl ⟨'t', by decide, by rw [tab]; rfl, by rw [tab]; rfl⟩
  by_cases ret : c = '\r'
  · exact .inl ⟨'r', by decide, by rw [ret]; rfl, by rw [ret]; rfl⟩
  by_cases nul : c = '\x00'
  · exact .inl ⟨'0', by decide, by rw [nul]; rfl, by rw [nul]; rfl⟩
  have printable : Text.isPrintable c = true := by
    simp only [isPlain, newline, tab, ret, nul, beq_iff_eq, Bool.or_eq_true, Bool.and_eq_true,
      decide_eq_true_eq, or_false] at h
    rw [Text.isPrintable, if_pos (by omega), decide_eq_true h.1]
  exact .inr ⟨quote, slash, by
    simp [Text.Quoted.escape, quote, slash, newline, tab, ret, nul, printable]⟩

/-! ## Legible values -/

namespace Value

variable {v : Value} {l : Grammar.Leaf}

theorem isDigit_of_toDigits (n : Nat) : ∀ c ∈ Nat.toDigits 10 n, c.isDigit = true :=
  fun _ hc => Nat.isDigit_of_mem_toDigits (by decide) (by decide) hc

theorem Legible.spelled (h : v.Legible l) : Grammar.Token.Spelled (.leaf l) v.renderChars := by
  have word (c : Char) (rest : List Char) (start : Grammar.isNameStart c = true)
      (name : rest.all Grammar.isNameChar = true) :
      Grammar.Token.Spelled (Grammar.wordToken (c :: rest)) (c :: rest) :=
    .word start (List.all_eq_true.mp name)
  cases h with
  | null => exact word 'n' "ull".toList (by decide) (by decide)
  | boolean b =>
    cases b with
    | true => exact word 't' "rue".toList (by decide) (by decide)
    | false => exact word 'f' "alse".toList (by decide) (by decide)
  | @integer n v fits =>
    rw [Literal.renderChars_of_ofInt? fits]
    have digits : Grammar.Token.Spelled
        (.leaf (.number (Nat.toDigits 10 n ++ [] ++ []))) (Nat.toDigits 10 n ++ [] ++ []) :=
      .number Nat.toDigits_ne_nil (isDigit_of_toDigits n) (.inl rfl) (.inl rfl)
    simpa only [List.append_nil] using digits
  | @string s plain =>
    exact .string (.inl rfl)
      (quoted?_flatMap (by decide) (fun c hc => shows_escape (plain c hc)) [])

/-- A value is read again from the leaf that it is rendered as. -/
theorem Legible.compileLeaf (h : v.Legible l) (ctx : BuildContext) (scope : Scope) (a : Arena)
    (span : Span) :
    Compile.compileLeaf ctx scope a span l = .ok (Compile.pushLiteral a v span) := by
  cases h with
  | null => rfl
  | boolean b => rfl
  | @integer n v fits =>
    have read : Literal.readNumber? (Nat.toDigits 10 n) = some v := by
      rw [Literal.readNumber?_digits Nat.toDigits_ne_nil (isDigit_of_toDigits n),
        Nat.ofDigitChars_toDigits (by decide) (by decide), fits]
    simp only [Compile.compileLeaf, Compile.compileNumber, read]
  | @string s plain =>
    have read := unescape_flatMap fun c hc => shows_escape (plain c hc)
    simp only [Compile.compileLeaf, Compile.compileString, read, String.ofList_toList]

end Value

end Scriptlet
