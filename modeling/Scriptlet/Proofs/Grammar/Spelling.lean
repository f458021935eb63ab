import Mathlib.Data.List.TakeWhile
import Mathlib.Tactic.FinCases
import Mathlib.Tactic.Tauto
import Scriptlet.Grammar.Token

/-!
# How tokens are spelled

A text is a token or is not, whatever stands around it. What may follow a token directly is what
cannot go on with it: one character decides, but for the point after a number, which no token
starts with, and a slash, which may start a comment with what follows.
-/
namespace Scriptlet

namespace Source

/-- A backslash at the end leaves the passage open. -/
theorem ne_backslash_of_quoted? {quote c : Char} {tail body rest : List Char}
    (hne : ∀ d r, c = '\\' → tail = d :: r → False)
    (h : quoted? quote tail = some (body, rest)) : c ≠ '\\' := by
  rintro rfl
  cases tail with
  | nil => simp [quoted?] at h
  | cons d tail => exact hne d tail rfl rfl

theorem quoted?_append {quote : Char} (hquote : quote ≠ '\\') {text body rest : List Char}
    (h : quoted? quote text = some (body, rest)) (more : List Char) :
    quoted? quote (text ++ more) = some (body, rest ++ more) := by
  induction text using quoted?.induct quote generalizing body rest with
  | case1 => simp [quoted?] at h
  | case2 c tail ih =>
    simp only [quoted?, Option.map_eq_some_iff] at h
    obtain ⟨⟨b, r⟩, h, heq⟩ := h
    obtain ⟨rfl, rfl⟩ := Prod.mk.inj heq
    simp only [List.cons_append, quoted?, ih h, Option.map_some]
  | case3 tail hne =>
    rw [quoted?.eq_3 _ _ _ hne, if_pos rfl] at h
    obtain ⟨rfl, rfl⟩ := Prod.mk.inj (Option.some.inj h)
    rw [List.cons_append, quoted?.eq_3 _ _ _ (fun _ _ hc => absurd hc hquote), if_pos rfl]
  | case4 c tail hne hc ih =>
    rw [quoted?.eq_3 _ _ _ hne, if_neg hc, Option.map_eq_some_iff] at h
    obtain ⟨⟨b, r⟩, h, heq⟩ := h
    obtain ⟨rfl, rfl⟩ := Prod.mk.inj heq
    have plain : c ≠ '\\' := ne_backslash_of_quoted? hne h
    rw [List.cons_append, quoted?.eq_3 _ _ _ (fun _ _ hc => absurd hc plain), if_neg hc, ih h]
    rfl

theorem quoted?_take {quote : Char} {text body rest : List Char}
    (h : quoted? quote text = some (body, rest)) :
    quoted? quote (body ++ [quote]) = some (body, []) := by
  induction text using quoted?.induct quote generalizing body rest with
  | case1 => simp [quoted?] at h
  | case2 c tail ih =>
    simp only [quoted?, Option.map_eq_some_iff] at h
    obtain ⟨⟨b, r⟩, hb, heq⟩ := h
    obtain ⟨rfl, rfl⟩ := Prod.mk.inj heq
    simp only [List.cons_append, quoted?, ih hb, Option.map_some]
  | case3 tail hne =>
    rw [quoted?.eq_3 _ _ _ hne, if_pos rfl] at h
    obtain ⟨rfl, rfl⟩ := Prod.mk.inj (Option.some.inj h)
    rw [List.nil_append, quoted?.eq_3 _ _ _ (by simp), if_pos rfl]
  | case4 c tail hne hc ih =>
    rw [quoted?.eq_3 _ _ _ hne, if_neg hc, Option.map_eq_some_iff] at h
    obtain ⟨⟨b, r⟩, hb, heq⟩ := h
    obtain ⟨rfl, rfl⟩ := Prod.mk.inj heq
    have plain : c ≠ '\\' := ne_backslash_of_quoted? hne hb
    rw [List.cons_append, quoted?.eq_3 _ _ _ (fun _ _ hc => absurd hc plain), if_neg hc, ih hb]
    rfl

end Source

namespace Grammar

/-- The texts of the tokens. A number has digits, then maybe a point and more digits, then maybe a
suffix. -/
inductive Token.Spelled : Token → List Char → Prop
  | string {quote : Char} {body : List Char} (mark : quote = '"' ∨ quote = '\'')
      (closed : Source.quoted? quote (body ++ [quote]) = some (body, [])) :
      Spelled (.leaf (.string quote body)) (quote :: body ++ [quote])
  | number {digits fraction suffix : List Char} (present : digits ≠ [])
      (digit : ∀ c ∈ digits, c.isDigit = true)
      (fractional : fraction = [] ∨ ∃ places, places ≠ [] ∧ (∀ c ∈ places, c.isDigit = true) ∧
        fraction = '.' :: places)
      (suffixed : suffix = [] ∨ ∃ c, isSuffix c = true ∧ suffix = [c]) :
      Spelled (.leaf (.number (digits ++ fraction ++ suffix))) (digits ++ fraction ++ suffix)
  | word {c : Char} {rest : List Char} (start : isNameStart c = true)
      (name : ∀ d ∈ rest, isNameChar d = true) : Spelled (wordToken (c :: rest)) (c :: rest)
  | mark {t : Token} {text : List Char} (marked : mark? text = some (t, text.length)) :
      Spelled t text

/-- The token ends where the character follows it. -/
def Token.clear : Token → Char → Bool
  | .leaf (.string ..), _ => true
  | .leaf (.number _), c => !isNameChar c && c != '.'
  | .leaf _, c => !isNameChar c
  | .operator .bitOr, c => c != '|'
  | .operator .bitAnd, c => c != '&'
  | .assign, c | .bang, c => c != '='
  | .operator .lt, c => c != '=' && c != '<'
  | .operator .gt, c => c != '=' && c != '>'
  | .operator .shr, c => c != '>'
  | .operator .mul, c => c != '*'
  | .operator .div, c => c != '/' && c != '*'
  | _, _ => true

theorem isNameChar_of_isDigit {c : Char} (h : c.isDigit = true) : isNameChar c = true := by
  simp [isNameChar, Char.isAlphanum, h]

theorem isNameChar_of_isNameStart {c : Char} (h : isNameStart c = true) : isNameChar c = true := by
  simp only [isNameStart, Bool.or_eq_true] at h
  simp only [isNameChar, Char.isAlphanum, Bool.or_eq_true]
  tauto

theorem isNameChar_of_isSuffix {c : Char} (h : isSuffix c = true) : isNameChar c = true := by
  simp only [isSuffix, List.contains_eq_mem, decide_eq_true_eq] at h
  fin_cases h <;> decide

theorem takeWhile_append_stop {p : Char → Bool} {front rest : List Char}
    (all : ∀ c ∈ front, p c = true) (stop : ∀ c ∈ rest.head?, p c = false) :
    (front ++ rest).takeWhile p = front ∧ (front ++ rest).dropWhile p = rest := by
  rw [List.takeWhile_append_of_pos all, List.dropWhile_append_of_pos all]
  cases rest with
  | nil => simp
  | cons c tail =>
    have hc : ¬ p c = true := by simp [stop c rfl]
    simp [List.takeWhile_cons_of_neg hc, List.dropWhile_cons_of_neg hc]

theorem mark?_append {text rest : List Char} {t : Token} {n : Nat} (h : mark? text = some (t, n))
    (all : text.drop n = []) (clear : ∀ c ∈ rest.head?, t.clear c = true) :
    mark? (text ++ rest) = some (t, n) := by
  unfold mark? at h
  split at h <;> cases h <;> simp at all <;> subst all <;> cases rest <;>
    simp_all [mark?, Token.clear]

theorem splitSuffix_append_stop {suffix rest : List Char}
    (suffixed : suffix = [] ∨ ∃ c, isSuffix c = true ∧ suffix = [c])
    (stop : ∀ c ∈ rest.head?, isNameChar c = false) :
    splitSuffix (suffix ++ rest) = (suffix, rest) := by
  rcases suffixed with rfl | ⟨c, hc, rfl⟩
  · cases rest with
    | nil => rfl
    | cons d tail =>
      have hd : ¬ isSuffix d = true := by
        intro hd
        have := stop d rfl
        simp [isNameChar_of_isSuffix hd] at this
      simp only [List.nil_append, splitSuffix, if_neg hd]
  · simp only [List.cons_append, List.nil_append, splitSuffix, if_pos hc]

theorem splitFraction_append_stop {fraction rest : List Char}
    (fractional : fraction = [] ∨ ∃ places, places ≠ [] ∧ (∀ c ∈ places, c.isDigit = true) ∧
      fraction = '.' :: places)
    (stop : ∀ c ∈ rest.head?, c.isDigit = false ∧ c ≠ '.') :
    splitFraction (fraction ++ rest) = (fraction, rest) := by
  rcases fractional with rfl | ⟨places, present, digit, rfl⟩
  · rw [List.nil_append, splitFraction.eq_2]
    rintro d tail rfl
    exact (stop '.' rfl).2 rfl
  · cases places with
    | nil => exact absurd rfl present
    | cons d places =>
      obtain ⟨hd, digit⟩ := List.forall_mem_cons.mp digit
      obtain ⟨taken, dropped⟩ := takeWhile_append_stop digit fun c hc => (stop c hc).1
      simp only [List.cons_append, splitFraction, if_pos hd, taken, dropped]

theorem number?_append {c : Char} {digits fraction suffix rest : List Char}
    (digit : ∀ d ∈ digits, d.isDigit = true)
    (fractional : fraction = [] ∨ ∃ places, places ≠ [] ∧ (∀ c ∈ places, c.isDigit = true) ∧
      fraction = '.' :: places)
    (suffixed : suffix = [] ∨ ∃ c, isSuffix c = true ∧ suffix = [c])
    (clear : ∀ d ∈ rest.head?, isNameChar d = false ∧ d ≠ '.') :
    number? c (digits ++ (fraction ++ (suffix ++ rest))) =
      some (.leaf (.number (c :: (digits ++ fraction ++ suffix))),
        c :: (digits ++ fraction ++ suffix), rest) := by
  have undigit (d : Char) (hd : d ∈ rest.head?) : d.isDigit = false := by
    by_contra h
    simp only [Bool.not_eq_false] at h
    exact absurd (isNameChar_of_isDigit h) (by simp [(clear d hd).1])
  have afterFraction : ∀ d ∈ (suffix ++ rest).head?, d.isDigit = false ∧ d ≠ '.' := by
    rcases suffixed with rfl | ⟨s, hs, rfl⟩
    · exact fun d hd => ⟨undigit d hd, (clear d hd).2⟩
    · intro d hd
      obtain rfl := Option.some.inj hd
      simp only [isSuffix, List.contains_eq_mem, decide_eq_true_eq] at hs
      fin_cases hs <;> decide
  have afterDigits : ∀ d ∈ (fraction ++ (suffix ++ rest)).head?, d.isDigit = false := by
    rcases fractional with rfl | ⟨places, -, -, rfl⟩
    · exact fun d hd => (afterFraction d hd).1
    · intro d hd
      obtain rfl := Option.some.inj hd
      rfl
  obtain ⟨taken, dropped⟩ := takeWhile_append_stop digit afterDigits
  have stopped : ¬ (rest.head?.any isNameChar = true) := by
    cases rest with
    | nil => simp
    | cons d tail => simp [(clear d rfl).1]
  simp only [number?, taken, dropped, splitFraction_append_stop fractional afterFraction,
    splitSuffix_append_stop suffixed fun d hd => (clear d hd).1, if_neg stopped]

/-- A mark starts with none of the characters that other tokens start with. -/
theorem start_of_mark? {c : Char} {rest : List Char} {r : Token × Nat}
    (h : mark? (c :: rest) = some r) :
    ¬ (c = '"' ∨ c = '\'') ∧ c.isDigit = false ∧ isNameStart c = false := by
  unfold mark? at h
  split at h <;> first | contradiction | skip
  all_goals
    rename_i heq
    obtain ⟨rfl, -⟩ := List.cons.inj heq
    decide

theorem clear_wordToken (word : List Char) (c : Char) :
    (wordToken word).clear c = !isNameChar c := by
  unfold wordToken
  split
  · rfl
  split
  · rfl
  split <;> rfl

theorem isAlpha_iff (c : Char) :
    c.isAlpha = true ↔ (65 ≤ c.toNat ∧ c.toNat ≤ 90) ∨ (97 ≤ c.toNat ∧ c.toNat ≤ 122) := by
  have ranges : c.isAlpha = (decide (c.val ≥ 'A'.val ∧ c.val ≤ 'Z'.val) ||
      (decide (c.val ≥ 'a'.val) && decide (c.val ≤ 'z'.val))) := rfl
  simp only [ranges, Bool.or_eq_true, Bool.and_eq_true, decide_eq_true_eq, ge_iff_le,
    UInt32.le_iff_toNat_le]
  rfl

theorem isDigit_iff (c : Char) : c.isDigit = true ↔ 48 ≤ c.toNat ∧ c.toNat ≤ 57 := by
  simp only [Char.isDigit, Bool.and_eq_true, decide_eq_true_eq, ge_iff_le,
    UInt32.le_iff_toNat_le]
  rfl

theorem start_of_isNameStart {c : Char} (h : isNameStart c = true) :
    ¬ (c = '"' ∨ c = '\'') ∧ c.isDigit = false := by
  constructor
  · rintro (rfl | rfl) <;> revert h <;> decide
  · by_contra hdigit
    rw [Bool.not_eq_false, isDigit_iff] at hdigit
    simp only [isNameStart, Bool.or_eq_true, isAlpha_iff, beq_iff_eq] at h
    rcases h with (h | rfl) | rfl
    · omega
    · revert hdigit
      decide
    · revert hdigit
      decide

/-- A token is read as far as its text goes. -/
theorem scan?_append {t : Token} {text rest : List Char} (spelled : t.Spelled text)
    (clear : ∀ c ∈ rest.head?, t.clear c = true) :
    scan? (text ++ rest) = some (t, text, rest) := by
  cases spelled with
  | @string quote body mark closed =>
    have hquote : quote ≠ '\\' := by rcases mark with rfl | rfl <;> decide
    have hread := Source.quoted?_append hquote closed rest
    simp only [List.cons_append, scan?, if_pos mark, hread]
    rfl
  | @number digits fraction suffix present digit fractional suffixed =>
    cases digits with
    | nil => exact absurd rfl present
    | cons c digits =>
      obtain ⟨hc, digit⟩ := List.forall_mem_cons.mp digit
      have unquoted : ¬ (c = '"' ∨ c = '\'') := by rintro (rfl | rfl) <;> simp at hc
      have apart : ∀ d ∈ rest.head?, isNameChar d = false ∧ d ≠ '.' := by
        intro d hd
        simpa [Token.clear] using clear d hd
      simp only [List.cons_append, List.append_assoc, scan?, if_neg unquoted, if_pos hc,
        number?_append digit fractional suffixed apart]
  | @word c tail start name =>
    obtain ⟨unquoted, undigit⟩ := start_of_isNameStart start
    have stop : ∀ d ∈ rest.head?, isNameChar d = false := by
      intro d hd
      simpa [clear_wordToken] using clear d hd
    obtain ⟨taken, dropped⟩ := takeWhile_append_stop name stop
    simp only [List.cons_append, scan?, if_neg unquoted, undigit, start, Bool.false_eq_true,
      if_false, if_true, taken, dropped]
  | mark marked =>
    cases text with
    | nil => simp [mark?] at marked
    | cons c tail =>
      obtain ⟨unquoted, undigit, unnamed⟩ := start_of_mark? marked
      have hread := mark?_append marked (List.drop_length ..) clear
      rw [List.cons_append] at hread
      simp only [List.cons_append, scan?, if_neg unquoted, undigit, unnamed, Bool.false_eq_true,
        if_false, hread, Option.map_some]
      simp

/-! ## What is read is a token -/

theorem splitFraction_fractional (text : List Char) :
    (splitFraction text).1 = [] ∨ ∃ places, places ≠ [] ∧ (∀ c ∈ places, c.isDigit = true) ∧
      (splitFraction text).1 = '.' :: places := by
  unfold splitFraction
  split
  · rename_i d rest
    split
    · rename_i hd
      refine .inr ⟨d :: rest.takeWhile Char.isDigit, by simp, ?_, rfl⟩
      exact List.forall_mem_cons.mpr ⟨hd, fun c hc => List.mem_takeWhile_imp hc⟩
    · exact .inl rfl
  · exact .inl rfl

theorem splitSuffix_suffixed (text : List Char) :
    (splitSuffix text).1 = [] ∨ ∃ c, isSuffix c = true ∧ (splitSuffix text).1 = [c] := by
  unfold splitSuffix
  split
  · split
    · rename_i hc
      exact .inr ⟨_, hc, rfl⟩
    · exact .inl rfl
  · exact .inl rfl

theorem marked_of_mark? {text : List Char} {t : Token} {n : Nat} (h : mark? text = some (t, n)) :
    mark? (text.take n) = some (t, (text.take n).length) := by
  unfold mark? at h
  split at h <;> cases h <;> simp [mark?]

theorem clear_of_mark? {text : List Char} {t : Token} {n : Nat} (h : mark? text = some (t, n))
    {c : Char} (hc : c ∈ (text.drop n).head?)
    (uncommented : t = .operator .div → c ≠ '/' ∧ c ≠ '*') : t.clear c = true := by
  unfold mark? at h
  split at h <;> cases h <;> simp_all [Token.clear]
  all_goals
    obtain ⟨more, rfl⟩ := List.head?_eq_some_iff.mp hc
    simp_all

theorem spelled_of_scan? {text front rest : List Char} {t : Token}
    (h : scan? text = some (t, front, rest)) : t.Spelled front := by
  unfold scan? at h
  split at h
  · contradiction
  · rename_i c tail
    split at h
    · rename_i mark
      obtain ⟨⟨body, r⟩, hbody, heq⟩ := Option.map_eq_some_iff.mp h
      simp only [Prod.mk.injEq] at heq
      obtain ⟨rfl, rfl, -⟩ := heq
      exact .string mark (Source.quoted?_take hbody)
    · split at h
      · rename_i hc
        simp only [number?] at h
        split at h
        · contradiction
        · simp only [Option.some.injEq, Prod.mk.injEq] at h
          obtain ⟨rfl, rfl, -⟩ := h
          have digit : ∀ d ∈ c :: tail.takeWhile Char.isDigit, d.isDigit = true :=
            List.forall_mem_cons.mpr ⟨hc, fun d hd => List.mem_takeWhile_imp hd⟩
          simpa using Token.Spelled.number (List.cons_ne_nil _ _) digit
            (splitFraction_fractional (tail.dropWhile Char.isDigit)) (splitSuffix_suffixed _)
      · split at h
        · rename_i start
          simp only [Option.some.injEq, Prod.mk.injEq] at h
          obtain ⟨rfl, rfl, -⟩ := h
          exact .word start fun d hd => List.mem_takeWhile_imp hd
        · obtain ⟨⟨token, n⟩, hmark, heq⟩ := Option.map_eq_some_iff.mp h
          simp only [Prod.mk.injEq] at heq
          obtain ⟨rfl, rfl, -⟩ := heq
          exact .mark (marked_of_mark? hmark)

theorem clear_of_scan? {text front rest : List Char} {t : Token}
    (h : scan? text = some (t, front, rest)) {c : Char} (hc : c ∈ rest.head?) (point : c ≠ '.')
    (uncommented : t = .operator .div → c ≠ '/' ∧ c ≠ '*') : t.clear c = true := by
  unfold scan? at h
  split at h
  · contradiction
  · rename_i d tail
    split at h
    · obtain ⟨⟨body, r⟩, hbody, heq⟩ := Option.map_eq_some_iff.mp h
      simp only [Prod.mk.injEq] at heq
      obtain ⟨rfl, -, -⟩ := heq
      rfl
    · split at h
      · simp only [number?] at h
        split at h
        · contradiction
        · rename_i stop
          simp only [Option.some.injEq, Prod.mk.injEq] at h
          obtain ⟨rfl, -, rfl⟩ := h
          obtain ⟨more, hrest⟩ := List.head?_eq_some_iff.mp hc
          rw [hrest] at stop
          simpa [Token.clear, point] using stop
      · split at h
        · simp only [Option.some.injEq, Prod.mk.injEq] at h
          obtain ⟨rfl, -, rfl⟩ := h
          have stop := List.head?_dropWhile_not isNameChar tail
          rw [Option.mem_def.mp hc] at stop
          simpa [clear_wordToken] using stop
        · obtain ⟨⟨token, n⟩, hmark, heq⟩ := Option.map_eq_some_iff.mp h
          simp only [Prod.mk.injEq] at heq
          obtain ⟨rfl, -, rfl⟩ := heq
          exact clear_of_mark? hmark hc uncommented

theorem slash_of_mark? {text : List Char} {t : Token} (h : mark? text = some (t, text.length)) :
    ∃ c rest, text = c :: rest ∧ isBlank c = false ∧
      (c = '/' → t = .operator .div ∧ rest = []) ∧ (t = .operator .div → c = '/') := by
  unfold mark? at h
  split at h <;> first | contradiction | skip
  all_goals
    obtain ⟨rfl, length⟩ := Prod.mk.inj (Option.some.inj h)
    exact ⟨_, _, rfl, by decide, by simp_all, by simp⟩

/-- Tokens are not blank, and one that starts with a slash is that slash. -/
theorem Token.Spelled.start {t : Token} {text : List Char} (spelled : t.Spelled text) :
    ∃ c rest, text = c :: rest ∧ isBlank c = false ∧
      (c = '/' → t = .operator .div ∧ rest = []) ∧ (t = .operator .div → c = '/') := by
  cases spelled with
  | @string quote body mark closed =>
    refine ⟨quote, body ++ [quote], rfl, ?_, ?_, by simp⟩
    · rcases mark with rfl | rfl <;> decide
    · rcases mark with rfl | rfl <;> simp
  | @number digits fraction suffix present digit =>
    cases digits with
    | nil => exact absurd rfl present
    | cons c digits =>
      have hc := digit c (List.mem_cons_self ..)
      refine ⟨c, digits ++ fraction ++ suffix, by simp, ?_, ?_, by simp⟩
      · simp only [isBlank, Bool.or_eq_false_iff, beq_eq_false_iff_ne]
        refine ⟨⟨⟨?_, ?_⟩, ?_⟩, ?_⟩ <;> rintro rfl <;> simp at hc
      · rintro rfl
        simp at hc
  | @word c tail start name =>
    refine ⟨c, tail, rfl, ?_, ?_, ?_⟩
    · simp only [isBlank, Bool.or_eq_false_iff, beq_eq_false_iff_ne]
      refine ⟨⟨⟨?_, ?_⟩, ?_⟩, ?_⟩ <;> rintro rfl <;> revert start <;> decide
    · rintro rfl
      cases start
    · unfold wordToken
      intro h
      split at h
      · cases h
      split at h
      · cases h
      split at h <;> cases h
  | mark marked => exact slash_of_mark? marked

end Grammar

end Scriptlet
