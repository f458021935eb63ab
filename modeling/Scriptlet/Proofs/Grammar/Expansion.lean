import Scriptlet.Macro
import Scriptlet.Proofs.Grammar.Pieces

/-!
# Macro expansion and tokens

Expansion cuts a source into chunks without reading it. On a source with a tree its chunks agree
with the tokens, so that it replaces words of the tree and nothing else.
-/
namespace Scriptlet

namespace Source

/-- The text from `offset` on with the passages at the given ranges replaced. -/
def rewrite (f : List Char → List Char) (offset : Nat) (text : List Char) : List Span → List Char
  | [] => text
  | s :: spans =>
    let (front, rest) := splitBytes (s.start - offset) text
    let (passage, after) := splitBytes (s.stop - s.start) rest
    front ++ f passage ++ rewrite f s.stop after spans

theorem splitBytes_append_of_le {n : Nat} {front : List Char} (h : byteSize front ≤ n)
    (rest : List Char) : splitBytes n (front ++ rest) =
      (front ++ (splitBytes (n - byteSize front) rest).1,
        (splitBytes (n - byteSize front) rest).2) := by
  induction front generalizing n with
  | nil => rfl
  | cons c front ih =>
    rw [byteSize_cons] at h
    have fits : c.utf8Size ≤ n := by omega
    rw [List.cons_append, splitBytes, if_pos fits, ih (by omega), byteSize_cons, Nat.sub_sub]
    rfl

theorem splitBytes_zero (text : List Char) : splitBytes 0 text = ([], text) := by
  cases text with
  | nil => rfl
  | cons c rest =>
    have := c.utf8Size_pos
    rw [splitBytes, if_neg (by omega)]

theorem splitBytes_byteSize (front rest : List Char) :
    splitBytes (byteSize front) (front ++ rest) = (front, rest) := by
  rw [splitBytes_append_of_le (Nat.le_refl _), Nat.sub_self, splitBytes_zero, List.append_nil]

variable (f : List Char → List Char)

theorem rewrite_append {offset : Nat} {front : List Char} {spans : List Span}
    (h : ∀ s ∈ spans.head?, offset + byteSize front ≤ s.start) (rest : List Char) :
    rewrite f offset (front ++ rest) spans =
      front ++ rewrite f (offset + byteSize front) rest spans := by
  cases spans with
  | nil => rfl
  | cons s spans =>
    have := h s rfl
    rw [rewrite, rewrite, splitBytes_append_of_le (by omega), ← Nat.sub_sub]
    simp only [List.append_assoc]

theorem rewrite_word (offset : Nat) (word rest : List Char) (spans : List Span) :
    rewrite f offset (word ++ rest) (⟨offset, offset + byteSize word⟩ :: spans) =
      f word ++ rewrite f (offset + byteSize word) rest spans := by
  rw [rewrite, Nat.sub_self, splitBytes_zero]
  simp only [Nat.add_sub_cancel_left, splitBytes_byteSize, List.nil_append]

end Source

namespace MacroTable

open Grammar

/-- What expansion puts in the place of a word. -/
def expansion (t : MacroTable) (word : List Char) : List Char :=
  ((t.text? (String.ofList word)).map String.toList).getD word

/-! ## Characters -/

theorem isWordStart_of_ascii {c : Char} (h : c.toNat < 0x80) :
    isWordStart c = isNameStart c := by
  rw [isWordStart, isNameStart, Text.isLetter, if_pos h]

theorem isWordChar_of_ascii {c : Char} (h : c.toNat < 0x80) : isWordChar c = isNameChar c := by
  rw [isWordChar, isNameChar, Text.isLetter, Text.isNumeral, if_pos h, if_pos h, Char.isAlphanum]

theorem ascii_of_isNameChar {c : Char} (h : isNameChar c = true) : c.toNat < 0x80 := by
  simp only [isNameChar, Char.isAlphanum, Bool.or_eq_true, isAlpha_iff, isDigit_iff,
    beq_iff_eq] at h
  rcases h with ((h | h) | rfl) | rfl
  · omega
  · omega
  · decide
  · decide

theorem isWordChar_of_isNameChar {c : Char} (h : isNameChar c = true) : isWordChar c = true := by
  rw [isWordChar_of_ascii (ascii_of_isNameChar h), h]

theorem isWordStart_of_isDigit {c : Char} (h : c.isDigit = true) : isWordStart c = false := by
  rw [isWordStart_of_ascii (ascii_of_isNameChar (isNameChar_of_isDigit h))]
  by_contra start
  rw [Bool.not_eq_false] at start
  have := (start_of_isNameStart start).2
  rw [h] at this
  contradiction

/-- No name is written with the character, and no passage starts with it. -/
def Bare (c : Char) : Prop :=
  isWordChar c = false ∧ ¬ (c = '"' ∨ c = '\'') ∧ c ≠ '/' ∧ c ≠ '.'

theorem isWordStart_of_not_isWordChar {c : Char} (h : isWordChar c = false) :
    isWordStart c = false := by
  simp only [isWordChar, isWordStart, Bool.or_eq_false_iff] at h ⊢
  exact ⟨⟨h.1.1.1, h.1.2⟩, h.2⟩

/-! ## Chunks -/

variable (t : MacroTable)

theorem expandFrom_copied (afterPoint : Bool) {c : Char} {tail chunk rest : List Char}
    (split : splitChunk c tail = (chunk, rest))
    (unread : isWordStart c = false ∨ afterPoint = true) :
    t.expandFrom afterPoint (c :: tail) = c :: chunk ++ t.expandFrom (c == '.') rest := by
  have undone : (isWordStart c && !afterPoint) = false := by
    rcases unread with h | h <;> simp [h]
  rw [expandFrom]
  simp only [undone, split, Bool.false_eq_true, if_false]

theorem expandFrom_bare {front : List Char} (bare : ∀ c ∈ front, Bare c) (rest : List Char) :
    t.expandFrom false (front ++ rest) = front ++ t.expandFrom false rest := by
  induction front with
  | nil => rfl
  | cons c front ih =>
    obtain ⟨⟨nameless, unquoted, slashless, pointless⟩, bare⟩ := List.forall_mem_cons.mp bare
    have split : splitChunk c (front ++ rest) = ([], front ++ rest) := by
      simp [splitChunk, nameless, unquoted, slashless]
    have point : (c == '.') = false := by simp [pointless]
    rw [List.cons_append, t.expandFrom_copied false split
      (.inl (isWordStart_of_not_isWordChar nameless)), point, ih bare]
    rfl

theorem splitChunk_of_comment? {c : Char} {tail front rest : List Char}
    (h : comment? (c :: tail) = some (front, rest)) :
    c = '/' ∧ ∃ chunk, front = c :: chunk ∧ splitChunk c tail = (chunk, rest) := by
  unfold comment? at h
  split at h
  · rename_i line heq
    obtain ⟨rfl, rfl⟩ := List.cons.inj heq
    obtain ⟨rfl, rfl⟩ := Prod.mk.inj (Option.some.inj h)
    exact ⟨rfl, _, rfl, by simp [splitChunk]⟩
  · rename_i block heq
    obtain ⟨rfl, rfl⟩ := List.cons.inj heq
    obtain ⟨⟨body, r⟩, hblock, heq⟩ := Option.map_eq_some_iff.mp h
    obtain ⟨rfl, rfl⟩ := Prod.mk.inj heq
    exact ⟨rfl, _, rfl, by simp [splitChunk, splitBlock, hblock]⟩
  · contradiction

/-- Blanks and comments are copied. -/
theorem expandFrom_splitTrivia (text : List Char) :
    t.expandFrom false text = (splitTrivia text).1 ++ t.expandFrom false (splitTrivia text).2 := by
  fun_induction splitTrivia text with
  | case1 => rfl
  | case2 c rest blank front after hs ih =>
    have bare : ∀ d ∈ [c], Bare d := by
      simp only [isBlank, Bool.or_eq_true, beq_iff_eq] at blank
      rcases blank with ((rfl | rfl) | rfl) | rfl <;> simp [Bare] <;> decide
    rw [hs] at ih
    exact (t.expandFrom_bare bare rest).trans (congrArg (c :: ·) ih)
  | case3 c rest blank front after hc more last hs ih =>
    obtain ⟨rfl, chunk, rfl, split⟩ := splitChunk_of_comment? hc
    rw [hs] at ih
    rw [t.expandFrom_copied false split (.inl (by decide)), List.append_assoc, ← ih]
    rfl
  | case4 => rfl

/-- A word is replaced as a whole. -/
theorem expandFrom_word {c : Char} {tail rest : List Char} (start : isNameStart c = true)
    (name : ∀ d ∈ tail, isNameChar d = true) (stop : ∀ d ∈ rest.head?, isWordChar d = false) :
    t.expandFrom false (c :: tail ++ rest) =
      t.expansion (c :: tail) ++ t.expandFrom false rest := by
  have named := isNameChar_of_isNameStart start
  have ascii := ascii_of_isNameChar named
  obtain ⟨unquoted, -⟩ := start_of_isNameStart start
  have slashless : c ≠ '/' := by
    rintro rfl
    cases start
  have point : (c == '.') = false := by
    rw [beq_eq_false_iff_ne]
    rintro rfl
    cases start
  obtain ⟨taken, dropped⟩ :=
    takeWhile_append_stop (fun d hd => isWordChar_of_isNameChar (name d hd)) stop
  have split : splitChunk c (tail ++ rest) = (tail, rest) := by
    simp [splitChunk, unquoted, slashless, isWordChar_of_isNameChar named, taken, dropped]
  have starts : isWordStart c = true := by rw [isWordStart_of_ascii ascii, start]
  rw [List.cons_append, expandFrom]
  simp only [split, starts, Bool.not_false, Bool.and_true, if_true, expansion, point]
  cases t.text? (String.ofList (c :: tail)) <;> rfl

/-- A run of digits and letters that starts with a digit is copied. -/
theorem expandFrom_digits (afterPoint : Bool) {c : Char} {tail rest : List Char}
    (digit : c.isDigit = true) (name : ∀ d ∈ tail, isNameChar d = true)
    (stop : ∀ d ∈ rest.head?, isWordChar d = false) :
    t.expandFrom afterPoint (c :: tail ++ rest) = c :: tail ++ t.expandFrom false rest := by
  have named := isNameChar_of_isDigit digit
  have plain : ¬ (c = '"' ∨ c = '\'') ∧ c ≠ '/' ∧ c ≠ '.' := by
    refine ⟨?_, ?_, ?_⟩
    · rintro (rfl | rfl) <;> cases digit
    · rintro rfl
      cases digit
    · rintro rfl
      cases digit
  obtain ⟨unquoted, slashless, pointless⟩ := plain
  obtain ⟨taken, dropped⟩ :=
    takeWhile_append_stop (fun d hd => isWordChar_of_isNameChar (name d hd)) stop
  have split : splitChunk c (tail ++ rest) = (tail, rest) := by
    simp [splitChunk, unquoted, slashless, isWordChar_of_isNameChar named, taken, dropped]
  have point : (c == '.') = false := by simp [pointless]
  rw [List.cons_append, t.expandFrom_copied afterPoint split
    (.inl (isWordStart_of_isDigit digit)), point]

theorem expandFrom_number {digits fraction suffix rest : List Char} (present : digits ≠ [])
    (digit : ∀ c ∈ digits, c.isDigit = true)
    (fractional : fraction = [] ∨ ∃ places, places ≠ [] ∧ (∀ c ∈ places, c.isDigit = true) ∧
      fraction = '.' :: places)
    (suffixed : suffix = [] ∨ ∃ c, isSuffix c = true ∧ suffix = [c])
    (stop : ∀ d ∈ rest.head?, isWordChar d = false) :
    t.expandFrom false (digits ++ fraction ++ suffix ++ rest) =
      digits ++ fraction ++ suffix ++ t.expandFrom false rest := by
  obtain ⟨c, digits, rfl⟩ := List.exists_cons_of_ne_nil present
  obtain ⟨first, digit⟩ := List.forall_mem_cons.mp digit
  have ending : ∀ d ∈ suffix, isNameChar d = true := by
    rcases suffixed with rfl | ⟨d, hd, rfl⟩
    · simp
    · simpa using isNameChar_of_isSuffix hd
  have name : ∀ d ∈ digits, isNameChar d = true := fun d hd => isNameChar_of_isDigit (digit d hd)
  rcases fractional with rfl | ⟨places, present', digit', rfl⟩
  · have whole := t.expandFrom_digits false first (List.forall_mem_append.mpr ⟨name, ending⟩) stop
    simpa only [List.append_nil, List.cons_append, List.append_assoc] using whole
  · obtain ⟨p, places, rfl⟩ := List.exists_cons_of_ne_nil present'
    obtain ⟨first', digit'⟩ := List.forall_mem_cons.mp digit'
    have name' : ∀ d ∈ places, isNameChar d = true := fun d hd =>
      isNameChar_of_isDigit (digit' d hd)
    have nameless : isWordChar '.' = false := by decide
    have front := t.expandFrom_digits false first name
      (show ∀ d ∈ ('.' :: (p :: (places ++ suffix) ++ rest)).head?, isWordChar d = false by
        simpa using nameless)
    have point : splitChunk '.' (p :: (places ++ suffix) ++ rest) =
        ([], p :: (places ++ suffix) ++ rest) := by
      simp [splitChunk, nameless]
    have middle := t.expandFrom_copied false point (.inl (by decide))
    have back := t.expandFrom_digits true first' (List.forall_mem_append.mpr ⟨name', ending⟩) stop
    calc t.expandFrom false (c :: digits ++ '.' :: p :: places ++ suffix ++ rest)
        = t.expandFrom false (c :: digits ++ '.' :: (p :: (places ++ suffix) ++ rest)) := by
          simp only [List.cons_append, List.append_assoc]
      _ = c :: digits ++ ('.' :: (p :: (places ++ suffix) ++ t.expandFrom false rest)) := by
          rw [front, middle, ← back]
          rfl
      _ = c :: digits ++ '.' :: p :: places ++ suffix ++ t.expandFrom false rest := by
          simp only [List.cons_append, List.append_assoc]

theorem expandFrom_string {quote : Char} {body : List Char} (mark : quote = '"' ∨ quote = '\'')
    (closed : Source.quoted? quote (body ++ [quote]) = some (body, [])) (rest : List Char) :
    t.expandFrom false (quote :: body ++ [quote] ++ rest) =
      quote :: body ++ [quote] ++ t.expandFrom false rest := by
  have hquote : quote ≠ '\\' ∧ isWordStart quote = false ∧ (quote == '.') = false := by
    rcases mark with rfl | rfl <;> decide
  have split : splitChunk quote (body ++ [quote] ++ rest) = (body ++ [quote], rest) := by
    rw [splitChunk, if_pos mark, splitQuoted, Source.quoted?_append hquote.1 closed rest]
    rfl
  have copied := t.expandFrom_copied false split (.inl hquote.2.1)
  rw [hquote.2.2] at copied
  exact copied

theorem bare_of_mark? {text : List Char} {token : Token}
    (h : mark? text = some (token, text.length)) :
    token = .operator .div ∧ text = ['/'] ∨ ∀ c ∈ text, Bare c := by
  unfold mark? at h
  split at h <;> first | contradiction | skip
  all_goals
    obtain ⟨rfl, size⟩ := Prod.mk.inj (Option.some.inj h)
    simp only [List.length_cons, Nat.right_eq_add, List.length_eq_zero_iff] at size
    subst size
    simp [Bare]
  all_goals decide

/-- A mark is copied; a slash that starts no comment is, too. -/
theorem expandFrom_mark {text rest : List Char} {token : Token}
    (marked : mark? text = some (token, text.length))
    (clear : ∀ c ∈ rest.head?, token.clear c = true) :
    t.expandFrom false (text ++ rest) = text ++ t.expandFrom false rest := by
  rcases bare_of_mark? marked with ⟨rfl, rfl⟩ | bare
  · have split : splitChunk '/' rest = ([], rest) := by
      have nameless : isWordChar '/' = false := by decide
      have open' : rest.head? ≠ some '/' ∧ rest.head? ≠ some '*' := by
        constructor
        · intro h
          cases clear '/' h
        · intro h
          cases clear '*' h
      simp [splitChunk, nameless, open']
    exact t.expandFrom_copied false split (.inl (by decide))
  · exact t.expandFrom_bare bare rest

/-! ## Tokens -/

/-- A name or a keyword. -/
def isWord : Token → Bool
  | .leaf .null | .leaf (.boolean _) | .leaf (.ident _) => true
  | _ => false

/-- The ranges of the words among tokens. -/
def wordsOf (ts : List Lexeme) : List Span := (ts.filter (isWord ·.token)).map (·.span)

theorem isWord_wordToken (word : List Char) : isWord (wordToken word) = true := by
  unfold wordToken
  split
  · rfl
  split
  · rfl
  split <;> rfl

theorem isWord_of_mark? {text : List Char} {token : Token} {n : Nat}
    (h : mark? text = some (token, n)) : isWord token = false := by
  unfold mark? at h
  split at h <;> cases h <;> rfl

theorem wordsOf_append (ts ts' : List Lexeme) :
    wordsOf (ts ++ ts') = wordsOf ts ++ wordsOf ts' := by
  simp [wordsOf]

theorem wordsOf_cons (token : Lexeme) (ts : List Lexeme) :
    wordsOf (token :: ts) =
      if isWord token.token then token.span :: wordsOf ts else wordsOf ts := by
  rw [wordsOf, List.filter_cons]
  split <;> rfl

theorem ascii_of_blank_or_comment {c : Char} {rest : List Char}
    (h : (splitTrivia (c :: rest)).2 ≠ c :: rest) : c.toNat < 0x80 := by
  by_cases blank : isBlank c = true
  · simp only [isBlank, Bool.or_eq_true, beq_iff_eq] at blank
    rcases blank with ((rfl | rfl) | rfl) | rfl <;> decide
  · cases hc : comment? (c :: rest) with
    | none =>
      rw [splitTrivia_none (by simpa using blank) hc] at h
      exact absurd rfl h
    | some r =>
      obtain ⟨rfl, -⟩ := splitChunk_of_comment? hc
      decide

theorem ascii_of_spelled {token : Token} {text : List Char} (spelled : token.Spelled text) :
    ∀ c ∈ text.head?, c.toNat < 0x80 := by
  cases spelled with
  | string mark closed => rcases mark with rfl | rfl <;> simp
  | @number digits fraction suffix present digit =>
    obtain ⟨c, digits, rfl⟩ := List.exists_cons_of_ne_nil present
    have hc := digit c (List.mem_cons_self ..)
    simpa using ascii_of_isNameChar (isNameChar_of_isDigit hc)
  | word start name => simpa using ascii_of_isNameChar (isNameChar_of_isNameStart start)
  | mark marked =>
    unfold mark? at marked
    split at marked <;> first | contradiction | simp

/-- Whatever starts a source with tokens is in ASCII. -/
theorem ascii_of_laidOut {text : List Char} {pieces : List Piece} (h : LaidOut text pieces) :
    ∀ c ∈ text.head?, c.toNat < 0x80 := by
  cases h with
  | done trivia =>
    cases text with
    | nil => simp
    | cons c rest =>
      have split : (splitTrivia (c :: rest)).2 ≠ c :: rest := by simp [trivia]
      simpa using ascii_of_blank_or_comment split
  | @piece gap text rest token pieces trivia spelled clear _ =>
    cases gap with
    | nil =>
      obtain ⟨c, tail, rfl, -⟩ := spelled.start
      simpa using ascii_of_spelled spelled
    | cons c gap =>
      have split : (splitTrivia (c :: gap ++ (text ++ rest))).2 = text ++ rest := by
        rw [splitTrivia_of_trivia trivia, spelled.splitTrivia clear]
      have shorter : (splitTrivia (c :: (gap ++ (text ++ rest)))).2 ≠
          c :: (gap ++ (text ++ rest)) := by
        rw [← List.cons_append, split]
        intro h
        have := congrArg List.length h
        simp only [List.length_append, List.length_cons] at this
        omega
      simpa using ascii_of_blank_or_comment shorter

/-- Expansion replaces a word and copies any other token. -/
theorem expandFrom_token {token : Token} {text rest : List Char} (spelled : token.Spelled text)
    (clear : ∀ c ∈ rest.head?, token.clear c = true)
    (ascii : ∀ c ∈ rest.head?, c.toNat < 0x80) :
    t.expandFrom false (text ++ rest) =
      (if isWord token then t.expansion text else text) ++ t.expandFrom false rest := by
  have stop (named : ∀ c, token.clear c = true → isNameChar c = false) :
      ∀ c ∈ rest.head?, isWordChar c = false := by
    intro c hc
    rw [isWordChar_of_ascii (ascii c hc), named c (clear c hc)]
  cases spelled with
  | string mark closed => exact t.expandFrom_string mark closed rest
  | number present digit fractional suffixed =>
    refine t.expandFrom_number present digit fractional suffixed (stop fun c hc => ?_)
    simp only [Token.clear, Bool.and_eq_true, Bool.not_eq_true'] at hc
    exact hc.1
  | @word c tail start name =>
    rw [isWord_wordToken, if_pos rfl]
    refine t.expandFrom_word start name (stop fun c hc => ?_)
    simpa [clear_wordToken] using hc
  | mark marked =>
    rw [isWord_of_mark? marked, if_neg (by simp)]
    exact t.expandFrom_mark marked clear

theorem expandFrom_laidOut {text : List Char} {pieces : List Piece} (h : LaidOut text pieces)
    (offset : Nat) : t.expandFrom false text =
      Source.rewrite t.expansion offset text (wordsOf (Piece.lexemesFrom offset pieces)) := by
  induction h generalizing offset with
  | @done text trivia =>
    have all := splitTrivia_append text
    rw [trivia, List.append_nil] at all
    rw [expandFrom_splitTrivia, trivia, expandFrom, List.append_nil, all]
    rfl
  | @piece gap text rest token pieces trivia spelled clear later ih =>
    have split : splitTrivia (gap ++ (text ++ rest)) = (gap, text ++ rest) := by
      rw [splitTrivia_of_trivia trivia, spelled.splitTrivia clear, List.append_nil]
    have after (stop : Nat) :
        ∀ s ∈ (wordsOf (Piece.lexemesFrom stop pieces)).head?, stop ≤ s.start := by
      intro s hs
      obtain ⟨l, hl, rfl⟩ := List.mem_map.mp (List.mem_of_mem_head? hs)
      exact Piece.le_start stop pieces l (List.mem_filter.mp hl).1
    rw [expandFrom_splitTrivia, split, t.expandFrom_token spelled clear (ascii_of_laidOut later),
      Piece.lexemesFrom, wordsOf_cons]
    by_cases word : isWord token = true
    · simp only [word, if_true]
      rw [Source.rewrite_append _ (by simp), Source.rewrite_word, ih]
    · simp only [word, Bool.false_eq_true, if_false]
      rw [Source.rewrite_append _ fun s hs => ?_, Source.rewrite_append _ (after _), ih]
      have := after _ s hs
      omega

end MacroTable

/-! ## Words of a tree -/

namespace Grammar

open MacroTable (wordsOf wordsOf_append wordsOf_cons isWord)

/-- The rules of names and keywords. -/
def Rule.isWord : Rule → Bool
  | .null | .boolean | .ident => true
  | _ => false

/-- The ranges of the words of a script, in source order. -/
def Script.words (s : Script) : List Span := spansOf Rule.isWord s.outline

mutual

theorem Primary.words_outline (depth : Nat) :
    ∀ p : Primary, spansOf Rule.isWord (p.outline depth) = wordsOf p.lexemes
  | .leaf l span => by
    cases l with
    | string quote body =>
      have bodiless :
          Rule.isWord (if quote = '"' then .doubleQuoted else .singleQuoted) = false := by
        split <;> rfl
      rw [Primary.outline, Leaf.outline, spansOf_cons rfl, spansOf_cons bodiless]
      rfl
    | _ => rfl
  | .group inner span => by
    rw [Primary.outline, spansOf_cons rfl, inner.words_outline, Primary.lexemes, wordsOf_cons,
      wordsOf_append]
    exact (List.append_nil _).symm

theorem Operand.words_outline (depth : Nat) :
    ∀ o : Operand, spansOf Rule.isWord (o.outline depth) = wordsOf o.lexemes
  | .mk signs primary => by
    have unsigned : spansOf Rule.isWord (signs.map (·.row (depth + 1))) = [] := by
      refine spansOf_eq_nil fun r hr => ?_
      obtain ⟨sign, -, rfl⟩ := List.mem_map.mp hr
      unfold Sign.row
      dsimp only
      split <;> rfl
    have unsigned' : wordsOf (signs.map Sign.lexeme) = [] := by
      simp only [wordsOf, List.map_eq_nil_iff, List.filter_eq_nil_iff]
      rintro l hl
      obtain ⟨sign, -, rfl⟩ := List.mem_map.mp hl
      unfold Sign.lexeme
      dsimp only
      split <;> simp [isWord]
    rw [Operand.outline, spansOf_cons rfl, spansOf_append, unsigned, Operand.lexemes,
      wordsOf_append, unsigned', primary.words_outline]

theorem Links.words_outline (depth : Nat) :
    ∀ links : Links, spansOf Rule.isWord (links.outline depth) = wordsOf links.lexemes
  | .nil => rfl
  | .cons op span operand rest => by
    rw [Links.outline, spansOf_cons rfl, spansOf_append, operand.words_outline,
      rest.words_outline, Links.lexemes, wordsOf_cons, wordsOf_append]
    rfl

theorem Expression.words_outline (depth : Nat) :
    ∀ e : Expression, spansOf Rule.isWord (e.outline depth) = wordsOf e.lexemes
  | .mk first links span => by
    rw [Expression.outline, spansOf_cons rfl, spansOf_append, first.words_outline,
      links.words_outline, Expression.lexemes, wordsOf_append]

end

theorem Statement.Spelled.words_outline {s : Statement} {ts : List Lexeme} (h : s.Spelled ts)
    (depth : Nat) : spansOf Rule.isWord (s.outline depth) = wordsOf ts := by
  cases h with
  | expression e => exact e.words_outline depth
  | assignment name nameSpan span value =>
    rw [Statement.outline, spansOf_cons rfl, spansOf_cons_pos rfl, value.words_outline,
      wordsOf_cons, wordsOf_cons]
    rfl

theorem wordsOf_semicolons {semicolons : List Lexeme}
    (h : ∀ t ∈ semicolons, t.token = .semicolon) : wordsOf semicolons = [] := by
  simp only [wordsOf, List.map_eq_nil_iff, List.filter_eq_nil_iff]
  intro t ht
  simp [h t ht, isWord]

theorem wordsOf_skipSemicolons (ts : List Lexeme) : wordsOf (skipSemicolons ts) = wordsOf ts := by
  obtain ⟨semicolons, heq, all⟩ := skipSemicolons_append ts
  conv_rhs => rw [heq, wordsOf_append, wordsOf_semicolons all]
  rfl

theorem Sequence.words_outline {ts : List Lexeme} {ss : List Statement} (h : Sequence ts ss) :
    spansOf Rule.isWord (ss.flatMap (·.outline 1)) = wordsOf ts := by
  induction h with
  | nil => rfl
  | last spelled => rw [List.flatMap_singleton, spelled.words_outline]
  | @more s ts rest t ss spelled semicolon _ ih =>
    rw [List.flatMap_cons, spansOf_append, spelled.words_outline, ih, wordsOf_skipSemicolons,
      wordsOf_append, wordsOf_cons, semicolon]
    rfl

/-- Expansion replaces the words of the tree that are names of macros, and copies the rest. -/
theorem expand_words {source : String} {script : Script} (h : read? source.toList = some script)
    (t : MacroTable) :
    (t.expand source).toList = Source.rewrite t.expansion 0 source.toList script.words := by
  obtain ⟨pieces, laid, sequence⟩ := laidOut_of_read? h
  have words : script.words = wordsOf (Piece.lexemesFrom 0 pieces) := by
    rw [Script.words, Script.outline, spansOf_cons rfl, spansOf_append, sequence.words_outline,
      wordsOf_skipSemicolons]
    exact List.append_nil _
  rw [MacroTable.expand, String.toList_ofList, words, t.expandFrom_laidOut laid 0]

/-- A name that also stands in a string, in a comment and at the end of another name. -/
theorem expand_words_once :
    ∃ script, read? "xVAT * VAT + 'VAT' // VAT".toList = some script ∧
      Source.rewrite ((MacroTable.empty.define "VAT" "1.19d").expansion) 0
        "xVAT * VAT + 'VAT' // VAT".toList script.words =
          "xVAT * 1.19d + 'VAT' // VAT".toList := by
  have present : (read? "xVAT * VAT + 'VAT' // VAT".toList).isSome := by decide +kernel
  obtain ⟨script, read⟩ := Option.isSome_iff_exists.mp present
  refine ⟨script, read, ?_⟩
  rw [← expand_words read]
  decide +kernel

end Grammar

end Scriptlet
