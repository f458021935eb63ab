import Scriptlet.Grammar.Parse
import Scriptlet.Proofs.Grammar.Groups
import Scriptlet.Proofs.Grammar.Pieces

/-!
# Nesting before reading

The scan for deep parentheses runs before the source is read, on characters. On a source with a
tree it finds what the tree says: the first group that lies in too many groups, itself counted.
-/
namespace Scriptlet.Grammar

/-! ## Tokens as the scan sees them -/

namespace Nesting

/-- A character at which the scan only goes on. -/
def Plain (c : Char) : Prop := c ≠ '"' ∧ c ≠ '\'' ∧ c ≠ '/' ∧ c ≠ '(' ∧ c ≠ ')'

variable {limit depth : Nat}

theorem skipPassage?_plain {c : Char} (plain : c ≠ '"' ∧ c ≠ '\'' ∧ c ≠ '/') (rest : List Char) :
    skipPassage? c rest = none := by
  obtain ⟨h, h', h''⟩ := plain
  simp [skipPassage?, h, h', h'']

theorem tooDeepFrom?_skip {c : Char} {rest after : List Char}
    (h : skipPassage? c rest = some after) :
    tooDeepFrom? limit depth (c :: rest) = tooDeepFrom? limit depth after := by
  rw [tooDeepFrom?]
  split
  · rename_i h'
    rw [h] at h'
    rw [Option.some.inj h']
  · rename_i h'
    rw [h] at h'
    contradiction

theorem tooDeepFrom?_step {c : Char} {rest : List Char} (h : skipPassage? c rest = none) :
    tooDeepFrom? limit depth (c :: rest) =
      if c = '(' then
        if limit ≤ depth then some (c :: rest) else tooDeepFrom? limit (depth + 1) rest
      else if c = ')' then tooDeepFrom? limit (depth - 1) rest
      else tooDeepFrom? limit depth rest := by
  rw [tooDeepFrom?]
  split
  · rename_i h'
    rw [h] at h'
    contradiction
  · rfl

theorem tooDeepFrom?_plain {front : List Char} (plain : ∀ c ∈ front, Plain c) (rest : List Char) :
    tooDeepFrom? limit depth (front ++ rest) = tooDeepFrom? limit depth rest := by
  induction front with
  | nil => rfl
  | cons c front ih =>
    obtain ⟨⟨h, h', h'', opens, closes⟩, plain⟩ := List.forall_mem_cons.mp plain
    rw [List.cons_append, tooDeepFrom?_step (skipPassage?_plain ⟨h, h', h''⟩ _), if_neg opens,
      if_neg closes, ih plain]

theorem skipPassage?_of_comment? {c : Char} {rest front after : List Char}
    (h : comment? (c :: rest) = some (front, after)) : skipPassage? c rest = some after := by
  unfold comment? at h
  split at h
  · rename_i line heq
    obtain ⟨rfl, rfl⟩ := List.cons.inj heq
    obtain ⟨-, rfl⟩ := Prod.mk.inj (Option.some.inj h)
    simp [skipPassage?]
  · rename_i block heq
    obtain ⟨rfl, rfl⟩ := List.cons.inj heq
    obtain ⟨⟨body, r⟩, hblock, heq⟩ := Option.map_eq_some_iff.mp h
    obtain ⟨-, rfl⟩ := Prod.mk.inj heq
    simp [skipPassage?, hblock]
  · contradiction

/-- The scan passes over blanks and comments. -/
theorem tooDeepFrom?_splitTrivia (text : List Char) :
    tooDeepFrom? limit depth text = tooDeepFrom? limit depth (splitTrivia text).2 := by
  fun_induction splitTrivia text with
  | case1 => rfl
  | case2 c rest blank front after hs ih =>
    have plain : ∀ d ∈ [c], Plain d := by
      simp only [isBlank, Bool.or_eq_true, beq_iff_eq] at blank
      rcases blank with ((rfl | rfl) | rfl) | rfl <;> simp [Plain]
    rw [hs] at ih
    exact (tooDeepFrom?_plain plain rest).trans ih
  | case3 c rest blank front after hc more last hs ih =>
    rw [hs] at ih
    exact (tooDeepFrom?_skip (skipPassage?_of_comment? hc)).trans ih
  | case4 => rfl

theorem tooDeepFrom?_comment {front : List Char} (h : Comment front) (rest : List Char) :
    tooDeepFrom? limit depth (front ++ rest) = tooDeepFrom? limit depth rest := by
  rw [tooDeepFrom?_splitTrivia, splitTrivia_of_comment h, ← tooDeepFrom?_splitTrivia]

theorem tooDeepFrom?_string {quote : Char} {body : List Char} (mark : quote = '"' ∨ quote = '\'')
    (closed : Source.quoted? quote (body ++ [quote]) = some (body, [])) (rest : List Char) :
    tooDeepFrom? limit depth (quote :: body ++ [quote] ++ rest) =
      tooDeepFrom? limit depth rest := by
  have hquote : quote ≠ '\\' := by rcases mark with rfl | rfl <;> decide
  have skipped : skipPassage? quote (body ++ [quote] ++ rest) = some rest := by
    unfold skipPassage?
    rw [if_pos mark, Source.quoted?_append hquote closed rest]
    rfl
  exact tooDeepFrom?_skip skipped

theorem plain_of_isNameChar {c : Char} (h : isNameChar c = true) : Plain c := by
  refine ⟨?_, ?_, ?_, ?_, ?_⟩ <;> rintro rfl <;> revert h <;> decide

/-- Only parentheses and the slash are marks with a meaning for the scan. -/
theorem plain_of_mark? {text : List Char} {t : Token} (h : mark? text = some (t, text.length)) :
    t = .lparen ∧ text = ['('] ∨ t = .rparen ∧ text = [')'] ∨
      t = .operator .div ∧ text = ['/'] ∨
      (t ≠ .lparen ∧ t ≠ .rparen) ∧ ∀ c ∈ text, Plain c := by
  unfold mark? at h
  split at h <;> first | contradiction | skip
  all_goals
    obtain ⟨rfl, size⟩ := Prod.mk.inj (Option.some.inj h)
    simp only [List.length_cons, Nat.right_eq_add, List.length_eq_zero_iff] at size
    subst size
    simp [Plain]

/-- Parentheses are counted, and every other token is passed over. -/
theorem passed_of_spelled {t : Token} {text rest : List Char} (spelled : t.Spelled text)
    (clear : ∀ c ∈ rest.head?, t.clear c = true) :
    t = .lparen ∧ text = ['('] ∨ t = .rparen ∧ text = [')'] ∨
      (t ≠ .lparen ∧ t ≠ .rparen) ∧
        ∀ limit depth, tooDeepFrom? limit depth (text ++ rest) = tooDeepFrom? limit depth rest := by
  cases spelled with
  | string mark closed =>
    exact .inr (.inr ⟨by simp, fun _ _ => tooDeepFrom?_string mark closed rest⟩)
  | @number digits fraction suffix present digit fractional suffixed =>
    have plain : ∀ c ∈ digits ++ fraction ++ suffix, Plain c := by
      simp only [List.forall_mem_append]
      refine ⟨⟨fun c hc => plain_of_isNameChar (isNameChar_of_isDigit (digit c hc)), ?_⟩, ?_⟩
      · rcases fractional with rfl | ⟨places, -, digit, rfl⟩
        · simp
        · exact List.forall_mem_cons.mpr ⟨by simp [Plain], fun c hc =>
            plain_of_isNameChar (isNameChar_of_isDigit (digit c hc))⟩
      · rcases suffixed with rfl | ⟨c, hc, rfl⟩
        · simp
        · simpa using plain_of_isNameChar (isNameChar_of_isSuffix hc)
    exact .inr (.inr ⟨by simp, fun _ _ => tooDeepFrom?_plain plain rest⟩)
  | @word c tail start name =>
    have plain : ∀ d ∈ c :: tail, Plain d :=
      List.forall_mem_cons.mpr ⟨plain_of_isNameChar (isNameChar_of_isNameStart start),
        fun d hd => plain_of_isNameChar (name d hd)⟩
    have unmarked : wordToken (c :: tail) ≠ .lparen ∧ wordToken (c :: tail) ≠ .rparen := by
      unfold wordToken
      split <;> [skip; split <;> [skip; split]] <;> simp
    exact .inr (.inr ⟨unmarked, fun _ _ => tooDeepFrom?_plain plain rest⟩)
  | mark marked =>
    rcases plain_of_mark? marked with opens | closes | ⟨rfl, rfl⟩ | ⟨unmarked, plain⟩
    · exact .inl opens
    · exact .inr (.inl closes)
    · have undone : skipPassage? '/' rest = none := by
        cases rest with
        | nil => rfl
        | cons c rest =>
          have hc : ¬ c = '/' ∧ ¬ c = '*' := by simpa [Token.clear] using clear c rfl
          simp [skipPassage?, hc]
      exact .inr (.inr ⟨by simp, fun _ _ => tooDeepFrom?_step undone⟩)
    · exact .inr (.inr ⟨unmarked, fun _ _ => tooDeepFrom?_plain plain rest⟩)

/-- The scan of the characters is a scan of the tokens. -/
theorem deepStart?_eq {text : List Char} {pieces : List Piece} (h : LaidOut text pieces)
    (limit depth offset stop : Nat) (hstop : stop = offset + Source.byteSize text) :
    (tooDeepFrom? limit depth text).map (fun rest => stop - Source.byteSize rest) =
      deepStart? limit depth (Piece.lexemesFrom offset pieces) := by
  induction h generalizing depth offset with
  | done trivia =>
    rw [tooDeepFrom?_splitTrivia, trivia, tooDeepFrom?]
    rfl
  | @piece gap text rest t pieces trivia spelled clear _ ih =>
    have split : (splitTrivia (gap ++ (text ++ rest))).2 = text ++ rest := by
      rw [splitTrivia_of_trivia trivia, spelled.splitTrivia clear]
    simp only [Source.byteSize_append] at hstop
    rw [tooDeepFrom?_splitTrivia, split, Piece.lexemesFrom]
    have later (depth : Nat) := ih depth (offset + Source.byteSize gap + Source.byteSize text)
      (by omega)
    rcases passed_of_spelled spelled clear with ⟨rfl, rfl⟩ | ⟨rfl, rfl⟩ | ⟨unmarked, passed⟩
    · rw [List.singleton_append, tooDeepFrom?_step rfl, if_pos rfl, deepStart?]
      by_cases deep : limit ≤ depth
      · rw [if_pos deep, if_pos deep, Option.map_some, Source.byteSize_cons]
        simp only [Source.byteSize_cons, Source.byteSize_nil] at hstop
        refine congrArg some ?_
        dsimp only
        omega
      · rw [if_neg deep, if_neg deep, later]
    · rw [List.singleton_append, tooDeepFrom?_step rfl, if_neg (by decide), if_pos rfl,
        deepStart?, later]
    · rw [passed, deepStart?_other unmarked, later]

end Nesting

/-! ## The scan agrees with the tree -/

theorem Token.Spelled.byteSize_pos {t : Token} {text : List Char} (spelled : t.Spelled text) :
    0 < Source.byteSize text := by
  obtain ⟨c, rest, rfl, -⟩ := spelled.start
  have := c.utf8Size_pos
  rw [Source.byteSize_cons]
  omega

theorem LaidOut.ordered {text : List Char} {pieces : List Piece} (h : LaidOut text pieces)
    (offset : Nat) : Ordered (Piece.lexemesFrom offset pieces) := by
  induction h generalizing offset with
  | done => exact ⟨.nil, by simp [Piece.lexemesFrom]⟩
  | @piece gap text rest t pieces trivia spelled clear _ ih =>
    obtain ⟨sorted, present⟩ := ih (offset + Source.byteSize gap + Source.byteSize text)
    have := spelled.byteSize_pos
    exact ⟨List.pairwise_cons.mpr ⟨Piece.le_start _ _, sorted⟩,
      List.forall_mem_cons.mpr ⟨by dsimp only; omega, present⟩⟩

/-- Parentheses in quoted texts and comments do not count. -/
inductive Uncounted : List Char → Prop
  | string {quote : Char} {body : List Char} (mark : quote = '"' ∨ quote = '\'')
      (closed : Source.quoted? quote (body ++ [quote]) = some (body, [])) :
      Uncounted (quote :: body ++ [quote])
  | comment {text : List Char} (comment : Comment text) : Uncounted text

section

variable {source : List Char} {script : Script}

theorem tooDeep?_of_laidOut {pieces : List Piece} (laid : LaidOut source pieces) (limit : Nat) :
    Nesting.tooDeep? limit source = deepStart? limit 0 (Piece.lexemesFrom 0 pieces) :=
  Nesting.deepStart?_eq laid limit 0 0 (Source.byteSize source) (Nat.zero_add _).symm

/-- The number of parentheses that a source opens. -/
def openings (source : List Char) : Nat :=
  ((tokens? source).getD []).countP (·.token == .lparen)

theorem deepStart?_eq_none {limit depth : Nat} {ts : List Lexeme}
    (h : depth + ts.countP (·.token == .lparen) ≤ limit) : deepStart? limit depth ts = none := by
  induction ts generalizing depth with
  | nil => rfl
  | cons t rest ih =>
    rw [List.countP_cons] at h
    unfold deepStart?
    split
    · rename_i opens
      rw [opens, if_pos (by decide)] at h
      rw [if_neg (by omega), ih (by omega)]
    · exact ih (by omega)
    · exact ih (by omega)

/-- Parentheses cannot be nested deeper than there are some. -/
theorem tooDeep?_eq_none {pieces : List Piece} (laid : LaidOut source pieces) {limit : Nat}
    (h : openings source ≤ limit) : Nesting.tooDeep? limit source = none := by
  rw [openings, tokens?, laid.tokensFrom?, Option.getD_some] at h
  rw [tooDeep?_of_laidOut laid]
  exact deepStart?_eq_none (by omega)

/-- The scan finds the first group of the tree that is nested too deep. -/
theorem tooDeep?_eq (h : read? source = some script) (limit : Nat) :
    Nesting.tooDeep? limit source =
      deepGroup? limit (script.statements.flatMap Statement.levels) := by
  obtain ⟨pieces, laid, sequence⟩ := laidOut_of_read? h
  rw [← sequence.deepStart? limit, deepStart?_skipSemicolons, tooDeep?_of_laidOut laid]

theorem parse_of_read? (h : read? source = some script) (limit : Nat) :
    parse limit source =
      match deepGroup? limit (script.statements.flatMap Statement.levels) with
      | some offset => .error ⟨.tooDeep (limit + 1) limit, ⟨offset, offset + 1⟩⟩
      | none => .ok script := by
  have scanned := tooDeep?_eq h limit
  cases deep : deepGroup? limit (script.statements.flatMap Statement.levels) with
  | some offset =>
    rw [deep] at scanned
    simp only [parse, scanned]
  | none =>
    rw [deep] at scanned
    simp only [parse, scanned, h]

theorem read?_of_parse {limit : Nat} (h : parse limit source = .ok script) :
    read? source = some script := by
  unfold parse at h
  split at h
  · contradiction
  · split at h
    · rename_i read
      rw [read, Except.ok.inj h]
    · contradiction

theorem levels_placed (h : read? source = some script) :
    ∃ ts, Placed 0 ts (script.statements.flatMap Statement.levels) := by
  obtain ⟨pieces, laid, sequence⟩ := laidOut_of_read? h
  exact ⟨_, sequence.placed (laid.ordered 0).skipSemicolons⟩

/-- A source with a tree is parsed as that tree if no chain of groups, each inside the one before,
is longer than the limit. If one is, the error points to the first parenthesis whose group lies in
too many. -/
theorem parse_nesting (h : read? source = some script) (limit : Nat) :
    (parse limit source = .ok script ↔
      ∀ chain, Nested chain → (∀ g ∈ chain, g ∈ script.groups) → chain.length ≤ limit) ∧
    (parse limit source ≠ .ok script → ∃ g ∈ script.groups, limit < nesting script.groups g ∧
      (∀ g' ∈ script.groups, limit < nesting script.groups g' → g.start ≤ g'.start) ∧
      parse limit source = .error ⟨.tooDeep (limit + 1) limit, ⟨g.start, g.start + 1⟩⟩) ∧
    ∀ passage, Uncounted passage → ∀ depth rest,
      Nesting.tooDeepFrom? limit depth (passage ++ rest) =
        Nesting.tooDeepFrom? limit depth rest := by
  obtain ⟨ts, placed⟩ := levels_placed h
  have uncounted : ∀ passage, Uncounted passage → ∀ depth rest,
      Nesting.tooDeepFrom? limit depth (passage ++ rest) =
        Nesting.tooDeepFrom? limit depth rest := by
    rintro passage (⟨mark, closed⟩ | comment) depth rest
    · exact Nesting.tooDeepFrom?_string mark closed rest
    · exact Nesting.tooDeepFrom?_comment comment rest
  cases hdeep : deepGroup? limit (script.statements.flatMap Statement.levels) with
  | none =>
    have parsed : parse limit source = .ok script := by rw [parse_of_read? h, hdeep]
    refine ⟨⟨fun _ chain nested all => ?_, fun _ => parsed⟩, fun failed => absurd parsed failed,
      uncounted⟩
    rw [script.groups_eq] at all
    exact placed.length_le hdeep nested all
  | some start =>
    have failed : parse limit source = .error ⟨.tooDeep (limit + 1) limit, ⟨start, start + 1⟩⟩ := by
      rw [parse_of_read? h, hdeep]
    obtain ⟨l, hl, deep, first, rfl⟩ := placed.first_deep hdeep
    rw [script.groups_eq]
    refine ⟨⟨fun parsed => ?_, fun short => ?_⟩, fun _ => ?_, uncounted⟩
    · rw [failed] at parsed
      contradiction
    · obtain ⟨chain, nested, all, length⟩ := placed.chained l hl
      have := short chain nested all
      omega
    · exact ⟨l.2, List.mem_map_of_mem hl, by rw [← placed.nesting_eq hl]; exact deep, first, failed⟩

/-- Two groups of which one is inside the other; the other parentheses are in a string and in a
comment. -/
theorem parse_nesting_quoted :
    ∃ script, read? "(a) + '((' /* ( */ * ((b))".toList = some script ∧
      (∀ chain, Nested chain → (∀ g ∈ chain, g ∈ script.groups) → chain.length ≤ 2) ∧
      ∃ g ∈ script.groups, 1 < nesting script.groups g ∧
        parse 1 "(a) + '((' /* ( */ * ((b))".toList =
          .error ⟨.tooDeep 2 1, ⟨g.start, g.start + 1⟩⟩ := by
  have present : (read? "(a) + '((' /* ( */ * ((b))".toList).isSome := by decide +kernel
  have two : (parse 2 "(a) + '((' /* ( */ * ((b))".toList).map (fun _ => ()) = .ok () := by
    decide +kernel
  have one : (parse 1 "(a) + '((' /* ( */ * ((b))".toList).map (fun _ => ()) =
      .error ⟨.tooDeep 2 1, ⟨22, 23⟩⟩ := by
    decide +kernel
  obtain ⟨script, read⟩ := Option.isSome_iff_exists.mp present
  obtain ⟨within, -, -⟩ := parse_nesting read 2
  obtain ⟨-, beyond, -⟩ := parse_nesting read 1
  have shallow : parse 2 "(a) + '((' /* ( */ * ((b))".toList = .ok script := by
    by_contra failed
    obtain ⟨-, otherwise, -⟩ := parse_nesting read 2
    obtain ⟨g, -, -, -, error⟩ := otherwise failed
    rw [error] at two
    contradiction
  have deep : parse 1 "(a) + '((' /* ( */ * ((b))".toList ≠ .ok script := by
    intro parsed
    rw [parsed] at one
    contradiction
  obtain ⟨g, hg, hdeep, -, error⟩ := beyond deep
  exact ⟨script, read, within.mp shallow, g, hg, hdeep, error⟩

end

end Scriptlet.Grammar
