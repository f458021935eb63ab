import Scriptlet.Proofs.Grammar.Depth
import Scriptlet.Proofs.Grammar.Reread

/-!
# More blanks before a token

Blanks and a comment may be inserted before any token. The tokens stay what they are, only their
ranges move, and so does what is read from them.
-/
namespace Scriptlet.Grammar

/-- Blanks, of which there is one, and maybe a comment after them. -/
def Filler (text : List Char) : Prop :=
  ∃ blanks tail, blanks ≠ [] ∧ (∀ c ∈ blanks, isBlank c = true) ∧ (tail = [] ∨ Comment tail) ∧
    text = blanks ++ tail

theorem Filler.trivia {text : List Char} (h : Filler text) : Trivia text := by
  obtain ⟨blanks, tail, -, blank, rfl | comment, rfl⟩ := h
  · exact (Trivia.blanks blank).append .nil
  · have closed := Trivia.comment comment .nil
    rw [List.append_nil] at closed
    exact (Trivia.blanks blank).append closed

theorem Filler.starts {text : List Char} (h : Filler text) :
    ∃ c rest, text = c :: rest ∧ isBlank c = true := by
  obtain ⟨blanks, tail, present, blank, -, rfl⟩ := h
  obtain ⟨c, blanks, rfl⟩ := List.exists_cons_of_ne_nil present
  exact ⟨c, blanks ++ tail, rfl, blank c (List.mem_cons_self ..)⟩

/-- Every token ends before a blank. -/
theorem Token.clear_of_blank (t : Token) {c : Char} (h : isBlank c = true) : t.clear c = true := by
  simp only [isBlank, Bool.or_eq_true, beq_iff_eq] at h
  rcases h with ((rfl | rfl) | rfl) | rfl
  all_goals
    cases t with
    | leaf l => cases l <;> rfl
    | operator op => cases op <;> rfl
    | _ => rfl

theorem eq_nil_of_byteSize {text : List Char} (h : Source.byteSize text = 0) : text = [] := by
  cases text with
  | nil => rfl
  | cons c rest =>
    have := c.utf8Size_pos
    rw [Source.byteSize_cons] at h
    omega

/-- Of two texts that start the same way, the one with more bytes goes on where the other ends. -/
theorem append_of_byteSize_le {front back front' back' : List Char}
    (h : front ++ back = front' ++ back') (le : Source.byteSize front ≤ Source.byteSize front') :
    ∃ middle, front' = front ++ middle ∧ back = middle ++ back' := by
  rcases List.append_eq_append_iff.mp h with ⟨middle, h₁, h₂⟩ | ⟨middle, rfl, rfl⟩
  · exact ⟨middle, h₁, h₂⟩
  · rw [Source.byteSize_append] at le
    obtain rfl : middle = [] := eq_nil_of_byteSize (by omega)
    exact ⟨[], by simp, by simp⟩

/-- A filler before a token becomes part of the gap there. -/
theorem LaidOut.insert {text front back filler : List Char} {pieces : List Piece}
    (h : LaidOut text pieces) (hfiller : Filler filler) {offset : Nat} {l : Lexeme}
    (hl : l ∈ Piece.lexemesFrom offset pieces) (split : text = front ++ back)
    (start : l.span.start = offset + Source.byteSize front) :
    ∃ pieces', LaidOut (front ++ filler ++ back) pieces' ∧
      pieces'.map (·.token) = pieces.map (·.token) := by
  induction h generalizing offset front with
  | done => cases hl
  | @piece gap text rest t pieces trivia spelled clear later ih =>
    rcases List.mem_cons.mp hl with rfl | hl
    · have gapSize : Source.byteSize gap = Source.byteSize front := Nat.add_left_cancel start
      obtain ⟨middle, rfl, hback⟩ := append_of_byteSize_le split (Nat.le_of_eq gapSize)
      rw [Source.byteSize_append] at gapSize
      obtain rfl : middle = [] := eq_nil_of_byteSize (by omega)
      rw [List.nil_append] at hback
      subst hback
      refine ⟨⟨gap ++ filler, t, text⟩ :: pieces, ?_, rfl⟩
      rw [List.append_nil]
      exact .piece (trivia.append hfiller.trivia) spelled clear later
    · have after : offset + Source.byteSize gap + Source.byteSize text ≤ l.span.start :=
        Piece.le_start _ _ l hl
      have le : Source.byteSize (gap ++ text) ≤ Source.byteSize front := by
        rw [Source.byteSize_append]
        omega
      rw [← List.append_assoc] at split
      obtain ⟨middle, rfl, rfl⟩ := append_of_byteSize_le split le
      simp only [Source.byteSize_append] at start
      obtain ⟨pieces', laid, tokens⟩ := ih hl rfl (by dsimp only; omega)
      refine ⟨⟨gap, t, text⟩ :: pieces', ?_, congrArg (t :: ·) tokens⟩
      have clear' : ∀ c ∈ (middle ++ filler ++ back).head?, t.clear c = true := by
        cases middle with
        | nil =>
          obtain ⟨d, tail, rfl, blank⟩ := hfiller.starts
          intro c hc
          obtain rfl := Option.some.inj hc
          exact t.clear_of_blank blank
        | cons d middle => exact clear
      simpa only [List.append_assoc] using LaidOut.piece trivia spelled clear' laid

/-- Whether there are too many open parentheses somewhere is a matter of the tokens alone. -/
theorem deepStart?_isSome_congr (limit : Nat) {depth : Nat} {ts ts' : List Lexeme}
    (h : tokensOf ts = tokensOf ts') :
    (deepStart? limit depth ts).isSome = (deepStart? limit depth ts').isSome := by
  induction ts generalizing depth ts' with
  | nil =>
    obtain rfl := List.map_eq_nil_iff.mp h.symm
    rfl
  | cons t rest ih =>
    obtain ⟨token, span⟩ := t
    obtain ⟨span', rest', rfl, later⟩ := tokensOf_eq_cons h.symm
    unfold deepStart?
    dsimp only
    split
    · split
      · rfl
      · exact ih later.symm
    · exact ih later.symm
    · exact ih later.symm

/-- A text that is laid out in the tokens of statements has a tree, which is theirs but for the
ranges. -/
theorem LaidOut.read? {text : List Char} {pieces : List Piece} {front : List Lexeme}
    {ss : List Statement} (h : LaidOut text pieces) (sequence : Sequence front ss)
    (tokens : tokensOf (skipSemicolons (Piece.lexemesFrom 0 pieces)) = tokensOf front) :
    ∃ script, Grammar.read? text = some script ∧
      script.statements.map Statement.bare = ss.map Statement.bare := by
  obtain ⟨statements, read, bare⟩ :=
    readStatements_of_tokens (Source.byteSize text) sequence tokens
  exact ⟨⟨statements, Source.byteSize text⟩, by
    rw [Grammar.read?, tokens?, h.tokensFrom?, Option.bind_some, read, Option.map_some], bare⟩

/-- So is it parsed if it opens no more parentheses than the limit. -/
theorem LaidOut.parse {text : List Char} {pieces : List Piece} {front : List Lexeme}
    {ss : List Statement} {limit : Nat} (h : LaidOut text pieces) (sequence : Sequence front ss)
    (tokens : pieces.map (·.token) = tokensOf front)
    (few : pieces.countP (·.token == .lparen) ≤ limit) :
    ∃ script, Grammar.parse limit text = .ok script ∧
      script.statements.map Statement.bare = ss.map Statement.bare := by
  have same : tokensOf (Piece.lexemesFrom 0 pieces) = tokensOf front := by
    rw [Piece.tokensOf_lexemesFrom, tokens]
  obtain ⟨script, read, bare⟩ := h.read? sequence
    ((tokensOf_skipSemicolons same).trans (by rw [sequence.skipSemicolons_eq]))
  have counted (offset : Nat) : (Piece.lexemesFrom offset pieces).countP (·.token == .lparen) =
      pieces.countP (·.token == .lparen) := by
    have mapped := congrArg (List.countP (· == .lparen)) (Piece.tokensOf_lexemesFrom offset pieces)
    rwa [tokensOf, List.countP_map, List.countP_map] at mapped
  have shallow : Nesting.tooDeep? limit text = none := by
    refine tooDeep?_eq_none h ?_
    rwa [openings, tokens?, h.tokensFrom?, Option.getD_some, counted]
  exact ⟨script, by rw [Grammar.parse, shallow, read], bare⟩

/-- The answer where the scan finds a parenthesis nested too deep. -/
def tooDeepAt (limit offset : Nat) : ParseError :=
  ⟨.tooDeep (limit + 1) limit, ⟨offset, offset + 1⟩⟩

/-- With a filler before a token a source is parsed if it was before, and as the same tree but for
the ranges. -/
theorem parse_insert {front back filler : List Char} {script : Script} {l : Lexeme}
    {ts : List Lexeme} (h : read? (front ++ back) = some script)
    (htokens : tokens? (front ++ back) = some ts) (hl : l ∈ ts)
    (start : l.span.start = Source.byteSize front) (hfiller : Filler filler) (limit : Nat) :
    (∃ script', parse limit (front ++ back) = .ok script ∧
      parse limit (front ++ filler ++ back) = .ok script' ∧
      script'.statements.map Statement.bare = script.statements.map Statement.bare) ∨
    ∃ offset offset', parse limit (front ++ back) = .error (tooDeepAt limit offset) ∧
      parse limit (front ++ filler ++ back) = .error (tooDeepAt limit offset') := by
  obtain ⟨pieces, laid, sequence⟩ := laidOut_of_read? h
  obtain rfl := Option.some.inj (htokens.symm.trans (laid.tokensFrom? 0))
  obtain ⟨pieces', laid', tokens⟩ := laid.insert hfiller hl rfl (by rw [start, Nat.zero_add])
  have same : tokensOf (Piece.lexemesFrom 0 pieces') = tokensOf (Piece.lexemesFrom 0 pieces) := by
    rw [Piece.tokensOf_lexemesFrom, Piece.tokensOf_lexemesFrom, tokens]
  obtain ⟨script', read', bare⟩ := laid'.read? sequence (tokensOf_skipSemicolons same)
  have deep : (Nesting.tooDeep? limit (front ++ filler ++ back)).isSome =
      (Nesting.tooDeep? limit (front ++ back)).isSome := by
    rw [tooDeep?_of_laidOut laid, tooDeep?_of_laidOut laid', deepStart?_isSome_congr limit same]
  unfold parse
  rw [h, read']
  cases hdeep : Nesting.tooDeep? limit (front ++ back) with
  | none =>
    rw [hdeep, Option.isSome_none, Option.isSome_eq_false_iff, Option.isNone_iff_eq_none] at deep
    rw [deep]
    exact .inl ⟨_, rfl, rfl, bare⟩
  | some offset =>
    rw [hdeep, Option.isSome_some] at deep
    obtain ⟨offset', hdeep'⟩ := Option.isSome_iff_exists.mp deep
    rw [hdeep']
    exact .inr ⟨offset, offset', rfl, rfl⟩

end Scriptlet.Grammar
