import Scriptlet.Proofs.Grammar.Yield

/-!
# Trees without their ranges

A tree is read from its tokens alone. Where two lists have the same tokens, what is read from them
differs in its ranges only.
-/
namespace Scriptlet.Grammar

def Sign.bare (s : Sign) : Sign := ⟨s.op, .origin⟩

mutual

def Primary.bare : Primary → Primary
  | .leaf l _ => .leaf l .origin
  | .group inner _ => .group inner.bare .origin

def Operand.bare : Operand → Operand
  | .mk signs primary => .mk (signs.map Sign.bare) primary.bare

def Links.bare : Links → Links
  | .nil => .nil
  | .cons op _ operand rest => .cons op .origin operand.bare rest.bare

/-- A tree with the empty range everywhere. -/
def Expression.bare : Expression → Expression
  | .mk first links _ => .mk first.bare links.bare .origin

end

def Statement.bare : Statement → Statement
  | .expression e => .expression e.bare
  | .assignment name _ value => .assignment name .origin value.bare

theorem tokensOf_eq_cons {ts : List Lexeme} {token : Token} {rest : List Token}
    (h : tokensOf ts = token :: rest) :
    ∃ span ts', ts = ⟨token, span⟩ :: ts' ∧ tokensOf ts' = rest := by
  obtain ⟨t, ts', rfl, rfl, rfl⟩ := List.map_eq_cons_iff.mp h
  exact ⟨t.span, ts', rfl, rfl⟩

theorem readSigns_of_tokens (size : Nat) (signs : List Sign) {ts : List Lexeme} {a : Token}
    {rest : List Token} (ha : a ≠ .bang ∧ a ≠ .operator .sub)
    (h : tokensOf ts = tokensOf (signs.map Sign.lexeme) ++ a :: rest) :
    (readSigns size ts).1.map Sign.bare = signs.map Sign.bare ∧
      tokensOf (readSigns size ts).2 = a :: rest := by
  induction signs generalizing ts with
  | nil =>
    obtain ⟨span, ts', rfl, hrest⟩ := tokensOf_eq_cons h
    unfold readSigns
    split
    · rename_i hbang
      exact absurd hbang ha.1
    · rename_i hminus
      exact absurd hminus ha.2
    · exact ⟨rfl, h⟩
  | cons sign rest' ih =>
    obtain ⟨op, place⟩ := sign
    rw [List.map_cons, tokensOf_cons, List.cons_append] at h
    obtain ⟨span, ts', rfl, hrest⟩ := tokensOf_eq_cons h
    obtain ⟨signs, after⟩ := ih hrest
    cases op with
    | neg => exact ⟨congrArg (_ :: ·) signs, after⟩
    | not => exact ⟨congrArg (_ :: ·) signs, after⟩

theorem Primary.unsigned (p : Primary) :
    ∃ a rest, tokensOf p.lexemes = a :: rest ∧ a ≠ .bang ∧ a ≠ .operator .sub := by
  cases p with
  | leaf l span => exact ⟨_, _, rfl, by simp⟩
  | group inner span => exact ⟨_, _, by rw [lexemes, tokensOf_cons], by simp⟩

mutual

theorem readPrimary_of_tokens (size : Nat) {ts : List Lexeme} {rest : List Token} :
    ∀ p : Primary, tokensOf ts = tokensOf p.lexemes ++ rest →
      ∃ r, readPrimary size ts = some r ∧ r.1.1.bare = p.bare ∧ tokensOf r.1.2 = rest
  | .leaf l place, h => by
    obtain ⟨span, ts', rfl, hrest⟩ := tokensOf_eq_cons h
    exact ⟨_, by rw [readPrimary], rfl, hrest⟩
  | .group inner place, h => by
    simp only [Primary.lexemes, tokensOf_cons, tokensOf_append, tokensOf_nil, List.cons_append,
      List.append_assoc, List.nil_append] at h
    obtain ⟨span, ts', rfl, hrest⟩ := tokensOf_eq_cons h
    obtain ⟨⟨⟨e, after⟩, hlt⟩, hread, hbare, hafter⟩ := readExpression_of_tokens size inner hrest
      (by simp)
    obtain ⟨close, last, rfl, hlast⟩ := tokensOf_eq_cons hafter
    rw [readPrimary]
    simp only [hread]
    exact ⟨_, rfl, by rw [Primary.bare, Primary.bare, ← hbare], hlast⟩

theorem readOperand_of_tokens (size : Nat) {ts : List Lexeme} {rest : List Token} :
    ∀ o : Operand, tokensOf ts = tokensOf o.lexemes ++ rest →
      ∃ r, readOperand size ts = some r ∧ r.1.1.bare = o.bare ∧ tokensOf r.1.2 = rest
  | .mk signs primary, h => by
    rw [Operand.lexemes, tokensOf_append, List.append_assoc] at h
    obtain ⟨a, rest', hp, ha⟩ := primary.unsigned
    rw [hp, List.cons_append] at h
    obtain ⟨hsigns, hprimary⟩ := readSigns_of_tokens size signs ha h
    rw [← List.cons_append, ← hp] at hprimary
    obtain ⟨⟨⟨p, after⟩, hlt⟩, hread, hbare, hafter⟩ :=
      readPrimary_of_tokens size primary hprimary
    rw [readOperand]
    simp only [hread]
    exact ⟨_, rfl, by rw [Operand.bare, Operand.bare, hsigns, ← hbare], hafter⟩

theorem readLinks_of_tokens (size : Nat) {ts : List Lexeme} {rest : List Token}
    (stops : ∀ op, rest.head? ≠ some (.operator op)) :
    ∀ links : Links, tokensOf ts = tokensOf links.lexemes ++ rest →
      ∃ r, readLinks size ts = some r ∧ r.1.1.bare = links.bare ∧ tokensOf r.1.2 = rest
  | .nil, h => by
    rw [readLinks.eq_def]
    split
    · exact ⟨_, rfl, rfl, h⟩
    · rename_i t ts'
      split
      · rename_i op hop
        have spelled : t.token :: tokensOf ts' = rest := h
        have head : rest.head? = some t.token := by rw [← spelled, List.head?_cons]
        exact absurd (head.trans (congrArg some hop)) (stops op)
      · exact ⟨_, rfl, rfl, h⟩
  | .cons op place operand rest', h => by
    simp only [Links.lexemes, tokensOf_cons, tokensOf_append, List.cons_append,
      List.append_assoc] at h
    obtain ⟨span, ts', rfl, hrest⟩ := tokensOf_eq_cons h
    obtain ⟨⟨⟨o, after⟩, hlt⟩, hread, hbare, hafter⟩ := readOperand_of_tokens size operand hrest
    obtain ⟨⟨⟨links, last⟩, hle⟩, hread', hbare', hlast⟩ :=
      readLinks_of_tokens size stops rest' hafter
    rw [readLinks]
    simp only [hread, hread']
    exact ⟨_, rfl, by rw [Links.bare, Links.bare, ← hbare, ← hbare'], hlast⟩

theorem readExpression_of_tokens (size : Nat) {ts : List Lexeme} {rest : List Token} :
    ∀ e : Expression, tokensOf ts = tokensOf e.lexemes ++ rest →
      (∀ op, rest.head? ≠ some (.operator op)) →
      ∃ r, readExpression size ts = some r ∧ r.1.1.bare = e.bare ∧ tokensOf r.1.2 = rest
  | .mk first links place, h, stops => by
    rw [Expression.lexemes, tokensOf_append, List.append_assoc] at h
    obtain ⟨⟨⟨o, after⟩, hlt⟩, hread, hbare, hafter⟩ := readOperand_of_tokens size first h
    obtain ⟨⟨⟨links', last⟩, hle⟩, hread', hbare', hlast⟩ :=
      readLinks_of_tokens size stops links hafter
    rw [readExpression]
    simp only [hread, hread']
    exact ⟨_, rfl, by rw [Expression.bare, Expression.bare, ← hbare, ← hbare'], hlast⟩

end

/-- A statement is read as far as its tokens go, if neither an operator nor `=` follows. -/
theorem readStatement_of_tokens (size : Nat) {s : Statement} {front ts : List Lexeme}
    {rest : List Token} (spelled : s.Spelled front) (h : tokensOf ts = tokensOf front ++ rest)
    (stops : ∀ op, rest.head? ≠ some (.operator op)) (unassigned : rest.head? ≠ some .assign) :
    ∃ r, readStatement size ts = some r ∧ r.1.1.bare = s.bare ∧ tokensOf r.1.2 = rest := by
  cases spelled with
  | expression e =>
    obtain ⟨⟨⟨e', after⟩, hlt⟩, hread, hbare, hafter⟩ := readExpression_of_tokens size e h stops
    rw [readStatement.eq_def]
    split
    · rename_i name nameSpan span ts'
      rcases e.phrase.opens with ⟨a, tail, he, -⟩
      rw [he] at h
      obtain ⟨rfl, htail⟩ := List.cons.inj h
      cases tail with
      | nil => exact absurd (congrArg List.head? htail).symm unassigned
      | cons b more =>
        have hb : Token.assign = b := (List.cons.inj htail).1
        exact absurd hb.symm (e.inner b (by rw [he]; simp)).1
    · simp only [hread]
      exact ⟨_, rfl, by rw [Statement.bare, Statement.bare, ← hbare], hafter⟩
  | assignment name nameSpan span value =>
    simp only [tokensOf_cons, List.cons_append] at h
    obtain ⟨nameSpan', ts', rfl, hassign⟩ := tokensOf_eq_cons h
    obtain ⟨span', ts'', rfl, hvalue⟩ := tokensOf_eq_cons hassign
    obtain ⟨⟨⟨e', after⟩, hlt⟩, hread, hbare, hafter⟩ :=
      readExpression_of_tokens size value hvalue stops
    simp only [readStatement, hread]
    exact ⟨_, rfl, by rw [Statement.bare, Statement.bare, ← hbare], hafter⟩

theorem tokensOf_skipSemicolons {ts ts' : List Lexeme} (h : tokensOf ts = tokensOf ts') :
    tokensOf (skipSemicolons ts) = tokensOf (skipSemicolons ts') := by
  have dropped (ts : List Lexeme) :
      tokensOf (skipSemicolons ts) = (tokensOf ts).dropWhile (· == .semicolon) := by
    rw [tokensOf, tokensOf, List.dropWhile_map]
    rfl
  rw [dropped, dropped, h]

/-- No statement starts with a semicolon. -/
theorem Statement.Spelled.skipSemicolons_append {s : Statement} {ts : List Lexeme} (h : s.Spelled ts)
    (rest : List Lexeme) : skipSemicolons (ts ++ rest) = ts ++ rest := by
  obtain ⟨a, tail, heq, opens⟩ := h.phrase.opens
  obtain ⟨span, ts, rfl, -⟩ := tokensOf_eq_cons heq
  have other : ¬ (a == .semicolon) = true := by
    intro semicolon
    rw [eq_of_beq semicolon] at opens
    contradiction
  exact List.dropWhile_cons_of_neg other

theorem Sequence.skipSemicolons_eq {ts : List Lexeme} {ss : List Statement} (h : Sequence ts ss) :
    skipSemicolons ts = ts := by
  cases h with
  | nil => rfl
  | last spelled => simpa only [List.append_nil] using spelled.skipSemicolons_append []
  | more spelled => exact spelled.skipSemicolons_append _

theorem readStatements_last {size : Nat} {ts : List Lexeme} {s : Statement} {hlt}
    (h : readStatement size ts = some ⟨(s, []), hlt⟩) : readStatements size ts = some [s] := by
  cases ts with
  | nil => simp at hlt
  | cons t rest =>
    rw [readStatements]
    simp only [h]

theorem readStatements_more {size : Nat} {ts more : List Lexeme} {s : Statement} {next : Lexeme}
    {hlt} (h : readStatement size ts = some ⟨(s, next :: more), hlt⟩)
    (semicolon : next.token = .semicolon) :
    readStatements size ts = (readStatements size (skipSemicolons more)).map (s :: ·) := by
  cases ts with
  | nil => simp at hlt
  | cons t rest =>
    rw [readStatements]
    simp only [h, if_pos semicolon]

/-- Statements are read from any list that has the tokens of statements. -/
theorem readStatements_of_tokens (size : Nat) {ts front : List Lexeme} {ss : List Statement}
    (spelled : Sequence front ss) (h : tokensOf ts = tokensOf front) :
    ∃ ss', readStatements size ts = some ss' ∧ ss'.map Statement.bare = ss.map Statement.bare := by
  induction spelled generalizing ts with
  | nil =>
    obtain rfl := List.map_eq_nil_iff.mp h
    exact ⟨[], by rw [readStatements], rfl⟩
  | @last s front spelled =>
    rw [← List.append_nil (tokensOf front)] at h
    obtain ⟨⟨⟨s', after⟩, hlt⟩, hread, hbare, hafter⟩ :=
      readStatement_of_tokens size spelled h (by simp) (by simp)
    obtain rfl := List.map_eq_nil_iff.mp hafter
    exact ⟨[s'], readStatements_last hread, congrArg (· :: []) hbare⟩
  | @more s front rest t ss spelled semicolon _ ih =>
    rw [tokensOf_append, tokensOf_cons, semicolon] at h
    obtain ⟨⟨⟨s', after⟩, hlt⟩, hread, hbare, hafter⟩ :=
      readStatement_of_tokens size spelled h (by simp) (by simp)
    obtain ⟨span, more, rfl, hmore⟩ := tokensOf_eq_cons hafter
    obtain ⟨ss', hss, hbares⟩ := ih (tokensOf_skipSemicolons hmore)
    refine ⟨s' :: ss', ?_, by rw [List.map_cons, List.map_cons, ← hbare, hbares]⟩
    rw [readStatements_more hread rfl, hss, Option.map_some]

end Scriptlet.Grammar
