import Mathlib.Data.List.Chain
import Mathlib.Data.List.TakeWhile
import Scriptlet.Grammar.Outline
import Scriptlet.Grammar.Reader

/-!
# The tokens of a tree

Reading a tree forgets none of its tokens: they can be listed again from the tree. And tokens that
can be listed from a tree are read as that tree, but for the ranges, which are those of the tokens.
-/
namespace Scriptlet.Grammar

/-! ## Listing the tokens -/

/-- A sign is one byte long, whatever follows it. -/
def Sign.lexeme (s : Sign) : Lexeme :=
  ⟨match s.op with | .neg => .operator .sub | .not => .bang,
    ⟨s.span.start, s.span.start + 1⟩⟩

mutual

def Primary.lexemes : Primary → List Lexeme
  | .leaf l span => [⟨.leaf l, span⟩]
  | .group inner span =>
    ⟨.lparen, ⟨span.start, span.start + 1⟩⟩ ::
      (inner.lexemes ++ [⟨.rparen, ⟨span.stop - 1, span.stop⟩⟩])

def Operand.lexemes : Operand → List Lexeme
  | .mk signs primary => signs.map Sign.lexeme ++ primary.lexemes

def Links.lexemes : Links → List Lexeme
  | .nil => []
  | .cons op span operand rest => ⟨.operator op, span⟩ :: (operand.lexemes ++ rest.lexemes)

def Expression.lexemes : Expression → List Lexeme
  | .mk first links _ => first.lexemes ++ links.lexemes

end

/-- The tokens of a statement. Nothing is known of the range of `=`. -/
inductive Statement.Spelled : Statement → List Lexeme → Prop
  | expression (e : Expression) : Spelled (.expression e) e.lexemes
  | assignment (name : List Char) (nameSpan span : Span) (value : Expression) :
    Spelled (.assignment name nameSpan value)
      (⟨.leaf (.ident name), nameSpan⟩ :: ⟨.assign, span⟩ :: value.lexemes)

/-- The tokens of statements: semicolons divide them, and may follow the last one. -/
inductive Sequence : List Lexeme → List Statement → Prop
  | nil : Sequence [] []
  | last {s : Statement} {ts : List Lexeme} (spelled : s.Spelled ts) : Sequence ts [s]
  | more {s : Statement} {ts rest : List Lexeme} {t : Lexeme} {ss : List Statement}
      (spelled : s.Spelled ts) (semicolon : t.token = .semicolon)
      (later : Sequence (skipSemicolons rest) ss) : Sequence (ts ++ t :: rest) (s :: ss)

/-- The marks that a tree keeps only the start or the end of are one byte long. -/
def Lexeme.Narrow (t : Lexeme) : Prop :=
  t.token = .bang ∨ t.token = .operator .sub ∨ t.token = .lparen ∨ t.token = .rparen →
    t.span.stop = t.span.start + 1

theorem Lexeme.eq_of_narrow {t : Lexeme} {token : Token} (narrow : t.Narrow)
    (h : t.token = token) (mark : token = .bang ∨ token = .operator .sub ∨ token = .lparen ∨
      token = .rparen) : t = ⟨token, ⟨t.span.start, t.span.start + 1⟩⟩ := by
  obtain ⟨token', ⟨start, stop⟩⟩ := t
  have : stop = start + 1 := narrow (h ▸ mark)
  simp_all

/-! ## Reading lists them again -/

section

variable {size : Nat} {ts : List Lexeme}

theorem readSigns_lexemes (narrow : ∀ t ∈ ts, t.Narrow) :
    ts = (readSigns size ts).1.map Sign.lexeme ++ (readSigns size ts).2 := by
  induction ts with
  | nil => rfl
  | cons t rest ih =>
    obtain ⟨first, narrow⟩ := List.forall_mem_cons.mp narrow
    unfold readSigns
    split
    · rename_i hbang
      have ht := Lexeme.eq_of_narrow first hbang (.inl rfl)
      simp only [List.map_cons, List.cons_append, ← ih narrow]
      exact congrArg (· :: rest) ht
    · rename_i hminus
      have ht := Lexeme.eq_of_narrow first hminus (.inr (.inl rfl))
      simp only [List.map_cons, List.cons_append, ← ih narrow]
      exact congrArg (· :: rest) ht
    · rfl

theorem readClose_lexemes {start : Nat} {inner : Expression} {rest : List Lexeme} {p : Primary}
    (narrow : ∀ t ∈ ts, t.Narrow) (h : readClose start inner ts = some (p, rest)) :
    ⟨.lparen, ⟨start, start + 1⟩⟩ :: (inner.lexemes ++ ts) = p.lexemes ++ rest := by
  unfold readClose at h
  split at h
  · rename_i t after
    split at h
    · rename_i hclose
      obtain ⟨rfl, rfl⟩ := Prod.mk.inj (Option.some.inj h)
      have ht := Lexeme.eq_of_narrow (narrow t (List.mem_cons_self ..)) hclose
        (.inr (.inr (.inr rfl)))
      have stop : t.span.stop = t.span.start + 1 :=
        narrow t (List.mem_cons_self ..) (.inr (.inr (.inr hclose)))
      simp only [Primary.lexemes, List.cons_append, List.append_assoc, List.nil_append, stop,
        Nat.add_sub_cancel, ← ht]
    · contradiction
  · contradiction

theorem suffix_narrow {front rest : List Lexeme} (h : ts = front ++ rest)
    (narrow : ∀ t ∈ ts, t.Narrow) : ∀ t ∈ rest, t.Narrow := by
  subst h
  exact fun t ht => narrow t (List.mem_append_right front ht)

end

mutual

theorem readPrimary_lexemes (size : Nat) (ts : List Lexeme) (narrow : ∀ t ∈ ts, t.Narrow)
    {r : { r : Primary × List Lexeme // r.2.length < ts.length }}
    (h : readPrimary size ts = some r) : ts = r.1.1.lexemes ++ r.1.2 := by
  rw [readPrimary.eq_def] at h
  split at h
  · contradiction
  · rename_i t rest
    obtain ⟨first, later⟩ := List.forall_mem_cons.mp narrow
    split at h
    · rename_i l hl
      obtain rfl := Option.some.inj h
      obtain ⟨token, span⟩ := t
      obtain rfl := hl
      rfl
    · rename_i hopen
      split at h
      · contradiction
      · rename_i inner after hlt hinner
        have hrest := readExpression_lexemes size rest later hinner
        split at h
        · contradiction
        · rename_i group last hclose
          obtain rfl := Option.some.inj h
          have ht := Lexeme.eq_of_narrow first hopen (.inr (.inr (.inl rfl)))
          rw [← readClose_lexemes (suffix_narrow hrest later) hclose, ← hrest, ← ht]
    · contradiction
termination_by 4 * ts.length

theorem readOperand_lexemes (size : Nat) (ts : List Lexeme) (narrow : ∀ t ∈ ts, t.Narrow)
    {r : { r : Operand × List Lexeme // r.2.length < ts.length }}
    (h : readOperand size ts = some r) : ts = r.1.1.lexemes ++ r.1.2 := by
  rw [readOperand] at h
  split at h
  · contradiction
  · rename_i primary rest hlt hprimary
    obtain rfl := Option.some.inj h
    have hsigns : ts = (readSigns size ts).1.map Sign.lexeme ++ (readSigns size ts).2 :=
      readSigns_lexemes narrow
    have hrest := readPrimary_lexemes size _ (suffix_narrow hsigns narrow) hprimary
    rw [Operand.lexemes, List.append_assoc, ← hrest, ← hsigns]
termination_by 4 * ts.length + 1
decreasing_by
  have := length_readSigns_le size ts
  omega

theorem readLinks_lexemes (size : Nat) (ts : List Lexeme) (narrow : ∀ t ∈ ts, t.Narrow)
    {r : { r : Links × List Lexeme // r.2.length ≤ ts.length }}
    (h : readLinks size ts = some r) : ts = r.1.1.lexemes ++ r.1.2 := by
  rw [readLinks.eq_def] at h
  split at h
  · obtain rfl := Option.some.inj h
    rfl
  · rename_i t rest
    obtain ⟨first, later⟩ := List.forall_mem_cons.mp narrow
    split at h
    · rename_i op hop
      split at h
      · contradiction
      · rename_i operand after hlt hoperand
        have shorter : after.length < rest.length := hlt
        have hrest := readOperand_lexemes size rest later hoperand
        split at h
        · contradiction
        · rename_i links last hle hlinks
          obtain rfl := Option.some.inj h
          have hafter := readLinks_lexemes size after (suffix_narrow hrest later) hlinks
          obtain ⟨token, span⟩ := t
          obtain rfl := hop
          rw [Links.lexemes, List.cons_append, List.append_assoc, ← hafter, ← hrest]
    · obtain rfl := Option.some.inj h
      rfl
termination_by 4 * ts.length + 2
decreasing_by
  all_goals
    have := congrArg List.length ‹ts = _ :: _›
    simp only [List.length_cons] at this
    omega

theorem readExpression_lexemes (size : Nat) (ts : List Lexeme) (narrow : ∀ t ∈ ts, t.Narrow)
    {r : { r : Expression × List Lexeme // r.2.length < ts.length }}
    (h : readExpression size ts = some r) : ts = r.1.1.lexemes ++ r.1.2 := by
  rw [readExpression] at h
  split at h
  · contradiction
  · rename_i first rest hlt hfirst
    have shorter : rest.length < ts.length := hlt
    have hrest := readOperand_lexemes size ts narrow hfirst
    split at h
    · contradiction
    · rename_i links after hle hlinks
      obtain rfl := Option.some.inj h
      have hafter := readLinks_lexemes size rest (suffix_narrow hrest narrow) hlinks
      rw [Expression.lexemes, List.append_assoc, ← hafter, ← hrest]
termination_by 4 * ts.length + 3

end

theorem readStatement_spelled {size : Nat} {ts : List Lexeme} (narrow : ∀ t ∈ ts, t.Narrow)
    {r : { r : Statement × List Lexeme // r.2.length < ts.length }}
    (h : readStatement size ts = some r) : ∃ front, r.1.1.Spelled front ∧ ts = front ++ r.1.2 := by
  unfold readStatement at h
  split at h
  · rename_i name nameSpan span rest
    split at h
    · contradiction
    · rename_i value after hlt hvalue
      obtain rfl := Option.some.inj h
      have later : ∀ t ∈ rest, t.Narrow := fun t ht =>
        narrow t (List.mem_cons_of_mem _ (List.mem_cons_of_mem _ ht))
      refine ⟨_, .assignment name nameSpan span value, ?_⟩
      rw [List.cons_append, List.cons_append, ← readExpression_lexemes size rest later hvalue]
  · split at h
    · contradiction
    · rename_i e after hlt he
      obtain rfl := Option.some.inj h
      exact ⟨_, .expression e, readExpression_lexemes size ts narrow he⟩

theorem skipSemicolons_append (ts : List Lexeme) :
    ∃ semicolons, ts = semicolons ++ skipSemicolons ts ∧
      ∀ t ∈ semicolons, t.token = .semicolon := by
  refine ⟨ts.takeWhile (·.token == .semicolon), List.takeWhile_append_dropWhile.symm, ?_⟩
  intro t ht
  simpa using List.mem_takeWhile_imp ht

theorem readStatements_sequence {size : Nat} {ts : List Lexeme} {ss : List Statement}
    (narrow : ∀ t ∈ ts, t.Narrow) (h : readStatements size ts = some ss) : Sequence ts ss := by
  induction hn : ts.length using Nat.strongRecOn generalizing ts ss with
  | ind n ih =>
    subst hn
    rw [readStatements.eq_def] at h
    split at h
    · obtain rfl := Option.some.inj h
      exact .nil
    · rename_i t rest
      split at h
      · contradiction
      · rename_i s after _ hs
        obtain ⟨front, spelled, heq⟩ := readStatement_spelled narrow hs
        split at h
        · obtain rfl := Option.some.inj h
          rw [heq, List.append_nil]
          exact .last spelled
        · rename_i next more hlt
          split at h
          · rename_i semicolon
            obtain ⟨ss', hss, rfl⟩ := Option.map_eq_some_iff.mp h
            have later := suffix_narrow heq narrow
            obtain ⟨semicolons, hmore, -⟩ := skipSemicolons_append more
            have narrow' : ∀ t ∈ skipSemicolons more, t.Narrow :=
              suffix_narrow hmore fun t ht => later t (List.mem_cons_of_mem _ ht)
            have shorter := length_skipSemicolons_le more
            simp only [List.length_cons] at hlt
            rw [heq]
            refine .more spelled semicolon (ih _ ?_ narrow' hss rfl)
            simp only [List.length_cons]
            omega
          · contradiction

/-! ## What can follow an operator -/

/-- An operand can start with the token. -/
def Token.opens : Token → Bool
  | .leaf _ | .bang | .operator .sub | .lparen => true
  | _ => false

/-- An operator is followed by the start of an operand. -/
def Token.Precedes (a b : Token) : Prop := ∀ op, a = .operator op → b.opens = true

theorem Token.precedes_of_ne {a : Token} (h : ∀ op, a ≠ .operator op) (b : Token) :
    a.Precedes b :=
  fun op hop => absurd hop (h op)

/-- Tokens that start as an operand, end as one, and have an operand after each operator. -/
structure Phrase (ts : List Token) : Prop where
  opens : ∃ a rest, ts = a :: rest ∧ a.opens = true
  closes : ∃ front b, ts = front ++ [b] ∧ ∀ op, b ≠ .operator op
  chain : ts.IsChain Token.Precedes

theorem Phrase.leaf (l : Leaf) : Phrase [.leaf l] where
  opens := ⟨_, _, rfl, rfl⟩
  closes := ⟨[], _, rfl, by simp⟩
  chain := .singleton _

theorem Phrase.precedes {ts : List Token} (h : Phrase ts) (a : Token) :
    ∀ b ∈ ts.head?, a.Precedes b := by
  obtain ⟨b, rest, rfl, hb⟩ := h.opens
  intro b' hb'
  obtain rfl := Option.some.inj hb'
  exact fun _ _ => hb

theorem Phrase.cons {ts : List Token} {a : Token} (h : Phrase ts) (ha : a.opens = true) :
    Phrase (a :: ts) where
  opens := ⟨a, ts, rfl, ha⟩
  closes := by
    obtain ⟨front, b, rfl, hb⟩ := h.closes
    exact ⟨a :: front, b, rfl, hb⟩
  chain := List.isChain_cons.mpr ⟨h.precedes a, h.chain⟩

theorem Phrase.snoc {ts : List Token} {b : Token} (h : Phrase ts) (hb : ∀ op, b ≠ .operator op) :
    Phrase (ts ++ [b]) where
  opens := by
    obtain ⟨a, rest, rfl, ha⟩ := h.opens
    exact ⟨a, rest ++ [b], rfl, ha⟩
  closes := ⟨ts, b, rfl, hb⟩
  chain := by
    obtain ⟨front, last, rfl, hlast⟩ := h.closes
    refine List.isChain_append.mpr ⟨h.chain, .singleton _, ?_⟩
    intro x hx y _
    rw [List.getLast?_append_cons, List.getLast?_singleton, Option.mem_def,
      Option.some.injEq] at hx
    exact hx ▸ Token.precedes_of_ne hlast y

theorem Phrase.join {ts ts' : List Token} (h : Phrase ts) (op : Operator) (h' : Phrase ts') :
    Phrase (ts ++ .operator op :: ts') where
  opens := by
    obtain ⟨a, rest, rfl, ha⟩ := h.opens
    exact ⟨a, _, rfl, ha⟩
  closes := by
    obtain ⟨front, b, rfl, hb⟩ := h'.closes
    exact ⟨ts ++ .operator op :: front, b, by simp, hb⟩
  chain := by
    obtain ⟨front, last, rfl, hlast⟩ := h.closes
    refine List.isChain_append.mpr
      ⟨h.chain, List.isChain_cons.mpr ⟨h'.precedes _, h'.chain⟩, ?_⟩
    intro x hx y _
    rw [List.getLast?_append_cons, List.getLast?_singleton, Option.mem_def,
      Option.some.injEq] at hx
    exact hx ▸ Token.precedes_of_ne hlast y

/-- The token of a lexeme list, for the statements below. -/
def tokensOf (ts : List Lexeme) : List Token := ts.map (·.token)

@[simp] theorem tokensOf_nil : tokensOf [] = [] := rfl

@[simp] theorem tokensOf_cons (t : Lexeme) (ts : List Lexeme) :
    tokensOf (t :: ts) = t.token :: tokensOf ts := rfl

@[simp] theorem tokensOf_append (ts ts' : List Lexeme) :
    tokensOf (ts ++ ts') = tokensOf ts ++ tokensOf ts' := List.map_append ..

theorem Phrase.signed {ts : List Token} (h : Phrase ts) (signs : List Sign) :
    Phrase (tokensOf (signs.map Sign.lexeme) ++ ts) := by
  induction signs with
  | nil => exact h
  | cons sign rest ih =>
    refine ih.cons ?_
    unfold Sign.lexeme
    split <;> rfl

mutual

theorem Primary.phrase : ∀ p : Primary, Phrase (tokensOf p.lexemes)
  | .leaf l span => Phrase.leaf l
  | .group inner span => by
    simp only [Primary.lexemes, tokensOf_cons, tokensOf_append, tokensOf_nil]
    exact (inner.phrase.snoc (by simp)).cons rfl

theorem Operand.phrase : ∀ o : Operand, Phrase (tokensOf o.lexemes)
  | .mk signs primary => by
    simp only [Operand.lexemes, tokensOf_append]
    exact primary.phrase.signed signs

theorem Links.phrase {ts : List Token} (h : Phrase ts) :
    ∀ links : Links, Phrase (ts ++ tokensOf links.lexemes)
  | .nil => by simpa only [Links.lexemes, tokensOf_nil, List.append_nil] using h
  | .cons op span operand rest => by
    simp only [Links.lexemes, tokensOf_cons, tokensOf_append]
    have joined := rest.phrase (h.join op operand.phrase)
    simpa only [List.append_assoc, List.cons_append] using joined

theorem Expression.phrase : ∀ e : Expression, Phrase (tokensOf e.lexemes)
  | .mk first links span => by
    simp only [Expression.lexemes, tokensOf_append]
    exact links.phrase first.phrase

end

/-- The tokens that stand inside of expressions. -/
def Token.Inner (t : Token) : Prop := t ≠ .assign ∧ t ≠ .semicolon

theorem Sign.inner (s : Sign) : s.lexeme.token.Inner := by
  unfold lexeme
  split <;> simp [Token.Inner]

mutual

theorem Primary.inner : ∀ p : Primary, ∀ t ∈ tokensOf p.lexemes, t.Inner
  | .leaf l span => by simp [Primary.lexemes, Token.Inner]
  | .group e span => by
    simp only [Primary.lexemes, tokensOf_cons, tokensOf_append, tokensOf_nil,
      List.forall_mem_cons, List.forall_mem_append]
    exact ⟨by simp [Token.Inner], e.inner, by simp [Token.Inner], by simp⟩

theorem Operand.inner : ∀ o : Operand, ∀ t ∈ tokensOf o.lexemes, t.Inner
  | .mk signs primary => by
    simp only [Operand.lexemes, tokensOf_append, List.forall_mem_append]
    refine ⟨fun t ht => ?_, primary.inner⟩
    obtain ⟨_, hs, rfl⟩ := List.mem_map.mp ht
    obtain ⟨sign, -, rfl⟩ := List.mem_map.mp hs
    exact sign.inner

theorem Links.inner : ∀ links : Links, ∀ t ∈ tokensOf links.lexemes, t.Inner
  | .nil => by simp [Links.lexemes]
  | .cons op span operand rest => by
    simp only [Links.lexemes, tokensOf_cons, tokensOf_append, List.forall_mem_cons,
      List.forall_mem_append]
    exact ⟨by simp [Token.Inner], operand.inner, rest.inner⟩

theorem Expression.inner : ∀ e : Expression, ∀ t ∈ tokensOf e.lexemes, t.Inner
  | .mk first links span => by
    simp only [Expression.lexemes, tokensOf_append, List.forall_mem_append]
    exact ⟨first.inner, links.inner⟩

end

theorem Statement.Spelled.phrase {s : Statement} {ts : List Lexeme} (h : s.Spelled ts) :
    Phrase (tokensOf ts) := by
  cases h with
  | expression e => exact e.phrase
  | assignment name nameSpan span value =>
    have opens : (Token.leaf (.ident name)).opens = true := rfl
    obtain ⟨front, b, hvalue, hb⟩ := value.phrase.closes
    simp only [tokensOf_cons]
    refine ⟨⟨_, _, rfl, opens⟩, ⟨_ :: _ :: front, b, by rw [hvalue]; rfl, hb⟩, ?_⟩
    refine List.isChain_cons.mpr ⟨fun b _ => Token.precedes_of_ne (by simp) b,
      List.isChain_cons.mpr ⟨fun b _ => Token.precedes_of_ne (by simp) b, value.phrase.chain⟩⟩

theorem chain_semicolons {semicolons ts : List Lexeme}
    (h : ∀ t ∈ semicolons, t.token = .semicolon) (later : (tokensOf ts).IsChain Token.Precedes) :
    (tokensOf (semicolons ++ ts)).IsChain Token.Precedes := by
  induction semicolons with
  | nil => exact later
  | cons t rest ih =>
    obtain ⟨first, h⟩ := List.forall_mem_cons.mp h
    rw [List.cons_append, tokensOf_cons, first]
    exact List.isChain_cons.mpr ⟨fun b _ => Token.precedes_of_ne (by simp) b, ih h⟩

/-- In the tokens of a script an operand stands after every operator. -/
theorem Sequence.chain {ts : List Lexeme} {ss : List Statement} (h : Sequence ts ss) :
    (tokensOf ts).IsChain Token.Precedes := by
  induction h with
  | nil => exact .nil
  | last spelled => exact spelled.phrase.chain
  | @more s ts rest t ss spelled semicolon _ ih =>
    obtain ⟨semicolons, hrest, all⟩ := skipSemicolons_append rest
    have tail : (tokensOf (t :: rest)).IsChain Token.Precedes := by
      have all' : ∀ u ∈ t :: semicolons, u.token = .semicolon :=
        List.forall_mem_cons.mpr ⟨semicolon, all⟩
      rw [hrest]
      exact chain_semicolons all' ih
    obtain ⟨front, b, hts, hb⟩ := spelled.phrase.closes
    rw [tokensOf_append]
    refine List.isChain_append.mpr ⟨spelled.phrase.chain, tail, ?_⟩
    intro x hx y _
    rw [hts, List.getLast?_append_cons, List.getLast?_singleton, Option.mem_def,
      Option.some.injEq] at hx
    exact hx ▸ Token.precedes_of_ne hb y

/-! ## Ranges of an outline -/

/-- The ranges of the rows whose rule is asked for. -/
def spansOf (p : Rule → Bool) (rows : List Row) : List Span :=
  (rows.filter fun r => p r.rule).map (·.span)

theorem spansOf_append (p : Rule → Bool) (rows rows' : List Row) :
    spansOf p (rows ++ rows') = spansOf p rows ++ spansOf p rows' := by
  simp [spansOf]

theorem spansOf_cons {p : Rule → Bool} {row : Row} (h : p row.rule = false) (rows : List Row) :
    spansOf p (row :: rows) = spansOf p rows := by
  simp [spansOf, h]

theorem spansOf_cons_pos {p : Rule → Bool} {row : Row} (h : p row.rule = true)
    (rows : List Row) : spansOf p (row :: rows) = row.span :: spansOf p rows := by
  simp [spansOf, h]

theorem spansOf_eq_nil {p : Rule → Bool} {rows : List Row} (h : ∀ r ∈ rows, p r.rule = false) :
    spansOf p rows = [] := by
  simpa [spansOf] using h

end Scriptlet.Grammar
