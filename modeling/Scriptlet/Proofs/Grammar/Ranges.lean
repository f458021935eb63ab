import Scriptlet.Proofs.Grammar.Depth
import Scriptlet.Proofs.Source.Slices

/-!
# Ranges of trees

The tokens of a source are solid spans of it. The ranges of a tree start and end where its tokens
do, but for an expression without operators, which goes on to the next token or to the end of the
source.
-/
namespace Scriptlet.Grammar

/-! ## Tokens -/

/-- Tokens of the source, one after the other. -/
structure Lexed (source : List Char) (ts : List Lexeme) : Prop where
  ordered : Ordered ts
  solid : ∀ t ∈ ts, t.span.Solid source
  narrow : ∀ t ∈ ts, t.Narrow

variable {source : List Char} {size : Nat} {ts ts' : List Lexeme}

theorem Lexed.append (h : Lexed source (ts ++ ts')) :
    Lexed source ts ∧ Lexed source ts' ∧ ∀ a ∈ ts, ∀ b ∈ ts', a.span.stop ≤ b.span.start := by
  obtain ⟨left, right, cross⟩ := h.ordered.append
  obtain ⟨solid, solid'⟩ := List.forall_mem_append.mp h.solid
  obtain ⟨narrow, narrow'⟩ := List.forall_mem_append.mp h.narrow
  exact ⟨⟨left, solid, narrow⟩, ⟨right, solid', narrow'⟩, cross⟩

theorem Lexed.tail {t : Lexeme} (h : Lexed source (t :: ts)) : Lexed source ts := by
  have parts : Lexed source ([t] ++ ts) := h
  exact parts.append.2.1

theorem LaidOut.solid {text : List Char} {pieces : List Piece} (h : LaidOut text pieces)
    (front : List Char) :
    ∀ t ∈ Piece.lexemesFrom (Source.byteSize front) pieces, t.span.Solid (front ++ text) := by
  induction h generalizing front with
  | done => simp [Piece.lexemesFrom]
  | @piece gap text rest t pieces trivia spelled clear _ ih =>
    have later := ih (front ++ gap ++ text)
    rw [Source.byteSize_append, Source.byteSize_append, List.append_assoc, List.append_assoc]
      at later
    refine List.forall_mem_cons.mpr ⟨?_, later⟩
    have present := spelled.byteSize_pos
    refine .of_boundaries (by dsimp only; omega) ?_ ?_
    · exact Source.isBoundary_iff.mpr ⟨front ++ gap, text ++ rest, by simp, by simp⟩
    · exact Source.isBoundary_iff.mpr ⟨front ++ gap ++ text, rest, by simp, by
        rw [Source.byteSize_append, Source.byteSize_append]⟩

/-! ## Ends of operands -/

theorem Primary.starts (p : Primary) :
    ∃ t rest, p.lexemes = t :: rest ∧ t.span.start = p.span.start := by
  cases p with
  | leaf l span => exact ⟨_, [], rfl, rfl⟩
  | group inner span =>
    rw [Primary.lexemes]
    exact ⟨_, _, rfl, rfl⟩

theorem Primary.stops (p : Primary) : ∃ t ∈ p.lexemes, t.span.stop = p.span.stop := by
  cases p with
  | leaf l span => exact ⟨_, List.mem_singleton_self _, rfl⟩
  | group inner span =>
    rw [Primary.lexemes]
    exact ⟨⟨.rparen, ⟨span.stop - 1, span.stop⟩⟩, by simp, rfl⟩

theorem Operand.starts (o : Operand) :
    ∃ t rest, o.lexemes = t :: rest ∧ t.span.start = o.span.start := by
  obtain ⟨signs, p⟩ := o
  rw [Operand.lexemes]
  cases signs with
  | nil => exact p.starts
  | cons sign outer => exact ⟨sign.lexeme, _, rfl, rfl⟩

theorem Operand.stop_eq (signs : List Sign) (p : Primary) :
    (Operand.mk signs p).span.stop = p.span.stop := by
  cases signs <;> rfl

theorem Operand.stops (o : Operand) : ∃ t ∈ o.lexemes, t.span.stop = o.span.stop := by
  obtain ⟨signs, p⟩ := o
  rw [Operand.lexemes, Operand.stop_eq]
  obtain ⟨t, ht, hstop⟩ := p.stops
  exact ⟨t, List.mem_append_right _ ht, hstop⟩

/-- No token of an operand starts before it. -/
theorem Operand.start_le {o : Operand} (h : Lexed source o.lexemes) :
    ∀ t ∈ o.lexemes, o.span.start ≤ t.span.start := by
  obtain ⟨first, rest, heq, hstart⟩ := o.starts
  rw [heq] at h ⊢
  rw [← hstart]
  refine List.forall_mem_cons.mpr ⟨Nat.le_refl _, fun t ht => ?_⟩
  have := (List.pairwise_cons.mp h.ordered.sorted).1 t ht
  have := h.ordered.present first (List.mem_cons_self ..)
  omega

theorem Operand.solid {o : Operand} (h : Lexed source o.lexemes) : o.span.Solid source := by
  obtain ⟨t, ht, hstop⟩ := o.stops
  obtain ⟨first, rest, heq, hstart⟩ := o.starts
  have hle := start_le h t ht
  have present := h.ordered.present t ht
  refine .of_boundaries (by omega) ?_ ?_
  · exact hstart ▸ (h.solid first (heq ▸ List.mem_cons_self ..)).valid.start
  · exact hstop ▸ (h.solid t ht).valid.stop

/-! ## Ranges of expressions -/

/-- An expression starts with its first operand and ends with its last one, or at a place after
that. -/
inductive Expression.Ranged (source : List Char) : Expression → Prop
  | exact (first : Operand) (links : Links) :
    Ranged source (.mk first links ⟨first.span.start, links.stop first.span.stop⟩)
  | beyond {first : Operand} {stop : Nat} (after : first.span.stop ≤ stop)
      (boundary : Source.isBoundary stop source = true) :
    Ranged source (.mk first .nil ⟨first.span.start, stop⟩)

/-- An assignment has a value that does. -/
inductive Statement.Ranged (source : List Char) : Statement → Prop
  | expression (e : Expression) : Ranged source (.expression e)
  | assignment (name : List Char) (nameSpan : Span) {value : Expression}
      (ranged : value.Ranged source) : Ranged source (.assignment name nameSpan value)

theorem nextStart_boundary (lexed : Lexed source ts) :
    Source.isBoundary (nextStart (Source.byteSize source) ts) source = true := by
  cases ts with
  | nil => exact Source.isBoundary_byteSize source
  | cons t rest => exact (lexed.solid t (List.mem_cons_self ..)).valid.start

theorem le_nextStart (lexed : Lexed source (ts ++ ts')) :
    ∀ t ∈ ts, t.span.stop ≤ nextStart (Source.byteSize source) ts' := by
  obtain ⟨left, -, cross⟩ := lexed.append
  intro t ht
  cases ts' with
  | nil => exact (left.solid t ht).valid.within
  | cons next rest => exact cross t ht next (List.mem_cons_self ..)

theorem readExpression_ranged (lexed : Lexed source ts)
    {r : { r : Expression × List Lexeme // r.2.length < ts.length }}
    (h : readExpression (Source.byteSize source) ts = some r) : r.1.1.Ranged source := by
  rw [readExpression] at h
  split at h
  · contradiction
  · rename_i first rest _ hfirst
    have heq : ts = first.lexemes ++ rest := readOperand_lexemes _ ts lexed.narrow hfirst
    rw [heq] at lexed
    split at h
    · contradiction
    · rename_i links after _ _
      obtain rfl := Option.some.inj h
      cases links with
      | nil =>
        obtain ⟨t, ht, hstop⟩ := first.stops
        exact .beyond (hstop ▸ le_nextStart lexed t ht) (nextStart_boundary lexed.append.2.1)
      | cons op span operand more => exact .exact first (.cons op span operand more)

theorem readStatement_ranged (lexed : Lexed source ts)
    {r : { r : Statement × List Lexeme // r.2.length < ts.length }}
    (h : readStatement (Source.byteSize source) ts = some r) : r.1.1.Ranged source := by
  unfold readStatement at h
  split at h
  · split at h
    · contradiction
    · rename_i value after _ hvalue
      obtain rfl := Option.some.inj h
      exact .assignment _ _ (readExpression_ranged lexed.tail.tail hvalue)
  · split at h
    · contradiction
    · obtain rfl := Option.some.inj h
      exact .expression _

theorem Lexed.skipSemicolons (h : Lexed source ts) : Lexed source (skipSemicolons ts) := by
  obtain ⟨semicolons, heq, -⟩ := skipSemicolons_append ts
  rw [heq] at h
  exact h.append.2.1

theorem readStatements_ranged {ss : List Statement} (lexed : Lexed source ts)
    (h : readStatements (Source.byteSize source) ts = some ss) : ∀ s ∈ ss, s.Ranged source := by
  induction hn : ts.length using Nat.strongRecOn generalizing ts ss with
  | ind n ih =>
    subst hn
    rw [readStatements.eq_def] at h
    split at h
    · obtain rfl := Option.some.inj h
      simp
    · rename_i t rest
      split at h
      · contradiction
      · rename_i s after _ hs
        have first := readStatement_ranged lexed hs
        split at h
        · obtain rfl := Option.some.inj h
          simpa using first
        · rename_i next more hlt
          split at h
          · obtain ⟨ss', hss, rfl⟩ := Option.map_eq_some_iff.mp h
            obtain ⟨front, -, heq⟩ := readStatement_spelled lexed.narrow hs
            rw [heq] at lexed
            have shorter := length_skipSemicolons_le more
            simp only [List.length_cons] at hlt
            refine List.forall_mem_cons.mpr
              ⟨first, ih _ ?_ lexed.append.2.1.tail.skipSemicolons hss rfl⟩
            simp only [List.length_cons]
            omega
          · contradiction

/-- The statements of a source are listed in its tokens and have ranges in it. -/
theorem ranged_of_parse {limit : Nat} {script : Script} (h : parse limit source = .ok script) :
    ∃ ts, Lexed source ts ∧ Sequence ts script.statements ∧
      ∀ s ∈ script.statements, s.Ranged source := by
  have read := read?_of_parse h
  obtain ⟨pieces, laid, sequence⟩ := laidOut_of_read? read
  obtain ⟨ts, hts, read⟩ := Option.bind_eq_some_iff.mp read
  obtain ⟨statements, hstatements, rfl⟩ := Option.map_eq_some_iff.mp read
  have tokens : Piece.lexemesFrom 0 pieces = ts :=
    Option.some.inj ((laid.tokensFrom? 0).symm.trans hts)
  have lexed : Lexed source ts := by
    refine ⟨tokens ▸ laid.ordered 0, ?_, (scanned_of_tokensFrom? hts).narrow⟩
    have solid := laid.solid []
    rwa [Source.byteSize_nil, tokens] at solid
  rw [tokens] at sequence
  exact ⟨_, lexed.skipSemicolons, sequence, readStatements_ranged lexed.skipSemicolons hstatements⟩

end Scriptlet.Grammar
