import Scriptlet.Proofs.Compile.Chains
import Scriptlet.Proofs.Grammar.Ranges
import Scriptlet.Proofs.Grammar.Splice

/-!
# One operand in the place of another

A script with another operand in the place of one, however deep that is, is read from the tokens
with those of the one operand exchanged. Marks stand around them, so a parenthesis or a name fits
there.
-/
namespace Scriptlet.Grammar

variable {o o' : Operand}

/-- The second chain has another operand in one place. -/
inductive Links.Exchanged (o o' : Operand) : Links → Links → Prop
  | here {op : Operator} {span : Span} {rest : Links} :
    Exchanged o o' (.cons op span o rest) (.cons op span o' rest)
  | later {op : Operator} {span : Span} {operand : Operand} {rest rest' : Links}
      (exchanged : Exchanged o o' rest rest') :
      Exchanged o o' (.cons op span operand rest) (.cons op span operand rest')

/-- The second expression has another operand in one place of its chain. -/
inductive Expression.Exchanged (o o' : Operand) : Expression → Expression → Prop
  | first {links : Links} {span : Span} : Exchanged o o' (.mk o links span) (.mk o' links span)
  | links {first : Operand} {links links' : Links} {span : Span}
      (exchanged : links.Exchanged o o' links') :
      Exchanged o o' (.mk first links span) (.mk first links' span)

/-- The second expression has another operand in one place of it or of an expression in it. -/
inductive Expression.Differs (o o' : Operand) : Expression → Expression → Prop
  | here {e e' : Expression} (exchanged : e.Exchanged o o' e') : Differs o o' e e'
  | inside {signs : List Sign} {inner inner' e e' : Expression} {span : Span}
      (differs : Differs o o' inner inner') (exchanged :
        e.Exchanged (.mk signs (.group inner span)) (.mk signs (.group inner' span)) e') :
      Differs o o' e e'

/-- The second statement has another operand in one place. -/
inductive Statement.Differs (o o' : Operand) : Statement → Statement → Prop
  | expression {e e' : Expression} (differs : e.Differs o o' e') :
    Differs o o' (.expression e) (.expression e')
  | assignment {name : List Char} {span : Span} {e e' : Expression} (differs : e.Differs o o' e') :
    Differs o o' (.assignment name span e) (.assignment name span e')

/-! ## Every operand can be exchanged -/

theorem Links.exists_exchanged (o' : Operand) :
    ∀ links : Links, o ∈ links.operands → ∃ links', links.Exchanged o o' links'
  | .nil, h => by contradiction
  | .cons op span operand rest, h => by
    rcases List.mem_cons.mp h with rfl | h
    · exact ⟨_, .here⟩
    · obtain ⟨rest', exchanged⟩ := rest.exists_exchanged o' h
      exact ⟨_, .later exchanged⟩

theorem Expression.exists_exchanged (o' : Operand) {e : Expression} (h : o ∈ e.operands) :
    ∃ e', e.Exchanged o o' e' := by
  obtain ⟨first, links, span⟩ := e
  rcases List.mem_cons.mp h with rfl | h
  · exact ⟨_, .first⟩
  · obtain ⟨links', exchanged⟩ := links.exists_exchanged o' h
    exact ⟨_, .links exchanged⟩

/-- The operand is a group, and another operand is in one place inside. -/
def Operand.Opens (o o' group group' : Operand) : Prop :=
  ∃ signs inner inner' span, group = .mk signs (.group inner span) ∧
    group' = .mk signs (.group inner' span) ∧ inner.Differs o o' inner'

section

variable (o' : Operand)

mutual

theorem Primary.exists_opens (signs : List Sign) {e : Expression} (ho : o ∈ e.operands) :
    ∀ p : Primary, e ∈ p.expressions → ∃ group', Operand.Opens o o' (.mk signs p) group'
  | .leaf .., h => by
    rw [Primary.expressions] at h
    contradiction
  | .group inner span, h => by
    rw [Primary.expressions] at h
    obtain ⟨inner', differs⟩ := Expression.exists_differs ho inner h
    exact ⟨_, signs, inner, inner', span, rfl, rfl, differs⟩

theorem Operand.exists_opens {e : Expression} (ho : o ∈ e.operands) :
    ∀ group : Operand, e ∈ group.expressions → ∃ group', Operand.Opens o o' group group'
  | .mk signs primary, h => by
    rw [Operand.expressions] at h
    exact primary.exists_opens signs ho h

theorem Links.exists_opens {e : Expression} (ho : o ∈ e.operands) :
    ∀ links : Links, e ∈ links.expressions →
      ∃ group group' links', Operand.Opens o o' group group' ∧ links.Exchanged group group' links'
  | .nil, h => by
    rw [Links.expressions] at h
    contradiction
  | .cons op span operand rest, h => by
    rw [Links.expressions] at h
    rcases List.mem_append.mp h with h | h
    · obtain ⟨group', opens⟩ := operand.exists_opens ho h
      exact ⟨_, _, _, opens, .here⟩
    · obtain ⟨group, group', rest', opens, exchanged⟩ := rest.exists_opens ho h
      exact ⟨_, _, _, opens, .later exchanged⟩

theorem Expression.exists_differs {e : Expression} (ho : o ∈ e.operands) :
    ∀ whole : Expression, e ∈ whole.expressions → ∃ whole', whole.Differs o o' whole'
  | .mk first links span, h => by
    rw [Expression.expressions] at h
    rcases List.mem_cons.mp h with rfl | h
    · obtain ⟨e', exchanged⟩ := Expression.exists_exchanged o' ho
      exact ⟨e', .here exchanged⟩
    rcases List.mem_append.mp h with h | h
    · obtain ⟨group', signs, inner, inner', place, rfl, rfl, differs⟩ := first.exists_opens ho h
      exact ⟨_, .inside differs .first⟩
    · obtain ⟨group, group', links', ⟨signs, inner, inner', place, rfl, rfl, differs⟩, exchanged⟩ :=
        links.exists_opens ho h
      exact ⟨_, .inside differs (.links exchanged)⟩

end

theorem Statement.exists_differs {e : Expression} (ho : o ∈ e.operands) (s : Statement)
    (h : e ∈ s.value.expressions) : ∃ s', s.Differs o o' s' := by
  cases s with
  | expression whole =>
    obtain ⟨whole', differs⟩ := Expression.exists_differs o' ho whole h
    exact ⟨_, .expression differs⟩
  | assignment name span whole =>
    obtain ⟨whole', differs⟩ := Expression.exists_differs o' ho whole h
    exact ⟨_, .assignment differs⟩

end

/-! ## Tokens -/

/-- The rows have one part in the place of another, and marks around it. -/
def InPlace (part part' ts ts' : List Lexeme) : Prop :=
  ∃ before after, ts = before ++ (part ++ after) ∧ ts' = before ++ (part' ++ after) ∧
    (∀ t ∈ (tokensOf before).getLast?, ∀ l, t ≠ .leaf l) ∧
    ∀ t ∈ (tokensOf after).head?, ∀ l, t ≠ .leaf l

variable {part part' ts ts' us us' : List Lexeme}

theorem InPlace.refl (part part' : List Lexeme) : InPlace part part' part part' :=
  ⟨[], [], by simp, by simp, by simp, by simp⟩

theorem InPlace.trans (h : InPlace part part' ts ts') (h' : InPlace ts ts' us us') :
    InPlace part part' us us' := by
  obtain ⟨before, after, rfl, rfl, marksBefore, marksAfter⟩ := h
  obtain ⟨before', after', rfl, rfl, marksBefore', marksAfter'⟩ := h'
  refine ⟨before' ++ before, after ++ after', by simp, by simp, ?_, ?_⟩
  · cases before using List.reverseRecOn with
    | nil => simpa using marksBefore'
    | append_singleton => simpa using marksBefore
  · cases after with
    | nil => simpa using marksAfter'
    | cons => simpa using marksAfter

theorem Links.marks (links : Links) : ∀ t ∈ (tokensOf links.lexemes).head?, ∀ l, t ≠ .leaf l := by
  cases links <;> simp [Links.lexemes]

theorem Links.Exchanged.inPlace {links links' : Links} (h : links.Exchanged o o' links')
    (front : List Lexeme) :
    InPlace o.lexemes o'.lexemes (front ++ links.lexemes) (front ++ links'.lexemes) := by
  induction h generalizing front with
  | @here op span rest =>
    refine ⟨front ++ [⟨.operator op, span⟩], rest.lexemes, ?_, ?_, by simp, rest.marks⟩
    · simp [Links.lexemes]
    · simp [Links.lexemes]
  | @later op span operand rest rest' _ ih =>
    simpa [Links.lexemes] using ih (front ++ ⟨.operator op, span⟩ :: operand.lexemes)

theorem Expression.Exchanged.inPlace {e e' : Expression} (h : e.Exchanged o o' e') :
    InPlace o.lexemes o'.lexemes e.lexemes e'.lexemes := by
  cases h with
  | @first links span => exact ⟨[], links.lexemes, rfl, rfl, by simp, links.marks⟩
  | @links first links links' span exchanged => exact exchanged.inPlace first.lexemes

/-- What is in parentheses has marks around it. -/
theorem inPlace_group (signs : List Sign) (inner inner' : Expression) (span : Span) :
    InPlace inner.lexemes inner'.lexemes (Operand.mk signs (.group inner span)).lexemes
      (Operand.mk signs (.group inner' span)).lexemes := by
  refine ⟨signs.map Sign.lexeme ++ [⟨.lparen, ⟨span.start, span.start + 1⟩⟩],
    [⟨.rparen, ⟨span.stop - 1, span.stop⟩⟩], ?_, ?_, by simp, by simp⟩
  · simp [Operand.lexemes, Primary.lexemes]
  · simp [Operand.lexemes, Primary.lexemes]

theorem Expression.Differs.inPlace {e e' : Expression} (h : e.Differs o o' e') :
    InPlace o.lexemes o'.lexemes e.lexemes e'.lexemes := by
  induction h with
  | here exchanged => exact exchanged.inPlace
  | inside _ exchanged ih => exact (ih.trans (inPlace_group ..)).trans exchanged.inPlace

theorem Statement.Differs.inPlace {s s' : Statement} (h : s.Differs o o' s')
    (spelled : s.Spelled ts) :
    ∃ ts', s'.Spelled ts' ∧ InPlace o.lexemes o'.lexemes ts ts' := by
  cases h with
  | expression differs =>
    cases spelled with
    | expression e => exact ⟨_, .expression _, differs.inPlace⟩
  | @assignment name nameSpan e e' differs =>
    cases spelled with
    | assignment _ _ span =>
      refine ⟨_, .assignment name nameSpan span _, differs.inPlace.trans ?_⟩
      exact ⟨[⟨.leaf (.ident name), nameSpan⟩, ⟨.assign, span⟩], [], by simp, by simp, by simp,
        by simp⟩

theorem skipSemicolons_semicolons {semicolons : List Lexeme}
    (h : ∀ t ∈ semicolons, t.token = .semicolon) (ts : List Lexeme) :
    skipSemicolons (semicolons ++ ts) = skipSemicolons ts :=
  List.dropWhile_append_of_pos fun t ht => by simp [h t ht]

theorem semicolon_unleaved {semicolons : List Lexeme} (h : ∀ t ∈ semicolons, t.token = .semicolon) :
    ∀ t ∈ tokensOf semicolons, ∀ l, t ≠ .leaf l := by
  intro t ht l
  obtain ⟨u, hu, rfl⟩ := List.mem_map.mp ht
  simp [h u hu]

theorem Sequence.exchange {front back : List Statement} {s s' : Statement}
    (h : Sequence ts (front ++ s :: back)) (differs : s.Differs o o' s') :
    ∃ ts', Sequence ts' (front ++ s' :: back) ∧ InPlace o.lexemes o'.lexemes ts ts' := by
  induction front generalizing ts with
  | nil =>
    cases h with
    | last spelled =>
      obtain ⟨ts', spelled', inPlace⟩ := differs.inPlace spelled
      exact ⟨ts', .last spelled', inPlace⟩
    | @more _ first rest t _ spelled semicolon later =>
      obtain ⟨first', spelled', inPlace⟩ := differs.inPlace spelled
      refine ⟨first' ++ t :: rest, .more spelled' semicolon later, inPlace.trans ?_⟩
      exact ⟨[], t :: rest, rfl, rfl, by simp, by simp [semicolon]⟩
  | cons x front ih =>
    generalize hss : x :: front ++ s :: back = ss at h
    cases h with
    | nil => contradiction
    | last => simp at hss
    | @more _ first rest t _ spelled semicolon later =>
      obtain ⟨rfl, rfl⟩ := List.cons.inj hss
      obtain ⟨later', sequence, inPlace⟩ := ih later
      obtain ⟨semicolons, hrest, all⟩ := skipSemicolons_append rest
      have skipped : skipSemicolons (semicolons ++ later') = later' := by
        rw [skipSemicolons_semicolons all, sequence.skipSemicolons_eq]
      refine ⟨first ++ t :: (semicolons ++ later'),
        .more spelled semicolon (skipped.symm ▸ sequence), inPlace.trans ?_⟩
      refine ⟨first ++ t :: semicolons, [], ?_, by simp, ?_, by simp⟩
      · conv_lhs => rw [hrest]
        simp
      · intro u hu
        have last : u ∈ tokensOf (t :: semicolons) := by
          rw [tokensOf_append, tokensOf_cons, List.getLast?_append_cons] at hu
          exact List.mem_of_getLast? hu
        exact semicolon_unleaved (List.forall_mem_cons.mpr ⟨semicolon, all⟩) u last

/-! ## Nesting -/

theorem deepGroup?_eq_none {limit : Nat} {levels : List (Nat × Span)} :
    deepGroup? limit levels = none ↔ ∀ l ∈ levels, l.1 ≤ limit := by
  simp [deepGroup?]

section

variable {limit limit' : Nat} (le : limit ≤ limit')
  (step : ∀ depth, depth ≤ limit → (∀ l ∈ o.levels depth, l.1 ≤ limit) →
    ∀ l ∈ o'.levels depth, l.1 ≤ limit')

include le step

theorem Links.Exchanged.levels {links links' : Links} (h : links.Exchanged o o' links')
    {depth : Nat} (hd : depth ≤ limit) (low : ∀ l ∈ links.levels depth, l.1 ≤ limit) :
    ∀ l ∈ links'.levels depth, l.1 ≤ limit' := by
  induction h with
  | here =>
    rw [Links.levels, List.forall_mem_append] at low ⊢
    exact ⟨step depth hd low.1, fun l hl => Nat.le_trans (low.2 l hl) le⟩
  | later _ ih =>
    rw [Links.levels, List.forall_mem_append] at low ⊢
    exact ⟨fun l hl => Nat.le_trans (low.1 l hl) le, ih low.2⟩

theorem Expression.Exchanged.levels {e e' : Expression} (h : e.Exchanged o o' e') {depth : Nat}
    (hd : depth ≤ limit) (low : ∀ l ∈ e.levels depth, l.1 ≤ limit) :
    ∀ l ∈ e'.levels depth, l.1 ≤ limit' := by
  cases h with
  | first =>
    rw [Expression.levels, List.forall_mem_append] at low ⊢
    exact ⟨step depth hd low.1, fun l hl => Nat.le_trans (low.2 l hl) le⟩
  | links exchanged =>
    rw [Expression.levels, List.forall_mem_append] at low ⊢
    exact ⟨fun l hl => Nat.le_trans (low.1 l hl) le, exchanged.levels le step hd low.2⟩

/-- Groups are no deeper than the exchanged operand makes them. -/
theorem Expression.Differs.levels {e e' : Expression} (h : e.Differs o o' e') {depth : Nat}
    (hd : depth ≤ limit) (low : ∀ l ∈ e.levels depth, l.1 ≤ limit) :
    ∀ l ∈ e'.levels depth, l.1 ≤ limit' := by
  induction h generalizing depth with
  | here exchanged => exact exchanged.levels le step hd low
  | inside _ exchanged ih =>
    refine exchanged.levels le (fun depth _ low => ?_) hd low
    simp only [Operand.levels, Primary.levels, List.forall_mem_cons] at low ⊢
    exact ⟨Nat.le_trans low.1 le, ih low.1 low.2⟩

theorem Statement.Differs.levels {s s' : Statement} (h : s.Differs o o' s')
    (low : ∀ l ∈ s.levels, l.1 ≤ limit) : ∀ l ∈ s'.levels, l.1 ≤ limit' := by
  cases h with
  | expression differs | assignment differs => exact differs.levels le step (Nat.zero_le _) low

end

mutual

theorem Primary.levels_succ (depth : Nat) : ∀ p : Primary,
    p.levels (depth + 1) = (p.levels depth).map fun l => (l.1 + 1, l.2)
  | .leaf .. => by rw [Primary.levels, Primary.levels, List.map_nil]
  | .group inner span => by
    rw [Primary.levels, Primary.levels, List.map_cons, inner.levels_succ]

theorem Operand.levels_succ (depth : Nat) : ∀ o : Operand,
    o.levels (depth + 1) = (o.levels depth).map fun l => (l.1 + 1, l.2)
  | .mk signs primary => by rw [Operand.levels, Operand.levels, primary.levels_succ]

theorem Links.levels_succ (depth : Nat) : ∀ links : Links,
    links.levels (depth + 1) = (links.levels depth).map fun l => (l.1 + 1, l.2)
  | .nil => rfl
  | .cons op span operand rest => by
    rw [Links.levels, Links.levels, List.map_append, operand.levels_succ, rest.levels_succ]

/-- In one more pair of parentheses every group lies deeper by one. -/
theorem Expression.levels_succ (depth : Nat) : ∀ e : Expression,
    e.levels (depth + 1) = (e.levels depth).map fun l => (l.1 + 1, l.2)
  | .mk first links span => by
    rw [Expression.levels, Expression.levels, List.map_append, first.levels_succ,
      links.levels_succ]

end

/-! ## Reading -/

theorem Primary.ends (p : Primary) :
    ∃ t, p.lexemes.getLast? = some t ∧ t.span.stop = p.span.stop := by
  cases p with
  | leaf l span => exact ⟨_, rfl, rfl⟩
  | group inner span =>
    refine ⟨⟨.rparen, ⟨span.stop - 1, span.stop⟩⟩, ?_, rfl⟩
    rw [Primary.lexemes, ← List.cons_append, List.getLast?_concat]

theorem Primary.begins (p : Primary) :
    ∃ t, p.lexemes.head? = some t ∧ t.span.start = p.span.start := by
  obtain ⟨t, rest, heq, start⟩ := p.starts
  exact ⟨t, by rw [heq, List.head?_cons], start⟩

theorem Operand.begins (o : Operand) :
    ∃ t, o.lexemes.head? = some t ∧ t.span.start = o.span.start := by
  obtain ⟨t, rest, heq, start⟩ := o.starts
  exact ⟨t, by rw [heq, List.head?_cons], start⟩

theorem Operand.ends (o : Operand) :
    ∃ t, o.lexemes.getLast? = some t ∧ t.span.stop = o.span.stop := by
  obtain ⟨signs, p⟩ := o
  obtain ⟨t, last, stop⟩ := p.ends
  refine ⟨t, ?_, by rw [stop, Operand.stop_eq]⟩
  rw [Operand.lexemes, List.getLast?_append, last]
  rfl

theorem parse_eq_ok {limit : Nat} {source : List Char} {script : Script}
    (read : read? source = some script) (room : Nesting.tooDeep? limit source = none) :
    parse limit source = .ok script := by
  simp only [parse, room, read]

theorem tooDeep?_of_parse {limit : Nat} {source : List Char} {script : Script}
    (h : parse limit source = .ok script) : Nesting.tooDeep? limit source = none := by
  unfold parse at h
  split at h
  · contradiction
  · assumption

section

variable {source : List Char} {script : Script} {front back : List Statement} {s s' : Statement}

/-- A script with another operand is read from the tokens with those of the other operand. -/
theorem read?_exchange (h : read? source = some script)
    (statements : script.statements = front ++ s :: back) (differs : s.Differs o o' s') :
    ∃ pieces ts ts', LaidOut source pieces ∧ Piece.lexemesFrom 0 pieces = ts ∧
      InPlace o.lexemes o'.lexemes ts ts' ∧
      ∀ source' pieces', LaidOut source' pieces' → pieces'.map (·.token) = tokensOf ts' →
        ∃ script', read? source' = some script' ∧
          script'.statements.map Statement.bare = (front ++ s' :: back).map Statement.bare ∧
          ∀ limit, (∀ l ∈ (front ++ s' :: back).flatMap Statement.levels, l.1 ≤ limit) →
            Nesting.tooDeep? limit source' = none := by
  obtain ⟨pieces, laid, sequence⟩ := laidOut_of_read? h
  rw [statements] at sequence
  obtain ⟨ts', sequence', inPlace⟩ := sequence.exchange differs
  obtain ⟨semicolons, hsemicolons, all⟩ := skipSemicolons_append (Piece.lexemesFrom 0 pieces)
  refine ⟨pieces, _, semicolons ++ ts', laid, rfl, ?_, fun source' pieces' laid' tokens => ?_⟩
  · refine inPlace.trans ⟨semicolons, [], by simpa using hsemicolons, by simp, ?_, by simp⟩
    exact fun t ht => semicolon_unleaved all t (List.mem_of_getLast? ht)
  · have skipped : skipSemicolons (semicolons ++ ts') = ts' := by
      rw [skipSemicolons_semicolons all, sequence'.skipSemicolons_eq]
    have row : tokensOf (Piece.lexemesFrom 0 pieces') = tokensOf (semicolons ++ ts') := by
      rw [Piece.tokensOf_lexemesFrom, tokens]
    have rowSkipped := tokensOf_skipSemicolons row
    rw [skipped] at rowSkipped
    obtain ⟨script', read', bare⟩ := laid'.read? sequence' rowSkipped
    refine ⟨script', read', bare, fun limit low => ?_⟩
    have deep : (Nesting.tooDeep? limit source').isSome = false := by
      rw [tooDeep?_of_laidOut laid', deepStart?_isSome_congr limit row,
        ← deepStart?_skipSemicolons, skipped, sequence'.deepStart? limit,
        deepGroup?_eq_none.mpr low]
      rfl
    simpa using deep

theorem levels_of_differs {limit limit' : Nat} (le : limit ≤ limit')
    (step : ∀ depth, depth ≤ limit → (∀ l ∈ o.levels depth, l.1 ≤ limit) →
      ∀ l ∈ o'.levels depth, l.1 ≤ limit')
    (read : read? source = some script) (room : Nesting.tooDeep? limit source = none)
    (statements : script.statements = front ++ s :: back) (differs : s.Differs o o' s') :
    ∀ l ∈ (front ++ s' :: back).flatMap Statement.levels, l.1 ≤ limit' := by
  rw [tooDeep?_eq read, deepGroup?_eq_none, statements] at room
  simp only [List.flatMap_append, List.flatMap_cons, List.forall_mem_append] at room ⊢
  obtain ⟨first, middle, last⟩ := room
  exact ⟨fun l hl => Nat.le_trans (first l hl) le, differs.levels le step middle,
    fun l hl => Nat.le_trans (last l hl) le⟩

end

section

variable {before text after : List Char} {script : Script} {front back : List Statement}
  {s s' : Statement} {limit : Nat} (parsed : parse limit (before ++ (text ++ after)) = .ok script)
  (statements : script.statements = front ++ s :: back)

include parsed statements

/-- A primary may be put in parentheses, if there is room for one more level. -/
theorem parse_group {signs : List Sign} {p : Primary} {span span' : Span}
    (place : p.span = ⟨Source.byteSize before, Source.byteSize (before ++ text)⟩)
    (differs : s.Differs (.mk signs p) (.mk signs (.group (.mk (.mk [] p) .nil span) span')) s') :
    ∃ script', read? (before ++ '(' :: (text ++ ')' :: after)) = some script' ∧
      script'.statements.map Statement.bare = (front ++ s' :: back).map Statement.bare ∧
      Nesting.tooDeep? (limit + 1) (before ++ '(' :: (text ++ ')' :: after)) = none := by
  have read := read?_of_parse parsed
  obtain ⟨pieces, ts, ts', laid, rfl, ⟨first, last, hts, rfl, -⟩, reads⟩ :=
    read?_exchange read statements differs
  obtain ⟨t, begins, start⟩ := p.begins
  obtain ⟨u, ends, stop⟩ := p.ends
  rw [Operand.lexemes, List.append_assoc, ← List.append_assoc] at hts
  obtain ⟨leads, slice, later, laidLater, tokens⟩ :=
    laid.cut hts begins ends rfl (by rw [start, place]) (by rw [stop, place])
  obtain ⟨pieces', laid', tokens'⟩ := laidOut_group leads laidLater tokens slice
  obtain ⟨script', read', bare, room⟩ := reads _ _ laid' (by
    rw [tokens']
    simp [Operand.lexemes, Primary.lexemes, Expression.lexemes, Links.lexemes])
  refine ⟨script', read', bare, room _ (levels_of_differs (Nat.le_succ limit) ?_ read
    (tooDeep?_of_parse parsed) statements differs)⟩
  intro depth hd low
  simp only [Operand.levels, Primary.levels, Expression.levels, Links.levels, List.append_nil,
    p.levels_succ, List.forall_mem_cons, List.forall_mem_map] at low ⊢
  exact ⟨Nat.succ_le_succ hd, fun l hl => Nat.succ_le_succ (low l hl)⟩

/-- An operand may be exchanged for a name. -/
theorem parse_name {name : List Char} {span : Span} (isName : isName name = true)
    (place : o.span = ⟨Source.byteSize before, Source.byteSize (before ++ text)⟩)
    (differs : s.Differs o (.mk [] (.leaf (.ident name) span)) s') :
    ∃ script', parse limit (before ++ (name ++ after)) = .ok script' ∧
      script'.statements.map Statement.bare = (front ++ s' :: back).map Statement.bare := by
  have read := read?_of_parse parsed
  obtain ⟨pieces, ts, ts', laid, rfl, ⟨first, last, hts, rfl, marksBefore, marksAfter⟩, reads⟩ :=
    read?_exchange read statements differs
  obtain ⟨t, begins, start⟩ := o.begins
  obtain ⟨u, ends, stop⟩ := o.ends
  obtain ⟨leads, -, later, laidLater, tokens⟩ :=
    laid.cut hts begins ends rfl (by rw [start, place]) (by rw [stop, place])
  obtain ⟨pieces', laid', tokens'⟩ :=
    laidOut_name leads laidLater tokens isName marksBefore marksAfter
  obtain ⟨script', read', bare, room⟩ := reads _ _ laid' (by
    rw [tokens']
    simp [Operand.lexemes, Primary.lexemes])
  refine ⟨script', parse_eq_ok read' (room _ (levels_of_differs (Nat.le_refl limit) ?_ read
    (tooDeep?_of_parse parsed) statements differs)), bare⟩
  intro depth _ _ l hl
  simp [Operand.levels, Primary.levels] at hl

end

end Scriptlet.Grammar
