import Scriptlet.Proofs.Compile.Formula
import Scriptlet.Proofs.Grammar.Ranges

/-!
# Extents of formulas

The formula of a tree stands in the tokens of the tree: each part starts and ends where a token
does, lies in the part that it belongs to, and the right side of an operation comes after the left
one.
-/
namespace Scriptlet.Compile.Formula

open Grammar

/-- The span of the node that is built for a formula. -/
def span : Formula → Span
  | .leaf _ span | .group _ span | .unary _ _ span => span
  | .binary _ left right => left.span.combine right.span

/-- All parts are solid spans of the source, each inside of the one around it and the sides of an
operation one after the other. -/
inductive Sound (source : List Char) : Formula → Prop
  | leaf (l : Leaf) {span : Span} (solid : span.Solid source) : Sound source (.leaf l span)
  | group {inner : Formula} {span : Span} (solid : span.Solid source) (sound : Sound source inner)
      (within : inner.span.Within span) : Sound source (.group inner span)
  | unary (op : UnaryOp) {operand : Formula} {span : Span} (solid : span.Solid source)
      (sound : Sound source operand) (within : operand.span.Within span) :
      Sound source (.unary op operand span)
  | binary (op : Operator) {left right : Formula} (soundLeft : Sound source left)
      (soundRight : Sound source right) (apart : left.span.stop ≤ right.span.start) :
      Sound source (.binary op left right)

variable {source : List Char} {ts ts' : List Lexeme}

theorem Sound.solid {f : Formula} (h : f.Sound source) : f.span.Solid source := by
  induction h with
  | leaf _ solid => exact solid
  | group solid => exact solid
  | unary _ solid => exact solid
  | binary op _ _ apart left right =>
    have := left.present
    have := right.present
    exact left.combine right (by omega)

theorem Sound.of_group {inner : Formula} {span : Span}
    (h : (Formula.group inner span).Sound source) :
    span.Solid source ∧ inner.Sound source ∧ inner.span.Within span := by
  cases h with
  | group solid sound within => exact ⟨solid, sound, within⟩

theorem Sound.of_unary {op : UnaryOp} {operand : Formula} {span : Span}
    (h : (Formula.unary op operand span).Sound source) :
    span.Solid source ∧ operand.Sound source ∧ operand.span.Within span := by
  cases h with
  | unary _ solid sound within => exact ⟨solid, sound, within⟩

theorem Sound.of_binary {op : Operator} {left right : Formula}
    (h : (Formula.binary op left right).Sound source) :
    left.Sound source ∧ right.Sound source ∧ left.span.stop ≤ right.span.start := by
  cases h with
  | binary _ soundLeft soundRight apart => exact ⟨soundLeft, soundRight, apart⟩

/-- The formula starts with the first one of some tokens and ends with the last one. -/
structure Stands (source : List Char) (ts : List Lexeme) (f : Formula) : Prop where
  sound : f.Sound source
  starts : ∃ t ∈ ts, t.span.start = f.span.start
  stops : ∃ t ∈ ts, t.span.stop = f.span.stop

theorem Stands.mono {f : Formula} (h : f.Stands source ts) (sub : ts ⊆ ts') :
    f.Stands source ts' where
  sound := h.sound
  starts := h.starts.imp fun _ ht => ⟨sub ht.1, ht.2⟩
  stops := h.stops.imp fun _ ht => ⟨sub ht.1, ht.2⟩

/-! ## Chains -/

/-- The operands of a chain stand in the tokens, each after those that wait. -/
structure Aligned (source : List Char) (ts : List Lexeme) (waiting : Waiting) (last : Formula) :
    Prop where
  stands : ∀ f ∈ last :: waiting.map (·.1), f.Stands source ts
  sorted : (last :: waiting.map (·.1)).Pairwise fun later earlier =>
    earlier.span.stop ≤ later.span.start

theorem Aligned.merge {waiting : Waiting} {left last : Formula} {op : Operator}
    (h : Aligned source ts ((left, op) :: waiting) last) :
    Aligned source ts waiting (.binary op left last) := by
  obtain ⟨stands, sorted⟩ := h
  simp only [List.map_cons, List.forall_mem_cons] at stands
  obtain ⟨standsLast, standsLeft, rest⟩ := stands
  obtain ⟨afterLast, sorted⟩ := List.pairwise_cons.mp sorted
  refine ⟨List.forall_mem_cons.mpr ⟨⟨?_, standsLeft.starts, standsLast.stops⟩, rest⟩, ?_⟩
  · exact .binary op standsLeft.sound standsLast.sound (afterLast left (List.mem_cons_self ..))
  · exact List.pairwise_cons.mpr (List.pairwise_cons.mp sorted)

theorem Aligned.groupBefore (next : Operator) {waiting : Waiting} {last : Formula}
    (h : Aligned source ts waiting last) :
    Aligned source ts (groupBefore next waiting last).1 (groupBefore next waiting last).2 := by
  induction waiting generalizing last with
  | nil => exact h
  | cons entry rest ih =>
    rw [Formula.groupBefore]
    split
    · exact ih h.merge
    · exact h

theorem Aligned.groupAll {waiting : Waiting} {last : Formula}
    (h : Aligned source ts waiting last) : (groupAll waiting last).Stands source ts := by
  induction waiting generalizing last with
  | nil => exact h.stands last (List.mem_cons_self ..)
  | cons entry rest ih => exact ih h.merge

/-- An operand in later tokens comes after all that wait. -/
theorem Aligned.next {waiting : Waiting} {last operand : Formula} {op : Operator}
    (h : Aligned source ts waiting last) (later : operand.Stands source ts')
    (cross : ∀ a ∈ ts, ∀ b ∈ ts', a.span.stop ≤ b.span.start) :
    Aligned source (ts ++ ts') ((last, op) :: waiting) operand := by
  refine ⟨List.forall_mem_cons.mpr ⟨later.mono (List.subset_append_right ..), fun f hf =>
    (h.stands f hf).mono (List.subset_append_left ..)⟩, List.pairwise_cons.mpr ⟨?_, h.sorted⟩⟩
  intro f hf
  obtain ⟨a, ha, hstop⟩ := (h.stands f hf).stops
  obtain ⟨b, hb, hstart⟩ := later.starts
  rw [← hstop, ← hstart]
  exact cross a ha b hb

/-! ## Signs -/

theorem span_signed (span : Span) (signs : List Sign) {f : Formula} (h : f.span = span) :
    (signed span signs f).span = span := by
  induction signs generalizing f with
  | nil => exact h
  | cons sign outer ih => exact ih rfl

theorem signed_sound {span : Span} (solid : span.Solid source) (signs : List Sign) {f : Formula}
    (h : f.Sound source) (within : f.span.Within span) : (signed span signs f).Sound source := by
  induction signs generalizing f with
  | nil => exact h
  | cons sign outer ih =>
    exact ih (.unary sign.op solid h within) ⟨Nat.le_refl _, Nat.le_refl _⟩

theorem splitMinus_eq {signs outer : List Sign} {minus : Sign}
    (h : splitMinus signs.reverse = some (minus, outer)) :
    minus.op = .neg ∧ signs = outer.reverse ++ [minus] := by
  unfold splitMinus at h
  split at h
  · rename_i sign rest hsigns
    split at h
    · rename_i hop
      obtain ⟨rfl, rfl⟩ := Prod.mk.inj (Option.some.inj h)
      exact ⟨hop, by rw [← List.reverse_cons, ← hsigns, List.reverse_reverse]⟩
    · contradiction
  · contradiction

theorem span_ofPrimary (p : Primary) : (ofPrimary p).span = p.span := by
  cases p <;> rfl

theorem span_ofOperand (o : Operand) : (ofOperand o).span = o.span := by
  obtain ⟨signs, p⟩ := o
  simp only [ofOperand.eq_def]
  split
  · rename_i text numberSpan minus outer hminus
    obtain ⟨-, rfl⟩ := splitMinus_eq hminus
    cases outer with
    | nil => rfl
    | cons sign outer => exact span_signed _ outer rfl
  · rename_i primary _ _ _
    cases hsigns : signs.reverse with
    | nil =>
      obtain rfl := List.reverse_eq_nil_iff.mp hsigns
      exact span_ofPrimary primary
    | cons sign outer => exact span_signed _ outer rfl

/-! ## Trees -/

mutual

theorem ofPrimary_stands :
    ∀ p : Primary, Lexed source p.lexemes → (ofPrimary p).Stands source p.lexemes
  | .leaf l span, lexed => by
    have mem : (⟨.leaf l, span⟩ : Lexeme) ∈ Primary.lexemes (.leaf l span) :=
      List.mem_singleton_self _
    exact ⟨.leaf l (lexed.solid _ mem), ⟨_, mem, rfl⟩, ⟨_, mem, rfl⟩⟩
  | .group inner span, lexed => by
    rw [Primary.lexemes] at lexed ⊢
    obtain ⟨within, closing, cross⟩ := lexed.tail.append
    have stands := ofExpression_stands inner within
    obtain ⟨a, ha, hstart⟩ := stands.starts
    obtain ⟨b, hb, hstop⟩ := stands.stops
    have opens := (List.pairwise_cons.mp lexed.ordered.sorted).1 a (List.mem_append_left _ ha)
    have closes := cross b hb _ (List.mem_singleton_self _)
    have present := stands.sound.solid.present
    have first := lexed.solid _ (List.mem_cons_self ..)
    have last := closing.solid _ (List.mem_singleton_self _)
    have := first.present
    have := last.present
    dsimp only at *
    have solid : span.Solid source :=
      .of_boundaries (by omega) first.valid.start last.valid.stop
    refine ⟨.group solid stands.sound ⟨?_, ?_⟩, ⟨_, List.mem_cons_self .., rfl⟩, ?_⟩
    · rw [← hstart]
      omega
    · rw [← hstop]
      omega
    · exact ⟨⟨.rparen, ⟨span.stop - 1, span.stop⟩⟩, by simp, rfl⟩

theorem ofOperand_stands :
    ∀ o : Operand, Lexed source o.lexemes → (ofOperand o).Stands source o.lexemes
  | .mk signs p, lexed => by
    have starts : ∃ t ∈ (Operand.mk signs p).lexemes,
        t.span.start = (ofOperand (.mk signs p)).span.start := by
      obtain ⟨t, rest, heq, hstart⟩ := (Operand.mk signs p).starts
      exact ⟨t, heq ▸ List.mem_cons_self .., by rw [hstart, span_ofOperand]⟩
    have stops : ∃ t ∈ (Operand.mk signs p).lexemes,
        t.span.stop = (ofOperand (.mk signs p)).span.stop := by
      rw [span_ofOperand]
      exact (Operand.mk signs p).stops
    refine ⟨?_, starts, stops⟩
    have solid := Operand.solid lexed
    have start_le := Operand.start_le lexed
    have stop_eq := Operand.stop_eq signs p
    rw [Operand.lexemes] at lexed start_le
    obtain ⟨lexedSigns, lexedPrimary, cross⟩ := lexed.append
    simp only [ofOperand.eq_def]
    split
    · rename_i text numberSpan minus outer hminus
      obtain ⟨-, rfl⟩ := splitMinus_eq hminus
      have hmem : minus.lexeme ∈ (outer.reverse ++ [minus]).map Sign.lexeme := by simp
      have before := cross _ hmem _ (List.mem_singleton_self _)
      have minusSolid := lexedSigns.solid _ hmem
      have numberSolid := lexedPrimary.solid _ (List.mem_singleton_self _)
      have := minusSolid.present
      have := numberSolid.present
      have folded : (minus.span.combine numberSpan).Solid source := by
        refine .of_boundaries ?_ minusSolid.valid.start numberSolid.valid.stop
        simp only [Sign.lexeme, Span.combine] at *
        omega
      refine signed_sound solid outer (.leaf _ folded) ⟨?_, ?_⟩
      · exact start_le minus.lexeme (List.mem_append_left _ hmem)
      · exact Nat.le_of_eq stop_eq.symm
    · rename_i primary _ _ _
      have stands := ofPrimary_stands primary lexedPrimary
      obtain ⟨t, ht, hstart⟩ := stands.starts
      refine signed_sound solid signs.reverse stands.sound ⟨?_, ?_⟩
      · exact hstart ▸ start_le t (List.mem_append_right _ ht)
      · exact Nat.le_of_eq (stop_eq ▸ congrArg Span.stop (span_ofPrimary primary))

theorem ofLinks_stands {ts : List Lexeme} {waiting : Waiting} {last : Formula} :
    ∀ links : Links, Aligned source ts waiting last → Lexed source (ts ++ links.lexemes) →
      (ofLinks waiting last links).Stands source (ts ++ links.lexemes)
  | .nil, aligned, _ => by
    rw [ofLinks, Links.lexemes, List.append_nil]
    exact aligned.groupAll
  | .cons op span operand rest, aligned, lexed => by
    have parts : ts ++ (Links.cons op span operand rest).lexemes =
        ts ++ (⟨.operator op, span⟩ :: operand.lexemes) ++ rest.lexemes := by
      rw [Links.lexemes, List.append_assoc, List.cons_append]
    rw [parts] at lexed ⊢
    obtain ⟨chain, -, -⟩ := lexed.append
    obtain ⟨-, lexedOperand, cross⟩ := chain.append
    have stands : (ofOperand operand).Stands source (⟨.operator op, span⟩ :: operand.lexemes) :=
      (ofOperand_stands operand lexedOperand.tail).mono (List.subset_cons_self ..)
    rw [ofLinks]
    exact ofLinks_stands rest ((aligned.groupBefore op).next stands cross) lexed

theorem ofExpression_stands :
    ∀ e : Expression, Lexed source e.lexemes → (ofExpression e).Stands source e.lexemes
  | .mk first links span, lexed => by
    rw [Expression.lexemes] at lexed ⊢
    have stands := ofOperand_stands first lexed.append.1
    have aligned : Aligned source first.lexemes [] (ofOperand first) :=
      ⟨by simpa using stands, by simp⟩
    rw [ofExpression]
    exact ofLinks_stands links aligned lexed

end

/-! ## Ends of expressions -/

theorem stop_groupAll (waiting : Waiting) (last : Formula) :
    (groupAll waiting last).span.stop = last.span.stop := by
  induction waiting generalizing last with
  | nil => rfl
  | cons entry rest ih => exact ih _

theorem stop_ofLinks (waiting : Waiting) (last : Formula) (links : Links) :
    (ofLinks waiting last links).span.stop = links.stop last.span.stop := by
  cases links with
  | nil =>
    rw [ofLinks]
    exact stop_groupAll waiting last
  | cons op span operand rest =>
    rw [ofLinks, stop_ofLinks, span_ofOperand]
    rfl

/-- An expression goes on to the end of its formula or further, and ends between characters. -/
theorem stop_le_of_ranged {e : Expression} (ranged : e.Ranged source)
    (sound : (ofExpression e).Sound source) :
    (ofExpression e).span.stop ≤ e.span.stop ∧
      Source.isBoundary e.span.stop source = true := by
  cases ranged with
  | exact first links =>
    have stop : (ofExpression (.mk first links ⟨first.span.start,
        links.stop first.span.stop⟩)).span.stop = links.stop first.span.stop := by
      rw [ofExpression, stop_ofLinks, span_ofOperand]
    refine ⟨Nat.le_of_eq stop, ?_⟩
    have boundary := sound.solid.valid.stop
    rwa [stop] at boundary
  | beyond after boundary =>
    refine ⟨?_, boundary⟩
    rw [ofExpression, stop_ofLinks, span_ofOperand]
    exact after

/-! ## Statements -/

/-- The formula of a statement is sound and, in an assignment, lies inside of it. -/
inductive StatementSound (source : List Char) : Statement → Prop
  | expression {e : Expression} (sound : (ofExpression e).Sound source) :
    StatementSound source (.expression e)
  | assignment {name : List Char} {nameSpan : Span} {value : Expression}
      (sound : (ofExpression value).Sound source)
      (solid : (Statement.assignment name nameSpan value).span.Solid source)
      (within : (ofExpression value).span.Within
        (Statement.assignment name nameSpan value).span) :
    StatementSound source (.assignment name nameSpan value)

theorem statementSound_of_spelled {s : Statement} (spelled : s.Spelled ts) (lexed : Lexed source ts)
    (ranged : s.Ranged source) : StatementSound source s := by
  cases spelled with
  | expression e => exact .expression (ofExpression_stands e lexed).sound
  | assignment name nameSpan span value =>
    have stands := ofExpression_stands value lexed.tail.tail
    obtain ⟨t, ht, hstart⟩ := stands.starts
    have after := (List.pairwise_cons.mp lexed.ordered.sorted).1 t (List.mem_cons_of_mem _ ht)
    have name := lexed.solid _ (List.mem_cons_self ..)
    cases ranged with
    | assignment _ _ ranged =>
      obtain ⟨stop, boundary⟩ := stop_le_of_ranged ranged stands.sound
      have := name.present
      have := stands.sound.solid.present
      rw [hstart] at after
      dsimp only at *
      refine .assignment stands.sound ?_ ?_
      · refine .of_boundaries ?_ name.valid.start boundary
        simp only [Statement.span, Span.combine]
        omega
      · refine ⟨?_, stop⟩
        simp only [Statement.span, Span.combine]
        omega

theorem statementSound_of_sequence {ss : List Statement} (sequence : Sequence ts ss)
    (lexed : Lexed source ts) (ranged : ∀ s ∈ ss, s.Ranged source) :
    ∀ s ∈ ss, StatementSound source s := by
  induction sequence with
  | nil => simp
  | last spelled =>
    simp only [List.mem_singleton, forall_eq] at ranged ⊢
    exact statementSound_of_spelled spelled lexed ranged
  | more spelled semicolon later ih =>
    obtain ⟨ranged, rangedRest⟩ := List.forall_mem_cons.mp ranged
    obtain ⟨first, rest, -⟩ := lexed.append
    exact List.forall_mem_cons.mpr
      ⟨statementSound_of_spelled spelled first ranged, ih rest.tail.skipSemicolons rangedRest⟩

theorem statementSound_of_parse {limit : Nat} {script : Script}
    (h : parse limit source = .ok script) :
    ∀ s ∈ script.statements, StatementSound source s := by
  obtain ⟨ts, lexed, sequence, ranged⟩ := ranged_of_parse h
  exact statementSound_of_sequence sequence lexed ranged

end Scriptlet.Compile.Formula
