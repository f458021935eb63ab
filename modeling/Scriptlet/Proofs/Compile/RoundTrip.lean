import Scriptlet.Proofs.Compile.Reflow
import Scriptlet.Proofs.Compile.Strong
import Scriptlet.Proofs.Compile.Written

/-!
# Compiling what is rendered

A legible source compiles, without strong typing, into terms that are written as operands. What is
rendered is laid out in the tokens of these operands, so it is read as them and compiles into the
same terms.
-/
namespace Scriptlet

open Grammar

section

variable {ctx : BuildContext} {scope : Scope} {a a' : Arena} {id l r : NodeId} {t u : Term}
  {signs : List Sign} {p : Primary}

/-! ## Building terms -/

/-- A minus sign is folded into numbers only. -/
theorem Term.Written.folded?_eq_none (h : t.Written scope signs p) (holds : a.Holds id t)
    {op : UnaryOp} (apart : op = .neg → signs = [] → p.isNumber = false) :
    Compile.folded? a op id = none := by
  unfold Compile.folded?
  split
  · rename_i v ty node
    obtain rfl := holds.unique (.literal node)
    cases h with
    | literal legible =>
      cases legible with
      | integer fits => cases apart rfl rfl
      | null | boolean | string => rfl
  · rfl

theorem Term.Written.compileUnary_eq (h : t.Written scope signs p)
    (loose : ctx.strongTyping = false) (ha : a.Ordered) (holds : a.Holds id t) {op : UnaryOp}
    (apart : op = .neg → signs = [] → p.isNumber = false) (span : Span) :
    Compile.compileUnary ctx a op id span =
      .ok (a.push (.unary op id (Compile.unaryTy op t.ty)) (some span)) := by
  rw [Compile.compileUnary, h.folded?_eq_none holds apart, holds.egress ha, loose]
  rfl

/-- Without strong typing every operation can be built. -/
theorem Arena.Holds.buildBinary (loose : ctx.strongTyping = false) (ha : a.Ordered)
    (left : a.Holds l t) (right : a.Holds r u) (op : Operator) :
    ∃ a', a.buildBinary ctx op l r = .ok (⟨a.size⟩, a') ∧
      a'.Holds ⟨a.size⟩ (.binary op t u (joinedTy op t.ty u.ty)) := by
  have same := BuildContext.loose_eq loose
  have pushed (node : BinaryNode) (span : Option Span) (hl : node.left = l) (hr : node.right = r) :
      (a.push (.binary node) span).2.Holds ⟨a.size⟩ (.binary node.op t u node.egress) := by
    subst hl hr
    have grows := a.grows_push (.binary node) span
    exact .binary (a.node?_push _ span) (left.grows grows) (right.grows grows)
  rw [← same, buildBinary_loose left.index_lt right.index_lt, left.egress ha, right.egress ha,
    joinedTy]
  split
  · exact ⟨_, rfl, pushed _ _ rfl rfl⟩
  · obtain ⟨ltag, rtag, -, -, push⟩ := a.pushBinary_eq op l r (op.resultTy t.ty u.ty) t.ty u.ty
      (a.joinedSpan l r)
    rw [push]
    exact ⟨_, rfl, pushed _ _ rfl rfl⟩

namespace Compile

open Formula

/-- Without strong typing every name can be used. -/
theorem compileName_loose (loose : ctx.strongTyping = false) (a : Arena) (name : String)
    (span : Span) :
    compileName ctx scope a name span =
      .ok (a.push (.variable name ((scope.lookup? name).getD .any)) (some span)) := by
  rw [compileName, loose]
  cases scope.lookup? name <;> rfl

/-- A leaf that compiles is a term that is written as a leaf. -/
theorem compileLeaf_written (loose : ctx.strongTyping = false) {l : Leaf} {span : Span}
    (legible : l.isLegible = true) (spelled : ∃ text, Token.Spelled (.leaf l) text)
    (h : compileLeaf ctx scope a span l = .ok (id, a')) :
    ∃ t l', a'.Holds id t ∧ t.Written scope [] (.leaf l' .origin) ∧
      ((leaf l span).isNumber = false → (Primary.leaf l' .origin).isNumber = false) := by
  have pushed {v : Value} {l' : Leaf} (hv : v.Legible l')
      (h : Except.ok (pushLiteral a v span) = (Except.ok (id, a') : Compiled)) :
      a'.Holds id (.literal v v.ty) ∧
        (Term.literal v v.ty).Written scope [] (.leaf l' .origin) := by
    obtain ⟨rfl, rfl⟩ := Prod.mk.inj (Except.ok.inj h)
    exact ⟨.literal (a.node?_push _ _), .literal hv⟩
  obtain ⟨text, spelled⟩ := spelled
  cases l with
  | null =>
    obtain ⟨holds, written⟩ := pushed .null h
    exact ⟨_, _, holds, written, fun _ => rfl⟩
  | boolean b =>
    obtain ⟨holds, written⟩ := pushed (.boolean b) h
    exact ⟨_, _, holds, written, fun _ => rfl⟩
  | number digits =>
    have digit : ∀ c ∈ digits, c.isDigit = true := List.all_eq_true.mp legible
    have present : digits ≠ [] := spelled.number_ne_nil
    rw [compileLeaf, compileNumber, Literal.readNumber?_digits present digit] at h
    split at h
    · rename_i v fits
      obtain ⟨holds, written⟩ := pushed (.integer fits) h
      exact ⟨_, _, holds, written, fun number => Bool.noConfusion number⟩
    · contradiction
  | string quote body =>
    rw [Leaf.isLegible] at legible
    rw [compileLeaf, compileString] at h
    split at h
    · rename_i text' unescaped
      rw [unescaped] at legible
      have plain : ∀ c ∈ (String.ofList text').toList, isPlain c = true := by
        rw [String.toList_ofList]
        exact List.all_eq_true.mp legible
      obtain ⟨holds, written⟩ := pushed (.string plain) h
      exact ⟨_, _, holds, written, fun _ => rfl⟩
    · contradiction
  | ident name =>
    obtain rfl := spelled.eq_name
    rw [compileLeaf, compileName_loose loose] at h
    obtain ⟨rfl, rfl⟩ := Prod.mk.inj (Except.ok.inj h)
    exact ⟨_, _, .reference (a.node?_push _ _), .reference spelled, fun _ => rfl⟩

/-- A legible formula that can be built is built into a term that is written as an operand. -/
theorem build_written (loose : ctx.strongTyping = false) {f : Formula} (legible : f.Legible)
    (ha : a.Ordered) (h : f.build ctx scope a = .ok (id, a')) :
    ∃ t signs p, a'.Holds id t ∧ t.Written scope signs p ∧
      (f.isNumber = false → signs = [] → p.isNumber = false) := by
  induction f generalizing a a' id with
  | leaf l span =>
    obtain ⟨t, l', holds, written, number⟩ :=
      compileLeaf_written loose legible.1 legible.2 h
    exact ⟨t, [], _, holds, written, fun other _ => number other⟩
  | group inner span ih =>
    obtain ⟨⟨i, a₁⟩, h₁, h⟩ := bind_eq_ok h
    obtain ⟨rfl, rfl⟩ := Prod.mk.inj (Except.ok.inj h)
    obtain ⟨t, signs, p, holds, written, number⟩ := ih legible ha h₁
    exact ⟨t, signs, p, .group (a₁.node?_push _ _) (holds.grows (a₁.grows_push _ _)), written,
      number⟩
  | unary op operand span ih =>
    obtain ⟨legible, unsigned⟩ := legible
    obtain ⟨⟨i, a₁⟩, h₁, h⟩ := bind_eq_ok h
    obtain ⟨t, signs, p, holds, written, number⟩ := ih legible ha h₁
    have apart : op = .neg → signs = [] → p.isNumber = false := fun neg => number (unsigned neg)
    have ordered := (build_planted ha h₁).2.ordered
    have h : compileUnary ctx a₁ op i span = .ok (id, a') := h
    rw [written.compileUnary_eq loose ordered holds apart] at h
    obtain ⟨rfl, rfl⟩ := Prod.mk.inj (Except.ok.inj h)
    exact ⟨_, _, p, .unary (a₁.node?_push _ _) (holds.grows (a₁.grows_push _ _)),
      .unary written apart, by simp⟩
  | binary op left right ihl ihr =>
    obtain ⟨⟨l, a₁⟩, h₁, h⟩ := bind_eq_ok h
    obtain ⟨⟨r, a₂⟩, h₂, h⟩ := bind_eq_ok h
    obtain ⟨t, signs, p, holdsLeft, writtenLeft, -⟩ := ihl legible.1 ha h₁
    have ordered := (build_planted ha h₁).2.ordered
    obtain ⟨u, signs', p', holdsRight, writtenRight, -⟩ := ihr legible.2 ordered h₂
    obtain ⟨grows, planted⟩ := build_planted ordered h₂
    obtain ⟨b, built, holds⟩ :=
      (holdsLeft.grows grows).buildBinary loose planted.ordered holdsRight op
    rw [ofBuilt_ok h] at built
    obtain ⟨rfl, rfl⟩ := Prod.mk.inj (Except.ok.inj built)
    exact ⟨_, [], _, holds, .binary op writtenLeft writtenRight, fun _ _ => rfl⟩

end Compile

/-! ## Building operands -/

namespace Term.Written

open Compile Formula

theorem splitMinus_eq_none (h : t.Written scope signs p) (number : p.isNumber = true) :
    splitMinus signs.reverse = none := by
  induction h with
  | literal | reference | binary => rfl
  | @unary op t signs p written apart ih =>
    have inner := ih number
    rw [List.reverse_cons]
    cases hs : signs.reverse with
    | nil =>
      have positive : op ≠ .neg := by
        intro neg
        rw [apart neg (List.reverse_eq_nil_iff.mp hs)] at number
        contradiction
      exact if_neg positive
    | cons last outer =>
      rw [hs] at inner
      have positive : last.op ≠ .neg := by
        intro neg
        rw [splitMinus, if_pos neg] at inner
        contradiction
      exact if_neg positive

theorem span_eq (h : t.Written scope signs p) : p.span = .origin := by
  induction h with
  | literal | reference | binary => rfl
  | unary _ _ ih => exact ih

theorem ofOperand_eq (h : t.Written scope signs p) :
    ofOperand (.mk signs p) = signed .origin signs.reverse (ofPrimary p) := by
  have place : (Operand.mk signs p).span = .origin := by
    cases h with
    | literal | reference | binary => rfl
    | unary written =>
      rw [Operand.span, written.span_eq]
      rfl
  simp only [ofOperand.eq_def]
  split
  · rename_i minus outer hminus
    rw [h.splitMinus_eq_none rfl] at hminus
    contradiction
  · rw [place]

theorem ofOperand_unary {op : UnaryOp} (h : t.Written scope signs p)
    (apart : op = .neg → signs = [] → p.isNumber = false) :
    ofOperand (.mk (⟨op, .origin⟩ :: signs) p) = .unary op (ofOperand (.mk signs p)) .origin := by
  rw [(h.unary apart).ofOperand_eq, h.ofOperand_eq, List.reverse_cons, signed_append]
  rfl

/-- The operand that a term is written as is built into the term. -/
theorem build_ok (h : t.Written scope signs p) (loose : ctx.strongTyping = false)
    (ha : a.Ordered) :
    ∃ id a', (ofOperand (.mk signs p)).build ctx scope a = .ok (id, a') ∧ a'.Holds id t := by
  induction h generalizing a with
  | @literal v l legible =>
    have written : (Term.literal v v.ty).Written scope [] (.leaf l .origin) := .literal legible
    rw [written.ofOperand_eq]
    exact ⟨_, _, legible.compileLeaf ctx scope a .origin, .literal (a.node?_push _ _)⟩
  | @reference name spelled =>
    have written : (Term.reference (String.ofList name) _).Written scope [] _ := .reference spelled
    rw [written.ofOperand_eq]
    exact ⟨_, _, compileName_loose loose a _ .origin, .reference (a.node?_push _ _)⟩
  | @unary op t signs p written apart ih =>
    obtain ⟨id, a₁, built, holds⟩ := ih ha
    have ordered := (build_planted ha built).2.ordered
    rw [written.ofOperand_unary apart, Formula.build, built]
    exact ⟨_, _, written.compileUnary_eq loose ordered holds apart .origin,
      .unary (a₁.node?_push _ _) (holds.grows (a₁.grows_push _ _))⟩
  | @binary l r signs signs' p p' op left right ihl ihr =>
    obtain ⟨i, a₁, builtLeft, holdsLeft⟩ := ihl ha
    have ordered := (build_planted ha builtLeft).2.ordered
    obtain ⟨j, a₂, builtRight, holdsRight⟩ := ihr ordered
    obtain ⟨grows, planted⟩ := build_planted ordered builtRight
    obtain ⟨a₃, joined, holds⟩ :=
      (holdsLeft.grows grows).buildBinary loose planted.ordered holdsRight op
    have grouped : ofOperand (.mk [] (.group (.mk (.mk signs p) (.cons op .origin (.mk signs' p')
        .nil) .origin) .origin)) =
        .group (.binary op (ofOperand (.mk signs p)) (ofOperand (.mk signs' p'))) .origin := by
      rw [(binary op left right).ofOperand_eq]
      rfl
    have built : (Formula.binary op (ofOperand (.mk signs p)) (ofOperand (.mk signs' p'))).build
        ctx scope a = .ok (⟨a₂.size⟩, a₃) := by
      simp only [Formula.build, builtLeft, builtRight, joined, bind, Except.bind, ofBuilt,
        Except.mapError]
    rw [grouped, Formula.build, built]
    exact ⟨_, _, rfl, .group (a₃.node?_push _ _) (holds.grows (a₃.grows_push _ _))⟩

end Term.Written

end

/-! ## Statements -/

/-- Statements as which clauses are written, in the scope of the first one. -/
inductive Listing : Scope → List Clause → List Statement → Prop
  | nil (scope : Scope) : Listing scope [] []
  | expression {scope : Scope} {t : Term} {signs : List Sign} {p : Primary} {cs : List Clause}
      {ss : List Statement} (written : t.Written scope signs p) (later : Listing scope cs ss) :
    Listing scope (.expression t :: cs) (.expression (.mk (.mk signs p) .nil .origin) :: ss)
  | assignment {scope : Scope} {name : List Char} {t : Term} {signs : List Sign} {p : Primary}
      {cs : List Clause} {ss : List Statement} (spelled : Token.Spelled (.leaf (.ident name)) name)
      (written : t.Written scope signs p)
      (later : Listing (scope.declare (String.ofList name) t.ty) cs ss) :
    Listing scope (.assign (String.ofList name) t t.ty :: cs)
      (.assignment name .origin (.mk (.mk signs p) .nil .origin) :: ss)

namespace Compile

variable {ctx : BuildContext} {scope : Scope}

/-- Legible statements that compile are clauses that can be listed again. -/
theorem compileStatements_listing (loose : ctx.strongTyping = false) {lines : Option LineIndex}
    {a final : Arena} {ss : List Statement} {roots : List NodeId} (ha : a.Ordered)
    (h : compileStatements ctx lines scope a ss = .ok (roots, final))
    (legible : ∀ s ∈ ss, s.isLegible = true)
    (spelled : ∀ s ∈ ss, ∃ front, s.Spelled front ∧ AllSpelled front) :
    ∃ cs ss', Listing scope cs ss' ∧ List.Forall₂ final.States roots cs := by
  have listed := compileStatements_ind (motive := fun scope ss roots =>
    (∀ s ∈ ss, s.isLegible = true) → (∀ s ∈ ss, ∃ front, s.Spelled front ∧ AllSpelled front) →
      ∃ cs ss', Listing scope cs ss' ∧ List.Forall₂ final.States roots cs)
    (fun scope _ _ => ⟨[], [], .nil scope, .nil⟩) ?_ ?_ ha h
  · exact listed legible spelled
  · intro scope e rest id roots a a' ha built grows hfinal later legible spelled
    obtain ⟨legible, legibleRest⟩ := List.forall_mem_cons.mp legible
    obtain ⟨⟨front, spelled, all⟩, spelledRest⟩ := List.forall_mem_cons.mp spelled
    cases spelled
    obtain ⟨t, signs, p, holds, written, -⟩ :=
      build_written loose (Formula.ofExpression_legible e legible all).1 ha built
    obtain ⟨cs, ss, listing, states⟩ := later legibleRest spelledRest
    exact ⟨_, _, .expression written listing, .cons (.expression (holds.grows grows)) states⟩
  · intro scope name nameSpan value rest id roots a a' ha built grows hfinal later legible spelled
    obtain ⟨legible, legibleRest⟩ := List.forall_mem_cons.mp legible
    obtain ⟨⟨front, spelled, all⟩, spelledRest⟩ := List.forall_mem_cons.mp spelled
    cases spelled
    obtain ⟨⟨text, named⟩, all⟩ := List.forall_mem_cons.mp all
    obtain ⟨-, all⟩ := List.forall_mem_cons.mp all
    obtain ⟨t, signs, p, holds, written, -⟩ :=
      build_written loose (Formula.ofExpression_legible value legible all).1 ha built
    rw [holds.egress (build_planted ha built).2.ordered] at grows later
    obtain ⟨cs, ss, listing, states⟩ := later legibleRest spelledRest
    obtain rfl := named.eq_name
    have below := (a'.grows_push _ _).trans grows
    exact ⟨_, _, .assignment named written listing,
      .cons (.assign grows.pushed.1 (holds.grows below)) states⟩

end Compile

namespace Listing

open Compile

variable {scope : Scope} {cs : List Clause} {ss : List Statement}

theorem compileExpression_operand (ctx : BuildContext) (scope : Scope) (a : Arena) (o : Operand)
    (span : Span) :
    compileExpression ctx scope a (.mk o .nil span) = (Formula.ofOperand o).build ctx scope a :=
  Formula.compileExpression_eq a (.mk o .nil span)

/-- Listed statements compile into the clauses that they list. -/
theorem compile {ctx : BuildContext} (h : Listing scope cs ss) (loose : ctx.strongTyping = false)
    {a : Arena} (ha : a.Ordered) :
    ∃ roots a', compileStatements ctx none scope a ss = .ok (roots, a') ∧
      List.Forall₂ a'.States roots cs := by
  induction h generalizing a with
  | nil scope => exact ⟨[], a, rfl, .nil⟩
  | @expression scope t signs p cs ss written _ ih =>
    obtain ⟨id, a₁, built, holds⟩ := written.build_ok loose ha
    have compiled : compileStatement ctx scope a (.expression (.mk (.mk signs p) .nil .origin)) =
        .ok (id, scope, a₁) := by
      rw [compileStatement, compileExpression_operand, built]
    have ordered := (build_planted ha built).2.ordered
    obtain ⟨roots, a₂, later, states⟩ := ih ordered
    obtain ⟨grows, -⟩ := compileStatements_layout ordered later
    exact ⟨_, _, compileStatements_eq_ok compiled later,
      .cons (.expression (holds.grows grows)) states⟩
  | @assignment scope name t signs p cs ss spelled written _ ih =>
    obtain ⟨id, a₁, built, holds⟩ := written.build_ok loose ha
    have planted := (build_planted ha built).2
    have compiled : ∃ span, compileStatement ctx scope a
        (.assignment name .origin (.mk (.mk signs p) .nil .origin)) =
          .ok (⟨a₁.size⟩, scope.declare (String.ofList name) t.ty,
            (a₁.push (.assign (String.ofList name) id t.ty) span).2) := by
      rw [compileStatement, compileExpression_operand, built]
      dsimp only
      rw [holds.egress planted.ordered]
      exact ⟨_, rfl⟩
    obtain ⟨span, compiled⟩ := compiled
    have ordered : (a₁.push (.assign (String.ofList name) id t.ty) span).2.Ordered :=
      (planted.over rfl span).ordered
    obtain ⟨roots, a₂, later, states⟩ := ih ordered
    obtain ⟨grows, -⟩ := compileStatements_layout ordered later
    have below := (a₁.grows_push _ _).trans grows
    exact ⟨_, _, compileStatements_eq_ok compiled later,
      .cons (.assign grows.pushed.1 (holds.grows below)) states⟩

/-- Clauses with semicolons between them. -/
def text (cs : List Clause) : List Char := "; ".toList.intercalate (cs.map Clause.chars)

/-- What follows the first of several clauses, and its tokens. -/
theorem laidOut_later {pieces : List Piece} {front : List Lexeme} (h : Listing scope cs ss)
    (laid : LaidOut (' ' :: text cs) pieces) (tokens : pieces.map (·.token) = tokensOf front)
    (sequence : Sequence front ss) :
    ∃ rest pieces front, (∀ c : Clause, text (c :: cs) = c.chars ++ rest) ∧ Stops rest ∧
      LaidOut rest pieces ∧ pieces.map (·.token) = tokensOf front ∧
      ∀ s ts, s.Spelled ts → Sequence (ts ++ front) (s :: ss) := by
  cases cs with
  | nil =>
    cases h
    refine ⟨[], [], [], fun c => by simp [text], by simp [Stops],
      .done (by simp [splitTrivia]), rfl,
      fun s ts spelled => ?_⟩
    rw [List.append_nil]
    exact .last spelled
  | cons c cs =>
    have semicolon : Token.Spelled .semicolon [';'] := .mark rfl
    refine ⟨';' :: ' ' :: text (c :: cs), _, ⟨.semicolon, .origin⟩ :: front, fun c' => ?_,
      stops_cons (.inr (.inr rfl)) _,
      .piece .nil semicolon ((stops_cons (.inl rfl) _).clear _) laid, ?_, fun s ts spelled => ?_⟩
    · rw [text, text, List.map_cons, List.map_cons, List.intercalate_cons_cons]
      simp
    · rw [List.map_cons, tokens, tokensOf_cons]
    · exact .more spelled rfl (by rwa [sequence.skipSemicolons_eq])

/-- The text of clauses is laid out in the tokens of the statements that list them. -/
theorem laidOut (h : Listing scope cs ss) {gap : List Char} (trivia : Trivia gap) :
    ∃ pieces front, LaidOut (gap ++ text cs) pieces ∧ pieces.map (·.token) = tokensOf front ∧
      Sequence front ss := by
  have blank : Trivia [' '] := .blank rfl .nil
  induction h generalizing gap with
  | nil =>
    refine ⟨[], [], .done ?_, rfl, .nil⟩
    rw [splitTrivia_of_trivia trivia]
    simp [text, splitTrivia]
  | @expression scope t signs p cs ss written listing ih =>
    obtain ⟨pieces, front, laid, tokens, sequence⟩ := ih blank
    obtain ⟨rest, pieces, front, append, stops, laid, tokens, sequence⟩ :=
      listing.laidOut_later laid tokens sequence
    obtain ⟨pieces', laid, tokens'⟩ := written.laidOut trivia laid stops
    refine ⟨pieces', _, by rw [append]; exact laid, ?_, sequence _ _ (.expression _)⟩
    rw [tokens', tokens, tokensOf_append, Expression.lexemes, Links.lexemes, List.append_nil]
  | @assignment scope name t signs p cs ss spelled written listing ih =>
    obtain ⟨pieces, front, laid, tokens, sequence⟩ := ih blank
    obtain ⟨rest, pieces, front, append, stops, laid, tokens, sequence⟩ :=
      listing.laidOut_later laid tokens sequence
    obtain ⟨pieces', laid, tokens'⟩ := written.laidOut blank laid stops
    have assign : Token.Spelled .assign ['='] := .mark rfl
    have assigned := LaidOut.piece blank assign ((stops_cons (.inl rfl) _).clear _) laid
    have named := LaidOut.piece trivia spelled ((stops_cons (.inl rfl) _).clear _) assigned
    have whole : text (.assign (String.ofList name) t t.ty :: cs) =
        name ++ (' ' :: '=' :: ' ' :: (t.chars ++ rest)) := by
      rw [append, Clause.chars, String.toList_ofList]
      simp
    rw [whole]
    refine ⟨_, _, named, ?_, sequence _ _ (.assignment name .origin .origin _)⟩
    simp only [List.map_cons, tokens', tokens, tokensOf_append, tokensOf_cons, Expression.lexemes,
      Links.lexemes, List.append_nil, List.cons_append]

end Listing

/-! ## The round trip -/

namespace Program

/-- What is rendered for the statements, with semicolons in between. -/
def text (p : Program) : List Char :=
  "; ".toList.intercalate (p.statements.map fun root => (p.arena.render root).toList)

/-- The statements of the programs are the same but for groups. -/
def SameClauses (p q : Program) : Prop :=
  ∃ cs, List.Forall₂ p.arena.States p.statements cs ∧
    List.Forall₂ q.arena.States q.statements cs

theorem text_eq {p : Program} (ordered : p.arena.Ordered) {cs : List Clause}
    (h : List.Forall₂ p.arena.States p.statements cs) : p.text = Listing.text cs := by
  have rendered {roots : List NodeId} {cs : List Clause}
      (h : List.Forall₂ p.arena.States roots cs) :
      roots.map (fun root => (p.arena.render root).toList) = cs.map Clause.chars := by
    induction h with
    | nil => rfl
    | cons states _ ih => rw [List.map_cons, List.map_cons, ih, states.render ordered]
  rw [text, Listing.text, rendered h]

end Program

/-- What is rendered for a legible source compiles into the statements that it was rendered for. -/
theorem compile_text {ctx : BuildContext} (loose : ctx.strongTyping = false)
    {inputs : List (String × Ty)} {debugSymbols : Bool} {limit : Nat} {p : Program}
    (hp : compile ctx inputs debugSymbols limit = .ok p) {script : Script}
    (parsed : Grammar.parse limit ctx.source = .ok script)
    (legible : ∀ s ∈ script.statements, s.isLegible = true) (debugSymbols' : Bool) {limit' : Nat}
    (high : Grammar.openings p.text ≤ limit') :
    ∃ q, compile { ctx with source := p.text } inputs debugSymbols' limit' = .ok q ∧
      p.SameClauses q := by
  obtain ⟨_, parsed', compiled⟩ := compile_ok hp
  obtain rfl := Except.ok.inj (parsed.symm.trans parsed')
  obtain ⟨pieces, laid, sequence⟩ := laidOut_of_read? (read?_of_parse parsed)
  have spelled := sequence.allSpelled fun t ht =>
    laid.allSpelled 0 t (List.dropWhile_subset _ ht)
  obtain ⟨cs, ss, listing, states⟩ :=
    Compile.compileStatements_listing loose .empty compiled legible spelled
  have ordered : p.arena.Ordered := (compile_layout hp).1
  obtain ⟨pieces', front, laid', tokens, sequence'⟩ := listing.laidOut .nil
  rw [List.nil_append, ← Program.text_eq ordered states] at laid'
  have same : tokensOf (Piece.lexemesFrom 0 pieces') = tokensOf front := by
    rw [Piece.tokensOf_lexemesFrom, tokens]
  obtain ⟨script', read, bare⟩ := laid'.read? sequence'
    ((tokensOf_skipSemicolons same).trans (by rw [sequence'.skipSemicolons_eq]))
  have parsed' : Grammar.parse limit' p.text = .ok script' := by
    rw [Grammar.parse, tooDeep?_eq_none laid' high, read]
  -- The statements that were read are those of the listing, at other places.
  obtain ⟨roots, a, compiled', states'⟩ := listing.compile loose .empty
  have alike := Compile.alike_compileStatements ctx p.text (.ofInputs inputs) none
    (debugLines { ctx with source := p.text } debugSymbols') ss script'.statements
    (rfl : Arena.empty.nodes = Arena.empty.nodes) bare.symm
  rw [compiled'] at alike
  obtain ⟨⟨roots', b⟩, compiled'', rfl, nodes⟩ := alike.exists_of_ok
  refine ⟨_, compile_eq_ok parsed' compiled'', cs, states, states'.imp fun root c h => ?_⟩
  exact h.of_nodes fun i node hn => by rwa [← Arena.node?_congr nodes]

/-- Signs beside each other, an equality after an assignment, and groups that are not rendered. -/
theorem compile_text_signs :
    ∃ p q, compile (strict "x = (a) == -!(-a); '\t\\'' + 3000000000").loose
        [("a", .primitive .int)] true 128 = .ok p ∧
      compile { (strict "x = (a) == -!(-a); '\t\\'' + 3000000000").loose with source := p.text }
        [("a", .primitive .int)] false 2 = .ok q ∧
      p.SameClauses q := by
  have compiled : (compile (strict "x = (a) == -!(-a); '\t\\'' + 3000000000").loose
      [("a", .primitive .int)] true 128).map (fun p => decide (Grammar.openings p.text ≤ 2)) =
        .ok true := by
    decide +kernel
  have read : (Grammar.parse 128 "x = (a) == -!(-a); '\t\\'' + 3000000000".toList).map
      (fun s => s.statements.all Statement.isLegible) = .ok true := by
    decide +kernel
  obtain ⟨p, hp, high⟩ := Kernel.map_eq_ok compiled
  obtain ⟨script, parsed, legible⟩ := Kernel.map_eq_ok read
  obtain ⟨q, hq, same⟩ := compile_text rfl hp parsed (List.all_eq_true.mp legible) false
    (of_decide_eq_true high)
  exact ⟨p, q, hp, hq, same⟩

end Scriptlet
