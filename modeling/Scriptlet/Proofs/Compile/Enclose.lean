import Scriptlet.Proofs.Compile.Reflow
import Scriptlet.Proofs.Compile.Strong
import Scriptlet.Proofs.Eval.Regrouped
import Scriptlet.Proofs.Grammar.Exchange

/-!
# A primary in parentheses

Parentheses around a primary make one group more in the formula and in the arena, and nothing else,
unless they part a minus from the number that it belongs to. So running the program gives the same.
-/
namespace Scriptlet

namespace Compile

open Arena Grammar

/-! ## Formulas with more groups -/

namespace Formula

/-- A number, or a negation that may fold into one. -/
def isSignedNumber : Formula → Bool
  | leaf (.number _) _ => true
  | unary .neg f _ => f.isSignedNumber
  | _ => false

/-- The second formula is the first one, with groups more in it. A minus keeps its number. -/
inductive Regrouped : Formula → Formula → Prop
  | leaf (l : Leaf) (span : Span) : Regrouped (leaf l span) (leaf l span)
  | enclosed {f f' : Formula} (span : Span) (inner : Regrouped f f') :
      Regrouped f (group f' span)
  | group {f f' : Formula} (span span' : Span) (inner : Regrouped f f') :
      Regrouped (group f span) (group f' span')
  | unary {op : UnaryOp} {f f' : Formula} (span span' : Span)
      (keeps : op = .neg → f.isSignedNumber = true → f' = f) (operand : Regrouped f f') :
      Regrouped (unary op f span) (unary op f' span')
  | binary {f f' g g' : Formula} (op : Operator) (left : Regrouped f f') (right : Regrouped g g') :
      Regrouped (binary op f g) (binary op f' g')

variable {f f' : Formula} {waiting waiting' : Waiting} {o o' : Operand}

theorem Regrouped.refl : ∀ f : Formula, f.Regrouped f
  | .leaf l span => .leaf l span
  | .group inner span => .group span span (refl inner)
  | .unary _ operand span => .unary span span (fun _ _ => rfl) (refl operand)
  | .binary op left right => .binary op (refl left) (refl right)

theorem Regrouped.isSignedNumber_eq_false (h : f.Regrouped f') (hf : f.isSignedNumber = false) :
    f'.isSignedNumber = false := by
  induction h with
  | leaf => exact hf
  | enclosed | group | binary => rfl
  | @unary op f f' _ _ _ _ ih =>
    cases op with
    | neg => exact ih hf
    | not => rfl

theorem Regrouped.signed (h : f.Regrouped f') (span span' : Span) {signs : List Sign}
    (apart : ∀ sign ∈ signs.head?, sign.op = .neg → f.isSignedNumber = false) :
    (Formula.signed span signs f).Regrouped (Formula.signed span' signs f') := by
  induction signs generalizing f f' with
  | nil => exact h
  | cons sign outer ih =>
    have apart := apart sign rfl
    refine ih (.unary span span' (fun neg number => ?_) h) fun next _ _ => ?_
    · rw [apart neg] at number
      contradiction
    · cases hop : sign.op with
      | neg => exact apart hop
      | not => rfl

/-- Operands that wait, with groups more in them. -/
def Waiting.Regrouped : Waiting → Waiting → Prop :=
  List.Forall₂ fun w w' => w.1.Regrouped w'.1 ∧ w'.2 = w.2

theorem Waiting.Regrouped.refl (waiting : Waiting) : waiting.Regrouped waiting :=
  List.forall₂_same.mpr fun w _ => ⟨.refl w.1, rfl⟩

theorem Waiting.Regrouped.groupBefore (next : Operator) (hw : waiting.Regrouped waiting')
    (hf : f.Regrouped f') :
    (groupBefore next waiting f).1.Regrouped (groupBefore next waiting' f').1 ∧
      (groupBefore next waiting f).2.Regrouped (groupBefore next waiting' f').2 := by
  induction hw generalizing f f' with
  | nil => exact ⟨.nil, hf⟩
  | @cons w w' rest rest' first later ih =>
    obtain ⟨left, op⟩ := w
    obtain ⟨left', op'⟩ := w'
    obtain ⟨hleft, rfl⟩ := first
    rw [Formula.groupBefore, Formula.groupBefore]
    split
    · exact ih (.binary op' hleft hf)
    · exact ⟨.cons ⟨hleft, rfl⟩ later, hf⟩

theorem Waiting.Regrouped.groupAll (hw : waiting.Regrouped waiting') (hf : f.Regrouped f') :
    (groupAll waiting f).Regrouped (groupAll waiting' f') := by
  induction hw generalizing f f' with
  | nil => exact hf
  | @cons w w' rest rest' first _ ih =>
    obtain ⟨left, op⟩ := w
    obtain ⟨left', op'⟩ := w'
    obtain ⟨hleft, rfl⟩ := first
    exact ih (.binary op' hleft hf)

theorem Waiting.Regrouped.ofLinks : ∀ (links : Links) {waiting waiting' : Waiting} {f f' : Formula},
    waiting.Regrouped waiting' → f.Regrouped f' →
      (ofLinks waiting f links).Regrouped (ofLinks waiting' f' links)
  | .nil, _, _, _, _, hw, hf => by
    rw [Formula.ofLinks, Formula.ofLinks]
    exact hw.groupAll hf
  | .cons op span operand rest, _, _, _, _, hw, hf => by
    rw [Formula.ofLinks, Formula.ofLinks]
    obtain ⟨before, left⟩ := hw.groupBefore op hf
    exact ofLinks rest (.cons ⟨left, rfl⟩ before) (.refl _)

section

variable (ho : (ofOperand o).Regrouped (ofOperand o'))

include ho

theorem regrouped_ofLinks {links links' : Links} (h : links.Exchanged o o' links')
    (hw : waiting.Regrouped waiting') (hf : f.Regrouped f') :
    (ofLinks waiting f links).Regrouped (ofLinks waiting' f' links') := by
  induction h generalizing waiting waiting' f f' with
  | @here op span rest =>
    rw [ofLinks, ofLinks]
    obtain ⟨before, left⟩ := hw.groupBefore op hf
    exact Waiting.Regrouped.ofLinks rest (.cons ⟨left, rfl⟩ before) ho
  | @later op span operand rest rest' _ ih =>
    rw [ofLinks, ofLinks]
    obtain ⟨before, left⟩ := hw.groupBefore op hf
    exact ih (.cons ⟨left, rfl⟩ before) (.refl _)

theorem regrouped_ofExpression {e e' : Expression} (h : e.Exchanged o o' e') :
    (ofExpression e).Regrouped (ofExpression e') := by
  cases h with
  | @first links span =>
    rw [ofExpression, ofExpression]
    exact Waiting.Regrouped.ofLinks links (.refl []) ho
  | @links first links links' span exchanged =>
    rw [ofExpression, ofExpression]
    exact regrouped_ofLinks ho exchanged (.refl []) (.refl _)

/-- A group that differs in one place inside has a formula with groups more there. -/
theorem regrouped_of_differs {e e' : Expression} (h : e.Differs o o' e') :
    (ofExpression e).Regrouped (ofExpression e') := by
  induction h with
  | here exchanged => exact regrouped_ofExpression ho exchanged
  | @inside signs inner inner' e e' span _ exchanged ih =>
    refine regrouped_ofExpression ?_ exchanged
    rw [ofOperand.eq_def, ofOperand.eq_def]
    simp only [ofPrimary]
    exact (Regrouped.group span span ih).signed _ _ fun _ _ _ => rfl

end

/-- Signs apply to what the primary becomes, if it is no number that a minus belongs to. -/
theorem ofOperand_eq {signs : List Sign} {primary : Primary}
    (apart : ∀ text place, primary = .leaf (.number text) place →
      ∀ sign ∈ signs.getLast?, sign.op ≠ .neg) :
    ofOperand (.mk signs primary) =
      Formula.signed (Operand.mk signs primary).span signs.reverse (ofPrimary primary) := by
  rw [ofOperand.eq_def]
  simp only
  split
  · rename_i text place minus outer hminus
    rw [← List.head?_reverse] at apart
    cases hsigns : signs.reverse with
    | nil =>
      rw [hsigns] at hminus
      contradiction
    | cons sign rest =>
      rw [hsigns, splitMinus] at hminus
      split at hminus
      · rename_i neg
        exact absurd neg (apart text place rfl sign (by rw [hsigns]; rfl))
      · contradiction
  · rfl

theorem isSignedNumber_ofPrimary {primary : Primary}
    (h : (ofPrimary primary).isSignedNumber = true) :
    ∃ text place, primary = .leaf (.number text) place := by
  cases primary with
  | leaf l span =>
    cases l with
    | number text => exact ⟨text, span, rfl⟩
    | _ => cases h
  | group inner span =>
    rw [ofPrimary] at h
    cases h

/-- A primary in parentheses gives a formula with one group more. -/
theorem regrouped_enclosed {signs : List Sign} {primary : Primary}
    (apart : ∀ text place, primary = .leaf (.number text) place →
      ∀ sign ∈ signs.getLast?, sign.op ≠ .neg) (span span' : Span) :
    (ofOperand (.mk signs primary)).Regrouped
      (ofOperand (.mk signs (.group (.mk (.mk [] primary) .nil span) span'))) := by
  have inner : ofExpression (.mk (.mk [] primary) .nil span) = ofPrimary primary := by
    rw [ofExpression, ofLinks, ofOperand_eq (by simp)]
    rfl
  rw [ofOperand_eq apart, ofOperand_eq (by simp), ofPrimary, inner]
  refine (Regrouped.enclosed span' (.refl _)).signed _ _ fun sign hsign neg => ?_
  by_contra number
  obtain ⟨text, place, rfl⟩ := isSignedNumber_ofPrimary (Bool.eq_true_of_not_eq_false number)
  rw [List.head?_reverse] at hsign
  exact apart text place rfl sign hsign neg

end Formula

/-! ## Building -/

variable {ctx : BuildContext} {scope : Scope} {a a' c c' : Arena} {f f' : Formula} {i j : NodeId}

/-- Only numbers are literals that a negation folds into. -/
theorem folded?_of_build (apart : f.isSignedNumber = false)
    (h : f.build ctx scope a = .ok (i, a')) : folded? a' .neg i = none := by
  induction f generalizing a a' i with
  | leaf l span =>
    cases l with
    | number => cases apart
    | null | boolean =>
      have hn := node?_of_eq_push (Except.ok.inj h).symm
      simp only [folded?, hn]
      rfl
    | string quote body =>
      simp only [Formula.build, compileLeaf, compileString] at h
      split at h
      · have hn := node?_of_eq_push (Except.ok.inj h).symm
        simp only [folded?, hn]
        rfl
      · contradiction
    | ident name =>
      simp only [Formula.build, compileLeaf, compileName] at h
      split at h
      · simp only [folded?, node?_of_eq_push (Except.ok.inj h).symm]
      · split at h
        · contradiction
        · simp only [folded?, node?_of_eq_push (Except.ok.inj h).symm]
  | unary op operand span ih =>
    obtain ⟨⟨k, a₁⟩, built, h⟩ := bind_eq_ok h
    rcases compileUnary_ok h with ⟨v, w, ty, rfl, literal, folds, -⟩ | ⟨-, -, h⟩
    · have none := ih apart built
      simp [folded?, literal, folds] at none
    · simp only [folded?, node?_of_eq_push h]
  | group inner span =>
    obtain ⟨node, hn, makes⟩ := build_makes h
    cases node with
    | group => simp only [folded?, hn]
    | _ => cases makes
  | binary op left right =>
    obtain ⟨node, hn, makes⟩ := build_makes h
    cases node with
    | binary => simp only [folded?, hn]
    | _ => cases makes

theorem folded?_eq_some {op : UnaryOp} {node : Node} (h : folded? a op i = some node) :
    ∃ v w ty, a.node? i = some (.literal v ty) ∧ negateLiteral? v = some w ∧
      node = .literal w ty := by
  unfold folded? at h
  split at h
  · rename_i v ty literal
    obtain ⟨w, negated, rfl⟩ := Option.map_eq_some_iff.mp h
    exact ⟨v, w, ty, literal, negated, rfl⟩
  · contradiction

/-- A negation folds with groups more if and only if it does without. -/
theorem folded?_regrouped {op : UnaryOp} (h : f.Regrouped f')
    (keeps : op = .neg → f.isSignedNumber = true → f' = f)
    (built : f.build ctx scope a = .ok (i, a')) (built' : f'.build ctx scope c = .ok (j, c'))
    (nodes : a'.Regrouped c' i j) : folded? a' op i = folded? c' op j := by
  cases op with
  | not => simp only [folded?]
  | neg =>
    cases number : f.isSignedNumber with
    | false => rw [folded?_of_build number built,
        folded?_of_build (h.isSignedNumber_eq_false number) built']
    | true =>
      obtain rfl := keeps rfl number
      obtain ⟨node, hn, makes⟩ := build_makes built'
      cases nodes with
      | leaf _ _ left right => simp only [folded?, left, right]
      | enclosed right =>
        obtain rfl := Option.some.inj (hn.symm.trans right)
        cases f' <;> cases makes
        contradiction
      | group left right | unary left right | assign left right | binary left right =>
        simp only [folded?, left, right]

theorem compileUnary_pushes (a : Arena) (op : UnaryOp) (i : NodeId) (span : Span) :
    compileUnary ctx.loose a op i span = .ok (a.push
      ((folded? a op i).getD (.unary op i (unaryTy op (a.egress i)))) (some span)) := by
  rw [compileUnary]
  cases folded? a op i <;> rfl

/-- Operands with groups more make the same operation, with tags that come to the same. -/
theorem buildBinary_regrouped {op : Operator} {l l' r r' : NodeId} (ha : a.Ordered) (hc : c.Ordered)
    (hl : a.Regrouped c l l') (hr : a.Regrouped c r r') (hll : l.index < a.size)
    (hrr : r.index < a.size) (hll' : l'.index < c.size) (hrr' : r'.index < c.size)
    (h : a.buildBinary ctx.loose op l r = .ok (i, a')) :
    ∃ j c', c.buildBinary ctx.loose op l' r' = .ok (j, c') ∧ a'.Regrouped c' i j := by
  rw [buildBinary_loose hll hrr] at h
  rw [buildBinary_loose hll' hrr', ← hl.egress_eq ha hc, ← hr.egress_eq ha hc]
  by_cases concat : op = .add ∧ (a.egress l = .string ∨ a.egress r = .string)
  · rw [if_pos concat] at h ⊢
    obtain ⟨rfl, rfl⟩ := Prod.mk.inj (Except.ok.inj h)
    exact ⟨_, _, rfl, hl.push hr (.inl rfl) (.inl rfl) _ _⟩
  · rw [if_neg concat] at h ⊢
    obtain ⟨rfl, rfl⟩ := Prod.mk.inj (Except.ok.inj h)
    exact ⟨_, _, rfl, hl.pushBinary ha hr _ _ _ _⟩

/-- A formula with groups more is built without strong typing if the one without them is, into a
tree with groups more. -/
theorem build_regrouped (h : f.Regrouped f') (ha : a.Ordered) (hc : c.Ordered)
    (built : f.build ctx.loose scope a = .ok (i, a')) :
    ∃ j c', f'.build ctx.loose scope c = .ok (j, c') ∧ a'.Regrouped c' i j := by
  induction h generalizing a a' c i with
  | leaf l span =>
    obtain ⟨node, leaf, own, built, built'⟩ := compileLeaf_loose built c
    obtain ⟨rfl, rfl⟩ := Prod.mk.inj built
    exact ⟨_, _, built', .leaf leaf own (a.node?_push _ _) (c.node?_push _ _)⟩
  | enclosed span _ ih =>
    obtain ⟨m, c₁, built', nodes⟩ := ih ha hc built
    refine ⟨⟨c₁.size⟩, (c₁.push (.group m) (some span)).2, ?_, ?_⟩
    · rw [Formula.build, built']
      rfl
    · exact .enclosed (c₁.node?_push _ _) (nodes.grows (.refl _) (c₁.grows_push _ _))
  | group span span' _ ih =>
    obtain ⟨⟨k, a₁⟩, inner, last⟩ := bind_eq_ok built
    obtain ⟨rfl, rfl⟩ := Prod.mk.inj (Except.ok.inj last)
    obtain ⟨m, c₁, inner', nodes⟩ := ih ha hc inner
    refine ⟨⟨c₁.size⟩, (c₁.push (.group m) (some span')).2, ?_, ?_⟩
    · rw [Formula.build, inner']
      rfl
    · exact .group (a₁.node?_push _ _) (c₁.node?_push _ _)
        (nodes.grows (a₁.grows_push _ _) (c₁.grows_push _ _))
  | @unary op f f' span span' keeps operand ih =>
    obtain ⟨⟨k, a₁⟩, inner, last⟩ := bind_eq_ok built
    obtain ⟨m, c₁, inner', nodes⟩ := ih ha hc inner
    obtain ⟨-, planted⟩ := build_planted ha inner
    obtain ⟨-, planted'⟩ := build_planted hc inner'
    have folds := folded?_regrouped operand keeps inner inner' nodes
    have egress := nodes.egress_eq planted.ordered planted'.ordered
    have build' : (Formula.unary op f' span').build ctx.loose scope c =
        compileUnary ctx.loose c₁ op m span' := by
      rw [Formula.build, inner']
      rfl
    have last : compileUnary ctx.loose a₁ op k span = .ok (i, a') := last
    rw [compileUnary_pushes, folds, egress] at last
    rw [build', compileUnary_pushes]
    cases hf : folded? c₁ op m with
    | some node =>
      obtain ⟨v, w, ty, literal, negated, rfl⟩ := folded?_eq_some (folds.trans hf)
      rw [hf] at last
      obtain ⟨rfl, rfl⟩ := Prod.mk.inj (Except.ok.inj last)
      obtain rfl : ty = w.ty := (nodes.own literal).trans (ty_of_negateLiteral negated).symm
      exact ⟨_, _, rfl, .leaf rfl (fun _ _ => own_literal) (a₁.node?_push _ _)
        (c₁.node?_push _ _)⟩
    | none =>
      rw [hf] at last
      obtain ⟨rfl, rfl⟩ := Prod.mk.inj (Except.ok.inj last)
      exact ⟨_, _, rfl, .unary (a₁.node?_push _ _) (c₁.node?_push _ _)
        (nodes.grows (a₁.grows_push _ _) (c₁.grows_push _ _))⟩
  | binary op _ _ ihl ihr =>
    obtain ⟨⟨l, a₁⟩, h₁, last⟩ := bind_eq_ok built
    obtain ⟨⟨r, a₂⟩, h₂, last⟩ := bind_eq_ok last
    obtain ⟨l', c₁, h₁', nodesLeft⟩ := ihl ha hc h₁
    obtain ⟨-, plantedLeft⟩ := build_planted ha h₁
    obtain ⟨-, plantedLeft'⟩ := build_planted hc h₁'
    obtain ⟨r', c₂, h₂', nodesRight⟩ := ihr plantedLeft.ordered plantedLeft'.ordered h₂
    obtain ⟨grows, plantedRight⟩ := build_planted plantedLeft.ordered h₂
    obtain ⟨grows', plantedRight'⟩ := build_planted plantedLeft'.ordered h₂'
    obtain ⟨j, c', last', nodes⟩ := buildBinary_regrouped plantedRight.ordered
      plantedRight'.ordered (nodesLeft.grows grows grows') nodesRight
      (Nat.lt_of_lt_of_le plantedLeft.index_lt grows.size_le) plantedRight.index_lt
      (Nat.lt_of_lt_of_le plantedLeft'.index_lt grows'.size_le) plantedRight'.index_lt
      (ofBuilt_ok last)
    refine ⟨j, c', ?_, nodes⟩
    simp only [Formula.build, h₁', h₂', last', bind, Except.bind, ofBuilt, Except.mapError]

/-! ## Statements -/

/-- The second statement has groups more. -/
inductive StatementRegrouped : Statement → Statement → Prop
  | expression {e e' : Expression}
      (value : (Formula.ofExpression e).Regrouped (Formula.ofExpression e')) :
      StatementRegrouped (.expression e) (.expression e')
  | assignment {name : List Char} {span span' : Span} {e e' : Expression}
      (value : (Formula.ofExpression e).Regrouped (Formula.ofExpression e')) :
      StatementRegrouped (.assignment name span e) (.assignment name span' e')

theorem StatementRegrouped.refl (s : Statement) : StatementRegrouped s s := by
  cases s with
  | expression e => exact .expression (.refl _)
  | assignment name span e => exact .assignment (.refl _)

theorem statementRegrouped_of_differs {o o' : Operand}
    (ho : (Formula.ofOperand o).Regrouped (Formula.ofOperand o')) {s s' : Statement}
    (h : s.Differs o o' s') : StatementRegrouped s s' := by
  cases h with
  | expression differs => exact .expression (Formula.regrouped_of_differs ho differs)
  | assignment differs => exact .assignment (Formula.regrouped_of_differs ho differs)

theorem compileStatement_regrouped {s s' : Statement} {scope' : Scope}
    (h : StatementRegrouped s s') (ha : a.Ordered) (hc : c.Ordered)
    (compiled : compileStatement ctx.loose scope a s = .ok (i, scope', a')) :
    ∃ j c', compileStatement ctx.loose scope c s' = .ok (j, scope', c') ∧
      a'.Regrouped c' i j := by
  cases h with
  | expression value =>
    obtain ⟨k, a₁, built, same⟩ := compileStatement_expression compiled
    cases same
    obtain ⟨m, c₁, built', nodes⟩ := build_regrouped value ha hc built
    refine ⟨m, c₁, ?_, nodes⟩
    rw [compileStatement, Formula.compileExpression_eq, built']
  | @assignment name span span' e e' value =>
    obtain ⟨k, a₁, built, same⟩ := compileStatement_assignment compiled
    cases same
    obtain ⟨m, c₁, built', nodes⟩ := build_regrouped value ha hc built
    obtain ⟨-, planted⟩ := build_planted ha built
    obtain ⟨-, planted'⟩ := build_planted hc built'
    have egress := nodes.egress_eq planted.ordered planted'.ordered
    refine ⟨⟨c₁.size⟩, (c₁.push (.assign (String.ofList name) m (c₁.egress m))
      (some (Statement.assignment name span' e').span)).2, ?_, ?_⟩
    · rw [compileStatement, Formula.compileExpression_eq, built', egress]
      rfl
    · refine .assign (a₁.node?_push _ _) ?_ (nodes.grows (a₁.grows_push _ _) (c₁.grows_push _ _))
      rw [egress]
      exact c₁.node?_push _ _

theorem compileStatements_regrouped {lines : Option LineIndex} (lines' : Option LineIndex)
    {ss ss' : List Statement} {is : List NodeId} (h : List.Forall₂ StatementRegrouped ss ss')
    (ha : a.Ordered) (hc : c.Ordered)
    (compiled : compileStatements ctx.loose lines scope a ss = .ok (is, a')) :
    ∃ js c', compileStatements ctx.loose lines' scope c ss' = .ok (js, c') ∧
      List.Forall₂ (a'.Regrouped c') is js := by
  induction h generalizing scope a c is with
  | nil =>
    obtain ⟨rfl, rfl⟩ := Prod.mk.inj (Except.ok.inj compiled)
    exact ⟨[], c, rfl, .nil⟩
  | @cons s s' rest rest' first _ ih =>
    obtain ⟨i, is, scope', a₁, compiledFirst, compiledRest, rfl⟩ := compileStatements_cons compiled
    obtain ⟨j, c₁, compiledFirst', nodes⟩ := compileStatement_regrouped first ha hc compiledFirst
    obtain ⟨-, planted⟩ := compileStatement_planted ha compiledFirst
    obtain ⟨-, planted'⟩ := compileStatement_planted hc compiledFirst'
    obtain ⟨grows, -, ordered⟩ := located_layout ctx.loose lines i planted.ordered
    obtain ⟨grows', -, ordered'⟩ := located_layout ctx.loose lines' j planted'.ordered
    obtain ⟨js, c', compiledRest', later⟩ := ih ordered ordered' compiledRest
    obtain ⟨growsRest, -⟩ := compileStatements_layout ordered compiledRest
    obtain ⟨growsRest', -⟩ := compileStatements_layout ordered' compiledRest'
    exact ⟨j :: js, c', compileStatements_eq_ok compiledFirst' compiledRest',
      .cons (nodes.grows (grows.trans growsRest) (grows'.trans growsRest')) later⟩

end Compile

/-! ## Programs -/

variable {ctx : BuildContext} {inputs : List (String × Ty)} {debugSymbols : Bool} {limit : Nat}
  {p : Program}

open Evaluation in
/-- In loose mode a primary may be put in parentheses, if it is no number that a minus belongs to.
There is room for one more level of them, and where there is, the source compiles. Its runs give
the same value, or an error of the same kind, and the same bindings as those of the source without
these parentheses, unless one of the two runs comes to the depth limit. -/
theorem enclose_primary {before text after : List Char} {script : Grammar.Script}
    {e : Grammar.Expression} {signs : List Grammar.Sign} {primary : Grammar.Primary}
    (loose : ctx.strongTyping = false) (source : ctx.source = before ++ (text ++ after))
    (compiled : compile ctx inputs debugSymbols limit = .ok p)
    (parsed : Grammar.parse limit ctx.source = .ok script) (he : e ∈ script.expressions)
    (ho : .mk signs primary ∈ e.operands)
    (place : primary.span = ⟨Source.byteSize before, Source.byteSize (before ++ text)⟩)
    (apart : ∀ number span, primary = .leaf (.number number) span →
      ∀ sign ∈ signs.getLast?, sign.op ≠ .neg) :
    let enclosed := before ++ '(' :: (text ++ ')' :: after)
    Grammar.Nesting.tooDeep? (limit + 1) enclosed = none ∧
    ∀ limit', Grammar.Nesting.tooDeep? limit' enclosed = none →
      ∃ q, compile { ctx with source := enclosed } inputs debugSymbols limit' = .ok q ∧
        ∀ (s s' : Evaluation) (b : Bindings), s.arena = p.arena → s'.arena = q.arena →
          s'.conversions = s.conversions → s'.mode = s.mode →
          ¬ Answer.Exceeds (s.evalAll p.statements b) →
          ¬ Answer.Exceeds (s'.evalAll q.statements b) →
          Answer.Alike (s.evalAll p.statements b) (s'.evalAll q.statements b) := by
  intro enclosed
  have same := BuildContext.loose_eq loose
  obtain ⟨script', parsed', h⟩ := compile_ok compiled
  obtain rfl := Except.ok.inj (parsed.symm.trans parsed')
  obtain ⟨statement, mem, he⟩ := List.mem_flatMap.mp he
  obtain ⟨front, back, statements⟩ := List.append_of_mem mem
  obtain ⟨statement', differs⟩ := Grammar.Statement.exists_differs
    (.mk signs (.group (.mk (.mk [] primary) .nil .origin) .origin)) ho statement he
  rw [source] at parsed
  obtain ⟨script', read, bare, room⟩ := Grammar.parse_group parsed statements place differs
  refine ⟨room, fun limit' room' => ?_⟩
  have regrouped : List.Forall₂ Compile.StatementRegrouped (front ++ statement :: back)
      (front ++ statement' :: back) :=
    List.rel_append (List.forall₂_same.mpr fun s _ => .refl s)
      (.cons (Compile.statementRegrouped_of_differs
        (Compile.Formula.regrouped_enclosed apart _ _) differs)
        (List.forall₂_same.mpr fun s _ => .refl s))
  rw [statements, ← same] at h
  obtain ⟨js, c, compiled', nodes⟩ :=
    Compile.compileStatements_regrouped none regrouped .empty .empty h
  rw [same] at compiled'
  obtain ⟨q, hq, roots, arena⟩ := compile_of_bare (Grammar.parse_eq_ok read room') bare compiled'
  refine ⟨q, hq, fun s s' b hs hs' conversions mode => ?_⟩
  refine evalFrom_regrouped conversions mode ?_ .null b
  rw [hs, hs', roots]
  exact nodes.imp fun _ _ h => h.mono (fun _ _ hn => hn) fun x _ hn =>
    (Arena.node?_congr arena x).trans hn

open Evaluation in
/-- The literal on the right of an operation on another type. -/
theorem enclose_primary_literal :
    ∃ p q, compile (strict "b = a * 2; -b + 1").loose [("a", .primitive .long)] true 128 = .ok p ∧
      compile { (strict "").loose with source := "b = a * (2); -b + 1".toList }
        [("a", .primitive .long)] true 128 = .ok q ∧
      Answer.Alike
        ((⟨p.arena, .empty, 16, .accelerated⟩ : Evaluation).evalAll p.statements
          (.ofList [("a", .long 5)]))
        ((⟨q.arena, .empty, 16, .accelerated⟩ : Evaluation).evalAll q.statements
          (.ofList [("a", .long 5)])) := by
  have within : (compile (strict "b = a * 2; -b + 1").loose [("a", .primitive .long)] true 128).map
      (fun p => decide (Answer.Exceeds ((⟨p.arena, .empty, 16, .accelerated⟩ : Evaluation).evalAll
        p.statements (.ofList [("a", .long 5)])))) = .ok false := by
    decide +kernel
  have within' : (compile { (strict "").loose with source := "b = a * (2); -b + 1".toList }
      [("a", .primitive .long)] true 128).map
      (fun q => decide (Answer.Exceeds ((⟨q.arena, .empty, 16, .accelerated⟩ : Evaluation).evalAll
        q.statements (.ofList [("a", .long 5)])))) = .ok false := by
    decide +kernel
  have present : (Grammar.parse 128 "b = a * 2; -b + 1".toList).map (fun script =>
      (script.expressions.flatMap (·.operands)).any fun o =>
        o.lexemes.length = 1 ∧ o.span = ⟨8, 9⟩) = .ok true := by
    decide +kernel
  obtain ⟨p, hp, within⟩ := Kernel.map_eq_ok within
  obtain ⟨script, parsed, present⟩ := Kernel.map_eq_ok present
  obtain ⟨⟨signs, primary⟩, mem, found⟩ := List.any_eq_true.mp present
  obtain ⟨e, he, ho⟩ := List.mem_flatMap.mp mem
  obtain ⟨single, place⟩ := of_decide_eq_true found
  obtain rfl : signs = [] := by
    obtain ⟨t, rest, heq, -⟩ := primary.starts
    rw [Grammar.Operand.lexemes, heq, List.length_append, List.length_cons, List.length_map]
      at single
    exact List.eq_nil_of_length_eq_zero (by omega)
  have source : (strict "b = a * 2; -b + 1").loose.source =
      "b = a * ".toList ++ ("2".toList ++ "; -b + 1".toList) := rfl
  obtain ⟨-, compiles⟩ :=
    enclose_primary rfl source hp parsed he ho place (by simp)
  obtain ⟨q, hq, alike⟩ := compiles 128 (by decide +kernel)
  obtain ⟨q', hq', within'⟩ := Kernel.map_eq_ok within'
  obtain rfl := Except.ok.inj (hq.symm.trans hq')
  exact ⟨p, q, hp, hq, alike _ _ _ rfl rfl rfl rfl (of_decide_eq_false within)
    (of_decide_eq_false within')⟩

end Scriptlet
