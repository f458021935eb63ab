import Mathlib.Data.List.Forall2
import Scriptlet.Proofs.Compile.Grouping
import Scriptlet.Proofs.Compile.Strong

/-!
# Compiled chains

The nodes that the compiler appends for a formula show it, node by node, but for the literals that
strong typing converts. So the operations of an expression are grouped by precedence, with strong
typing and without.
-/
namespace Scriptlet

namespace Grouping

variable {α β : Type}

/-- Groupings of one shape whose operands are related in order. -/
inductive Rel (R : α → β → Prop) : Grouping α → Grouping β → Prop
  | operand {x : α} {y : β} (related : R x y) : Rel R (.operand x) (.operand y)
  | operation {op : Operator} {l r : Grouping α} {l' r' : Grouping β} (left : Rel R l l')
      (right : Rel R r r') : Rel R (.operation op l r) (.operation op l' r')

def shape : Grouping α → Grouping Unit
  | operand _ => operand ()
  | operation op left right => operation op left.shape right.shape

variable {R : α → β → Prop} {g : Grouping α} {g' : Grouping β}

theorem Rel.shape_eq (h : Rel R g g') : g.shape = g'.shape := by
  induction h with
  | operand => rfl
  | operation _ _ ihl ihr => rw [shape, shape, ihl, ihr]

theorem Rel.operators_eq (h : Rel R g g') : g.operators = g'.operators := by
  induction h with
  | operand => rfl
  | operation _ _ ihl ihr => rw [operators, operators, ihl, ihr]

theorem Rel.operands (h : Rel R g g') : List.Forall₂ R g.operands g'.operands := by
  induction h with
  | operand related => exact .cons related .nil
  | operation _ _ ihl ihr => exact List.rel_append ihl ihr

theorem Rel.exists_of_mem (h : Rel R g g') {y : β} (hy : y ∈ g'.operands) :
    ∃ x, R x y := by
  induction h with
  | operand related =>
    obtain rfl := List.mem_singleton.mp hy
    exact ⟨_, related⟩
  | operation _ _ ihl ihr =>
    rcases List.mem_append.mp hy with hy | hy
    · exact ihl hy
    · exact ihr hy

theorem Rel.top?_eq (h : Rel R g g') : g.top? = g'.top? := by
  cases h <;> rfl

theorem Rel.byPrecedence (h : Rel R g g') (hg : g'.ByPrecedence) : g.ByPrecedence := by
  induction h with
  | operand => trivial
  | operation left right ihl ihr =>
    obtain ⟨takesLeft, takesRight, hleft, hright⟩ := hg
    exact ⟨left.top?_eq ▸ takesLeft, right.top?_eq ▸ takesRight, ihl hleft, ihr hright⟩

end Grouping

namespace Grammar

/-- The node that a leaf becomes. -/
inductive Leaf.Shows : Leaf → Node → Prop
  | null : Shows .null (.literal .null .null)
  | boolean (b : Bool) : Shows (.boolean b) (.literal (.boolean b) (.boxed .boolean))
  | number {text : List Char} {v : Value} (reads : Literal.readNumber? text = some v) :
      Shows (.number text) (.literal v v.ty)
  | string {quote : Char} {body text : List Char} (reads : Literal.unescape body = .ok text) :
      Shows (.string quote body) (.literal (.string (String.ofList text)) .string)
  | ident (name : List Char) (ty : Ty) : Shows (.ident name) (.variable (String.ofList name) ty)

mutual

def Primary.expressions : Primary → List Expression
  | .leaf .. => []
  | .group inner _ => inner.expressions

def Operand.expressions : Operand → List Expression
  | .mk _ primary => primary.expressions

def Links.expressions : Links → List Expression
  | .nil => []
  | .cons _ _ operand rest => operand.expressions ++ rest.expressions

/-- An expression and all those in parentheses inside of it. -/
def Expression.expressions : Expression → List Expression
  | .mk first links span => .mk first links span :: (first.expressions ++ links.expressions)

end

/-- The expression of a statement. -/
def Statement.value : Statement → Expression
  | .expression e => e
  | .assignment _ _ e => e

/-- All expressions of a script. -/
def Script.expressions (script : Script) : List Expression :=
  script.statements.flatMap (·.value.expressions)

end Grammar

open Compile

namespace Arena

/-- Strong typing put one literal in the place of another: its conversion, at its span. -/
def Converts (ctx : BuildContext) (a : Arena) (old new : NodeId) : Prop :=
  ctx.strongTyping = true ∧ ∃ v ty target w place, a.node? old = some (.literal v ty) ∧
    ctx.conversions.convert v target = .ok w ∧
    a.node? new = some (.literal (w.heldBy place) target) ∧ a.span? new = a.span? old

/-- The tree under a node is that of a formula. A literal on the right may be converted, and the
negative of a literal folded. -/
inductive Shows (ctx : BuildContext) (a : Arena) : NodeId → Formula → Prop
  | leaf {id : NodeId} {l : Grammar.Leaf} {node : Node} {span : Span}
      (stands : a.node? id = some node) (place : a.span? id = some span) (shows : l.Shows node) :
      Shows ctx a id (.leaf l span)
  | group {id inner : NodeId} {f : Formula} {span : Span}
      (node : a.node? id = some (.group inner)) (place : a.span? id = some span)
      (shows : Shows ctx a inner f) : Shows ctx a id (.group f span)
  | unary {id operand : NodeId} {op : UnaryOp} {ty : Ty} {f : Formula} {span : Span}
      (node : a.node? id = some (.unary op operand ty)) (place : a.span? id = some span)
      (shows : Shows ctx a operand f) : Shows ctx a id (.unary op f span)
  | folded {id operand : NodeId} {v w : Value} {ty : Ty} {f : Formula} {span : Span}
      (literal : a.node? operand = some (.literal v ty)) (negative : negateLiteral? v = some w)
      (node : a.node? id = some (.literal w ty)) (place : a.span? id = some span)
      (shows : Shows ctx a operand f) : Shows ctx a id (.unary .neg f span)
  | binary {id right : NodeId} {n : BinaryNode} {f g : Formula}
      (node : a.node? id = some (.binary n)) (left : Shows ctx a n.left f)
      (shows : Shows ctx a right g) (stands : n.right = right ∨ Converts ctx a right n.right) :
      Shows ctx a id (.binary n.op f g)

/-- The node of a formula, or the conversion of that literal. -/
def Stands (ctx : BuildContext) (a : Arena) (id : NodeId) (f : Formula) : Prop :=
  ∃ shown, a.Shows ctx shown f ∧ (id = shown ∨ a.Converts ctx shown id)

/-- The operations from a node down to the first nodes that are none. -/
inductive Reads (a : Arena) : NodeId → Grouping NodeId → Prop
  | operand {id : NodeId} (other : a.binary? id = none) : Reads a id (.operand id)
  | operation {id : NodeId} {n : BinaryNode} {l r : Grouping NodeId}
      (node : a.node? id = some (.binary n)) (left : Reads a n.left l)
      (right : Reads a n.right r) : Reads a id (.operation n.op l r)

/-- The chain of an expression is combined as its grouping by precedence, which is the only one. -/
structure Combines (ctx : BuildContext) (a : Arena) (id : NodeId) (e : Grammar.Expression)
    (g : Grouping NodeId) : Prop where
  reads : a.Reads id g
  operators : g.operators = e.operators
  operands : List.Forall₂ (a.Stands ctx) g.operands (e.operands.map Formula.ofOperand)
  byPrecedence : g.ByPrecedence
  unique : ∀ g' : Grouping NodeId, g'.operators = e.operators → g'.operands = g.operands →
    g'.ByPrecedence → g' = g

variable {ctx : BuildContext} {a : Arena} {id : NodeId}

theorem binary?_eq_none {node : Node} (h : a.node? id = some node)
    (other : ∀ n, node ≠ .binary n) : a.binary? id = none := by
  cases node with
  | binary n => exact absurd rfl (other n)
  | _ => simp only [binary?, h]

theorem Shows.chain_of_literal {f : Formula} {v : Value} {ty : Ty} (h : a.Shows ctx id f)
    (literal : a.node? id = some (.literal v ty)) : f.chain = .operand f := by
  cases h with
  | binary node =>
    rw [literal] at node
    cases node
  | _ => rfl

theorem Shows.reads {f : Formula} (h : a.Shows ctx id f) :
    ∃ g, a.Reads id g ∧ g.Rel (a.Stands ctx) f.chain := by
  have self {f : Formula} {id : NodeId} (h : a.Shows ctx id f) : a.Stands ctx id f :=
    ⟨id, h, .inl rfl⟩
  induction h with
  | @leaf id l node span hnode hspan shows =>
    have other : a.binary? id = none :=
      binary?_eq_none hnode fun n hn => by
        subst hn
        cases shows
    exact ⟨_, .operand other, .operand (self (.leaf hnode hspan shows))⟩
  | group node place shows =>
    exact ⟨_, .operand (binary?_eq_none node (by simp)),
      .operand (self (.group node place shows))⟩
  | unary node place shows =>
    exact ⟨_, .operand (binary?_eq_none node (by simp)),
      .operand (self (.unary node place shows))⟩
  | folded literal negative node place shows =>
    exact ⟨_, .operand (binary?_eq_none node (by simp)),
      .operand (self (.folded literal negative node place shows))⟩
  | @binary id right n f g node left shows stands ihl ihr =>
    obtain ⟨l, readsLeft, relLeft⟩ := ihl
    rcases stands with same | converts
    · obtain ⟨r, readsRight, relRight⟩ := ihr
      rw [← same] at readsRight
      exact ⟨_, .operation node readsLeft readsRight, .operation relLeft relRight⟩
    · have stands : a.Stands ctx n.right g := ⟨right, shows, .inr converts⟩
      obtain ⟨-, v, ty, target, w, place, old, -, new, -⟩ := converts
      have chain : g.chain = .operand g := shows.chain_of_literal old
      have readsRight : a.Reads n.right (.operand n.right) :=
        .operand (binary?_eq_none new (by simp))
      refine ⟨_, .operation node readsLeft readsRight, .operation relLeft ?_⟩
      rw [chain]
      exact .operand stands

theorem Shows.combines {e : Grammar.Expression} (h : a.Shows ctx id (Formula.ofExpression e)) :
    ∃ g, a.Combines ctx id e g ∧ g.shape = (Formula.ofExpression e).chain.shape := by
  obtain ⟨g, reads, rel⟩ := h.reads
  obtain ⟨operators, operands, byPrecedence⟩ := Formula.groups_ofExpression e
  have sameOperators : g.operators = e.operators := rel.operators_eq.trans operators
  have ordered : g.ByPrecedence := rel.byPrecedence byPrecedence
  refine ⟨g, ⟨reads, sameOperators, operands ▸ rel.operands, ordered, ?_⟩, rel.shape_eq⟩
  intro g' hoperators hoperands hg'
  exact hg'.unique ordered (hoperators.trans sameOperators.symm) hoperands

/-! ## Expressions in parentheses -/

def Shown (ctx : BuildContext) (a : Arena) (f : Formula) : Prop := ∃ id, a.Shows ctx id f

theorem Shown.of_signed {span : Span} {signs : List Grammar.Sign} {f : Formula}
    (h : a.Shown ctx (Formula.signed span signs f)) : a.Shown ctx f := by
  induction signs generalizing f with
  | nil => exact h
  | cons sign outer ih =>
    obtain ⟨id, h⟩ := ih h
    generalize hf : Formula.unary sign.op f span = u at h
    cases h with
    | unary _ _ shows =>
      obtain ⟨-, rfl, -⟩ := Formula.unary.inj hf
      exact ⟨_, shows⟩
    | folded _ _ _ _ shows =>
      obtain ⟨-, rfl, -⟩ := Formula.unary.inj hf
      exact ⟨_, shows⟩
    | _ => contradiction

theorem Shown.of_mem_operands {e : Grammar.Expression} (h : a.Shown ctx (Formula.ofExpression e))
    {o : Grammar.Operand} (ho : o ∈ e.operands) : a.Shown ctx (Formula.ofOperand o) := by
  obtain ⟨id, h⟩ := h
  obtain ⟨g, -, rel⟩ := h.reads
  have mem : Formula.ofOperand o ∈ (Formula.ofExpression e).chain.operands := by
    rw [(Formula.groups_ofExpression e).operands]
    exact List.mem_map_of_mem ho
  obtain ⟨-, shown, shows, -⟩ := rel.exists_of_mem mem
  exact ⟨shown, shows⟩

mutual

theorem shown_in_primary : ∀ p : Grammar.Primary, a.Shown ctx (Formula.ofPrimary p) →
    ∀ e ∈ p.expressions, a.Shown ctx (Formula.ofExpression e)
  | .leaf l span, _ => by
    intro e he
    rw [Grammar.Primary.expressions] at he
    contradiction
  | .group inner span, h => by
    rw [Formula.ofPrimary] at h
    rw [Grammar.Primary.expressions]
    obtain ⟨id, h⟩ := h
    cases h with
    | group node place shows => exact shown_in_expression inner ⟨_, shows⟩

theorem shown_in_operand : ∀ o : Grammar.Operand, a.Shown ctx (Formula.ofOperand o) →
    ∀ e ∈ o.expressions, a.Shown ctx (Formula.ofExpression e)
  | .mk signs primary, h => by
    rw [Formula.ofOperand.eq_def] at h
    rw [Grammar.Operand.expressions]
    simp only at h
    split at h
    · intro e he
      rw [Grammar.Primary.expressions] at he
      contradiction
    · rename_i primary _ _ _
      exact shown_in_primary primary h.of_signed

theorem shown_in_links : ∀ links : Grammar.Links,
    (∀ o ∈ links.operands, a.Shown ctx (Formula.ofOperand o)) →
      ∀ e ∈ links.expressions, a.Shown ctx (Formula.ofExpression e)
  | .nil, _ => by
    intro e he
    rw [Grammar.Links.expressions] at he
    contradiction
  | .cons op span operand rest, h => by
    rw [Grammar.Links.operands, List.forall_mem_cons] at h
    rw [Grammar.Links.expressions, List.forall_mem_append]
    exact ⟨shown_in_operand operand h.1, shown_in_links rest h.2⟩

theorem shown_in_expression : ∀ e : Grammar.Expression, a.Shown ctx (Formula.ofExpression e) →
    ∀ e' ∈ e.expressions, a.Shown ctx (Formula.ofExpression e')
  | .mk first links span, h => by
    have operands : ∀ o ∈ first :: links.operands, a.Shown ctx (Formula.ofOperand o) :=
      fun o ho => h.of_mem_operands ho
    rw [List.forall_mem_cons] at operands
    rw [Grammar.Expression.expressions, List.forall_mem_cons, List.forall_mem_append]
    exact ⟨h, shown_in_operand first operands.1, shown_in_links links operands.2⟩

end

/-- The tree of a statement is that of its expression, with an assignment on top. -/
inductive ShowsStatement (ctx : BuildContext) (a : Arena) : NodeId → Grammar.Statement → Prop
  | expression {id : NodeId} {e : Grammar.Expression}
      (shows : a.Shows ctx id (Formula.ofExpression e)) : ShowsStatement ctx a id (.expression e)
  | assignment {id value : NodeId} {ty : Ty} {name : List Char} {span : Span}
      {e : Grammar.Expression} (node : a.node? id = some (.assign (String.ofList name) value ty))
      (shows : a.Shows ctx value (Formula.ofExpression e)) :
      ShowsStatement ctx a id (.assignment name span e)

theorem ShowsStatement.shown {s : Grammar.Statement} (h : a.ShowsStatement ctx id s) :
    a.Shown ctx (Formula.ofExpression s.value) := by
  cases h with
  | expression shows => exact ⟨_, shows⟩
  | assignment node shows => exact ⟨_, shows⟩

theorem shown_of_mem_expressions {roots : List NodeId} {script : Grammar.Script}
    (h : List.Forall₂ (a.ShowsStatement ctx) roots script.statements) :
    ∀ e ∈ script.expressions, a.Shown ctx (Formula.ofExpression e) := by
  intro e he
  obtain ⟨s, hs, he⟩ := List.mem_flatMap.mp he
  obtain ⟨i, hi, rfl⟩ := List.getElem_of_mem hs
  have shows := h.get (h.length_eq ▸ hi) hi
  exact shown_in_expression _ shows.shown e he

end Arena

/-! ## What the compiler appends -/

namespace Compile

open Arena

variable {ctx : BuildContext} {scope : Scope} {final : Arena}

theorem compileLeaf_shows {a : Arena} {l : Grammar.Leaf} {span : Span} {next : NodeId × Arena}
    (h : compileLeaf ctx scope a span l = .ok next) :
    ∃ node, l.Shows node ∧ next = a.push node (some span) := by
  cases l with
  | null => exact ⟨_, .null, (Except.ok.inj h).symm⟩
  | boolean b => exact ⟨_, .boolean b, (Except.ok.inj h).symm⟩
  | number text =>
    simp only [compileLeaf, compileNumber] at h
    split at h
    · rename_i v reads
      exact ⟨_, .number reads, (Except.ok.inj h).symm⟩
    · contradiction
  | string quote body =>
    simp only [compileLeaf, compileString] at h
    split at h
    · rename_i text reads
      exact ⟨_, .string reads, (Except.ok.inj h).symm⟩
    · contradiction
  | ident name =>
    simp only [compileLeaf, compileName] at h
    split at h
    · exact ⟨_, .ident name _, (Except.ok.inj h).symm⟩
    · split at h
      · contradiction
      · exact ⟨_, .ident name _, (Except.ok.inj h).symm⟩

theorem Joined.shows {a a' : Arena} {op : Operator} {left right id : NodeId} {f g : Formula}
    (h : a.Joined ctx op left right (id, a')) (grows : a'.Grows final)
    (hright : right.index < a.size) (showsLeft : final.Shows ctx left f)
    (showsRight : final.Shows ctx right g) : final.Shows ctx id (.binary op f g) := by
  have below := h.grows.trans grows
  generalize hnext : (id, a') = next at h
  cases h with
  | concat =>
    obtain ⟨rfl, rfl⟩ := Prod.mk.inj hnext
    exact .binary grows.pushed.1 showsLeft showsRight (.inl rfl)
  | plain =>
    obtain ⟨ltag, rtag, -, -, hpush⟩ := a.pushBinary_eq op left right
      (op.resultTy (a.egress left) (a.egress right)) (a.egress left) (a.egress right)
      (a.joinedSpan left right)
    rw [hpush] at hnext
    obtain ⟨rfl, rfl⟩ := Prod.mk.inj hnext
    exact .binary grows.pushed.1 showsLeft showsRight (.inl rfl)
  | @converted value v ty target other strong replaced literal conversion =>
    generalize hlit : a.push (.literal (v.heldBy ⟨a.size⟩) target) (a.span? right) = pushed
      at hnext
    obtain ⟨ltag, rtag, -, -, hpush⟩ := pushed.2.pushBinary_eq op left ⟨a.size⟩
      (op.resultTy (a.egress left) (a.egress right)) (a.egress left) target
      (a.joinedSpan left right)
    rw [hpush] at hnext
    obtain ⟨rfl, rfl⟩ := Prod.mk.inj hnext
    have growsLiteral : pushed.2.Grows final := (pushed.2.grows_push _ _).trans grows
    rw [← hlit] at growsLiteral
    obtain ⟨new, place⟩ := growsLiteral.pushed
    have converts : final.Converts ctx right ⟨a.size⟩ :=
      ⟨strong, value, ty, target, v, ⟨a.size⟩, below.node? literal, conversion, new,
        by rw [place, below.span?_eq right hright]⟩
    exact .binary grows.pushed.1 showsLeft showsRight (.inr converts)

theorem build_shows {f : Formula} {a a' : Arena} {id : NodeId} (ha : a.Ordered)
    (h : f.build ctx scope a = .ok (id, a')) (grows : a'.Grows final) :
    final.Shows ctx id f := by
  induction f generalizing a a' id with
  | leaf l span =>
    obtain ⟨node, shows, h⟩ := compileLeaf_shows h
    obtain ⟨rfl, rfl⟩ := Prod.mk.inj h
    obtain ⟨stands, place⟩ := grows.pushed
    exact .leaf stands place shows
  | group inner span ih =>
    obtain ⟨⟨i, a₁⟩, h₁, h⟩ := bind_eq_ok h
    obtain ⟨rfl, rfl⟩ := Prod.mk.inj (Except.ok.inj h)
    obtain ⟨node, place⟩ := grows.pushed
    exact .group node place (ih ha h₁ ((a₁.grows_push _ _).trans grows))
  | unary op operand span ih =>
    obtain ⟨⟨i, a₁⟩, h₁, h⟩ := bind_eq_ok h
    rcases compileUnary_ok h with ⟨v, w, ty, rfl, literal, negative, h⟩ | ⟨-, -, h⟩ <;>
      obtain ⟨rfl, rfl⟩ := Prod.mk.inj h <;> obtain ⟨node, place⟩ := grows.pushed
    · have below := (a₁.grows_push (.literal w ty) (some span)).trans grows
      exact .folded (below.node? literal) negative node place (ih ha h₁ below)
    · exact .unary node place (ih ha h₁ ((a₁.grows_push _ _).trans grows))
  | binary op left right ihl ihr =>
    obtain ⟨⟨l, a₁⟩, h₁, h⟩ := bind_eq_ok h
    obtain ⟨⟨r, a₂⟩, h₂, h⟩ := bind_eq_ok h
    have joined := joined_of_buildBinary (ofBuilt_ok h)
    have plantedLeft := (build_planted ha h₁).2
    obtain ⟨growsRight, plantedRight⟩ := build_planted plantedLeft.ordered h₂
    have below := joined.grows.trans grows
    exact Joined.shows joined grows plantedRight.index_lt (ihl ha h₁ (growsRight.trans below))
      (ihr plantedLeft.ordered h₂ below)

theorem compileStatements_shows {lines : Option LineIndex} {a : Arena}
    {statements : List Grammar.Statement} {roots : List NodeId} (ha : a.Ordered)
    (h : compileStatements ctx lines scope a statements = .ok (roots, final)) :
    List.Forall₂ (final.ShowsStatement ctx) roots statements := by
  refine compileStatements_ind (motive := fun _ statements roots =>
    List.Forall₂ (final.ShowsStatement ctx) roots statements) (fun _ => .nil) ?_ ?_ ha h
  · intro scope e rest id roots a a' ha hbuild grows _ later
    exact .cons (.expression (build_shows ha hbuild grows)) later
  · intro scope name nameSpan value rest id roots a a' ha hbuild grows _ later
    have shows := build_shows ha hbuild ((a'.grows_push _ _).trans grows)
    exact .cons (.assignment grows.pushed.1 shows) later

end Compile

/-- A compiled program has the statements of its source, and every expression in them is combined
by precedence. With strong typing or without, its operations have one shape. -/
theorem chains_by_precedence {ctx : BuildContext} {inputs : List (String × Ty)}
    {debugSymbols : Bool} {limit : Nat} {p : Program}
    (hp : compile ctx inputs debugSymbols limit = .ok p) :
    ∃ script q, Grammar.parse limit ctx.source = .ok script ∧
      compile ctx.loose inputs debugSymbols limit = .ok q ∧
      List.Forall₂ (p.arena.ShowsStatement ctx) p.statements script.statements ∧
      List.Forall₂ (q.arena.ShowsStatement ctx.loose) q.statements script.statements ∧
      ∀ e ∈ script.expressions,
        p.arena.Shown ctx (Formula.ofExpression e) ∧
        q.arena.Shown ctx.loose (Formula.ofExpression e) ∧
        ∀ i j, p.arena.Shows ctx i (Formula.ofExpression e) →
          q.arena.Shows ctx.loose j (Formula.ofExpression e) →
          ∃ g g', p.arena.Combines ctx i e g ∧ q.arena.Combines ctx.loose j e g' ∧
            g.shape = g'.shape := by
  obtain ⟨script, parsed, h⟩ := compile_ok hp
  obtain ⟨js, G, loose, -⟩ := compileStatements_twins .empty .empty h
  have shows := compileStatements_shows .empty h
  have shows' := compileStatements_shows .empty loose
  refine ⟨script, ⟨G, js, returnTy js G⟩, parsed, compile_eq_ok parsed loose, shows, shows',
    fun e he => ⟨Arena.shown_of_mem_expressions shows e he,
      Arena.shown_of_mem_expressions shows' e he, fun i j hi hj => ?_⟩⟩
  obtain ⟨g, combines, shape⟩ := hi.combines
  obtain ⟨g', combines', shape'⟩ := hj.combines
  exact ⟨g, g', combines, combines', shape.trans shape'.symm⟩

/-- Two expressions, one of them in parentheses. -/
theorem chains_by_precedence_of_powers :
    ∃ p script, compile (strict "a - b ** 2L ** 3 * (a + b) < 7")
        [("a", .primitive .int), ("b", .primitive .int)] false 128 = .ok p ∧
      Grammar.parse 128 "a - b ** 2L ** 3 * (a + b) < 7".toList = .ok script ∧
      script.expressions.length = 2 ∧
      ∀ e ∈ script.expressions, ∃ i g,
        p.arena.Combines (strict "a - b ** 2L ** 3 * (a + b) < 7") i e g := by
  have compiled : (compile (strict "a - b ** 2L ** 3 * (a + b) < 7")
      [("a", .primitive .int), ("b", .primitive .int)] false 128).map (·.statements.length) =
        .ok 1 := by
    decide +kernel
  have two : (Grammar.parse 128 "a - b ** 2L ** 3 * (a + b) < 7".toList).map
      (·.expressions.length) = .ok 2 := by
    decide +kernel
  obtain ⟨p, hp, -⟩ := Kernel.map_eq_ok compiled
  obtain ⟨script, q, parsed, -, -, -, chains⟩ := chains_by_precedence hp
  have parsed : Grammar.parse 128 "a - b ** 2L ** 3 * (a + b) < 7".toList = .ok script := parsed
  rw [parsed] at two
  refine ⟨p, script, hp, parsed, Except.ok.inj two, fun e he => ?_⟩
  obtain ⟨⟨i, shows⟩, ⟨j, loose⟩, combine⟩ := chains e he
  obtain ⟨g, -, combines, -⟩ := combine i j shows loose
  exact ⟨i, g, combines⟩

end Scriptlet
