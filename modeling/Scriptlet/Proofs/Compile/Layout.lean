import Scriptlet.Proofs.Compile.Formula
import Scriptlet.Proofs.Node.Growth

/-!
# The layout of compiled programs

Compilation appends the nodes of each expression after all earlier ones and shares none. So in a
program the nodes of all statements are different nodes.
-/
namespace Scriptlet

namespace Arena

/-- What a build step that succeeds appends: an operation, or before it the conversion of the
literal on its right. -/
inductive Joined (ctx : BuildContext) (a : Arena) (op : Operator) (left right : NodeId) :
    NodeId × Arena → Prop
  | concat (plus : op = .add) (string : a.egress left = .string ∨ a.egress right = .string) :
      Joined ctx a op left right (a.push (.binary ⟨op, left, right, .string,
        OperandTag.ofTy (a.egress left), OperandTag.ofTy (a.egress right)⟩)
        (a.joinedSpan left right))
  | plain (other : ¬ (op = .add ∧ (a.egress left = .string ∨ a.egress right = .string)))
      (fits : ctx.strongTyping = true →
        a.rightOperand ctx op right (a.egress left) (a.egress right) = .asIs) :
      Joined ctx a op left right (a.pushBinary op left right
        (op.resultTy (a.egress left) (a.egress right)) (a.egress left) (a.egress right)
        (a.joinedSpan left right))
  | converted {value v : Value} {ty target : Ty}
      (other : ¬ (op = .add ∧ (a.egress left = .string ∨ a.egress right = .string)))
      (strong : ctx.strongTyping = true)
      (replaced : a.rightOperand ctx op right (a.egress left) (a.egress right) =
        .converted target)
      (literal : a.node? right = some (.literal value ty))
      (conversion : ctx.conversions.convert value target = .ok v) :
      Joined ctx a op left right
        ((a.push (.literal (v.heldBy ⟨a.size⟩) target) (a.span? right)).2.pushBinary op left
          ⟨a.size⟩ (op.resultTy (a.egress left) (a.egress right)) (a.egress left) target
          (a.joinedSpan left right))

theorem isLiteral_of_converted {ctx : BuildContext} {a : Arena} {op : Operator} {right : NodeId}
    {leftTy rightTy target : Ty} (h : a.rightOperand ctx op right leftTy rightTy =
      .converted target) : a.isLiteral right = true := by
  unfold rightOperand at h
  split at h
  · contradiction
  · split at h
    · rename_i hlit
      simp only [Bool.and_eq_true] at hlit
      exact hlit.1.2
    · split at h <;> contradiction

theorem joined_of_buildBinary {ctx : BuildContext} {a : Arena} {op : Operator}
    {left right : NodeId} {next : NodeId × Arena}
    (h : a.buildBinary ctx op left right = .ok next) : a.Joined ctx op left right next := by
  unfold buildBinary at h
  split at h
  · contradiction
  split at h
  · contradiction
  unfold joinBinary at h
  by_cases hs : op = .add ∧ (a.egress left = .string ∨ a.egress right = .string)
  · simp only [if_pos hs] at h
    cases h
    exact .concat hs.1 hs.2
  · simp only [if_neg hs] at h
    by_cases strong : ctx.strongTyping
    · simp only [if_pos strong] at h
      split at h
      · rename_i hr
        cases h
        exact .plain hs fun _ => hr
      · rename_i target hr
        have lit := isLiteral_of_converted hr
        unfold isLiteral at lit
        split at lit
        · rename_i value ty hn
          simp only [convertLiteral, hn] at h
          split at h
          · rename_i hc
            cases hconv : ctx.conversions.convert value target with
            | ok v =>
              rw [hconv] at hc
              cases hc
              cases h
              exact .converted hs strong hr hn hconv
            | error e => rw [hconv] at hc; contradiction
          · contradiction
        · contradiction
      · contradiction
    · simp only [if_neg strong] at h
      cases h
      exact .plain hs fun hstrong => absurd hstrong strong

theorem Joined.operands {ctx : BuildContext} {a : Arena} {op : Operator} {left right : NodeId}
    {next : NodeId × Arena} (h : a.Joined ctx op left right next) :
    (∃ node span, node.operands = [left, right] ∧ next = a.push node span) ∨
      ∃ literal node span span', literal.operands = [] ∧
        node.operands = [left, ⟨a.size⟩] ∧ next = (a.push literal span).2.push node span' := by
  cases h with
  | concat => exact .inl ⟨_, _, rfl, rfl⟩
  | plain => exact .inl ⟨_, _, rfl, rfl⟩
  | converted => exact .inr ⟨_, _, _, _, rfl, rfl, rfl⟩

theorem Joined.grows {ctx : BuildContext} {a a' : Arena} {op : Operator} {left right id : NodeId}
    (h : a.Joined ctx op left right (id, a')) : a.Grows a' := by
  rcases h.operands with ⟨node, span, _, h⟩ | ⟨literal, node, span, span', _, _, h⟩
  · rw [(Prod.mk.inj h).2]
    exact a.grows_push node span
  · rw [(Prod.mk.inj h).2]
    exact (a.grows_push literal span).trans (grows_push _ node span')

theorem Joined.planted {ctx : BuildContext} {low : Nat} {a₁ a₂ a' : Arena} {op : Operator}
    {left right id : NodeId} (h : a₂.Joined ctx op left right (id, a'))
    (hl : Planted low left a₁) (grows : a₁.Grows a₂) (hr : Planted a₁.size right a₂) :
    Planted low id a' := by
  rcases h.operands with ⟨node, span, hn, h⟩ | ⟨literal, node, span, span', hlit, hn, h⟩
  · obtain ⟨rfl, rfl⟩ := Prod.mk.inj h
    exact hl.join grows hr hn span
  · obtain ⟨rfl, rfl⟩ := Prod.mk.inj h
    have leaf := (planted_leaf hr.ordered hlit span).mono grows.size_le
    exact hl.join (grows.trans (a₂.grows_push literal span)) leaf hn span'

end Arena

namespace Compile

open Arena

variable {ctx : BuildContext} {scope : Scope}

theorem compileLeaf_ok {a : Arena} {l : Grammar.Leaf} {span : Span} {next : NodeId × Arena}
    (h : compileLeaf ctx scope a span l = .ok next) :
    (∃ v, next = pushLiteral a v span) ∨
      ∃ name ty, (scope.lookup? name = some ty ∨ (ctx.strongTyping = false ∧ ty = .any)) ∧
        next = a.push (.variable name ty) (some span) := by
  cases l with
  | null => exact .inl ⟨_, (Except.ok.inj h).symm⟩
  | boolean b => exact .inl ⟨_, (Except.ok.inj h).symm⟩
  | number text =>
    simp only [compileLeaf, compileNumber] at h
    split at h
    · exact .inl ⟨_, (Except.ok.inj h).symm⟩
    · contradiction
  | string quote body =>
    simp only [compileLeaf, compileString] at h
    split at h
    · exact .inl ⟨_, (Except.ok.inj h).symm⟩
    · contradiction
  | ident name =>
    simp only [compileLeaf, compileName] at h
    split at h
    · rename_i ty hty
      exact .inr ⟨_, ty, .inl hty, (Except.ok.inj h).symm⟩
    · split at h
      · contradiction
      · rename_i loose
        exact .inr ⟨_, .any, .inr ⟨by simpa using loose, rfl⟩, (Except.ok.inj h).symm⟩

theorem compileUnary_ok {a : Arena} {op : UnaryOp} {operand : NodeId} {span : Span}
    {next : NodeId × Arena} (h : compileUnary ctx a op operand span = .ok next) :
    (∃ v w ty, op = .neg ∧ a.node? operand = some (.literal v ty) ∧ negateLiteral? v = some w ∧
        next = a.push (.literal w ty) (some span)) ∨
      (folded? a op operand = none ∧
        (ctx.strongTyping = true → accepts op (a.egress operand) = true) ∧
        next = a.push (.unary op operand (unaryTy op (a.egress operand))) (some span)) := by
  unfold compileUnary at h
  cases hf : folded? a op operand with
  | some node =>
    left
    simp only [hf] at h
    unfold folded? at hf
    split at hf
    · rename_i v ty hn
      obtain ⟨w, hw, rfl⟩ := Option.map_eq_some_iff.mp hf
      exact ⟨v, w, ty, rfl, hn, hw, (Except.ok.inj h).symm⟩
    · contradiction
  | none =>
    right
    simp only [hf] at h
    split at h
    · contradiction
    · rename_i ha
      refine ⟨rfl, fun strong => ?_, (Except.ok.inj h).symm⟩
      simpa [strong] using ha

theorem bind_eq_ok {ε α β : Type} {x : Except ε α} {f : α → Except ε β} {b : β}
    (h : (x >>= f) = .ok b) : ∃ v, x = .ok v ∧ f v = .ok b := by
  cases x with
  | error e => contradiction
  | ok v => exact ⟨v, rfl, h⟩

theorem ofBuilt_ok {r : Built} {next : NodeId × Arena} (h : ofBuilt r = .ok next) :
    r = .ok next := by
  cases r with
  | error e => contradiction
  | ok v => exact congrArg _ (Except.ok.inj h)

/-- The nodes of a formula come after all earlier ones. -/
theorem build_planted {f : Formula} {a a' : Arena} {id : NodeId} (ha : a.Ordered)
    (h : f.build ctx scope a = .ok (id, a')) : a.Grows a' ∧ Planted a.size id a' := by
  induction f generalizing a a' id with
  | leaf l span =>
    rcases compileLeaf_ok h with ⟨v, h⟩ | ⟨name, ty, -, h⟩ <;> obtain ⟨rfl, rfl⟩ := Prod.mk.inj h
    · exact ⟨a.grows_push _ _, planted_leaf ha rfl _⟩
    · exact ⟨a.grows_push _ _, planted_leaf ha rfl _⟩
  | group inner span ih =>
    obtain ⟨⟨i, a₁⟩, h₁, h⟩ := bind_eq_ok h
    obtain ⟨grows, planted⟩ := ih ha h₁
    obtain ⟨rfl, rfl⟩ := Prod.mk.inj (Except.ok.inj h)
    exact ⟨grows.trans (a₁.grows_push _ _), planted.over rfl _⟩
  | unary op operand span ih =>
    obtain ⟨⟨i, a₁⟩, h₁, h⟩ := bind_eq_ok h
    obtain ⟨grows, planted⟩ := ih ha h₁
    rcases compileUnary_ok h with ⟨v, w, ty, -, -, -, h⟩ | ⟨-, -, h⟩ <;>
      obtain ⟨rfl, rfl⟩ := Prod.mk.inj h
    · refine ⟨grows.trans (a₁.grows_push _ _), ?_⟩
      exact (planted_leaf planted.ordered rfl _).mono grows.size_le
    · exact ⟨grows.trans (a₁.grows_push _ _), planted.over rfl _⟩
  | binary op left right ihl ihr =>
    obtain ⟨⟨l, a₁⟩, h₁, h⟩ := bind_eq_ok h
    obtain ⟨⟨r, a₂⟩, h₂, h⟩ := bind_eq_ok h
    obtain ⟨growsLeft, plantedLeft⟩ := ihl ha h₁
    obtain ⟨growsRight, plantedRight⟩ := ihr plantedLeft.ordered h₂
    have joined := joined_of_buildBinary (ofBuilt_ok h)
    exact ⟨growsLeft.trans (growsRight.trans joined.grows),
      joined.planted plantedLeft growsRight plantedRight⟩

/-- The nodes that building a formula can end with. -/
def Formula.Makes : Formula → Node → Prop
  | .leaf .., .literal .. | .leaf .., .variable .. => True
  | .group .., .group _ => True
  | .unary .., .literal .. | .unary .., .unary .. => True
  | .binary .., .binary _ => True
  | _, _ => False

theorem build_makes {f : Formula} {a a' : Arena} {id : NodeId}
    (h : f.build ctx scope a = .ok (id, a')) : ∃ node, a'.node? id = some node ∧ f.Makes node := by
  cases f with
  | leaf l span =>
    rcases compileLeaf_ok h with ⟨v, h⟩ | ⟨name, ty, -, h⟩
    · exact ⟨_, node?_of_eq_push h, trivial⟩
    · exact ⟨_, node?_of_eq_push h, trivial⟩
  | group inner span =>
    obtain ⟨⟨i, a₁⟩, -, h⟩ := bind_eq_ok h
    exact ⟨_, node?_of_eq_push (Except.ok.inj h).symm, trivial⟩
  | unary op operand span =>
    obtain ⟨⟨i, a₁⟩, -, h⟩ := bind_eq_ok h
    rcases compileUnary_ok h with ⟨v, w, ty, -, -, -, h⟩ | ⟨-, -, h⟩
    · exact ⟨_, node?_of_eq_push h, trivial⟩
    · exact ⟨_, node?_of_eq_push h, trivial⟩
  | binary op left right =>
    obtain ⟨⟨l, a₁⟩, -, h⟩ := bind_eq_ok h
    obtain ⟨⟨r, a₂⟩, -, h⟩ := bind_eq_ok h
    generalize hnext : (id, a') = next at h
    cases joined_of_buildBinary (ofBuilt_ok h) with
    | concat => exact ⟨_, node?_of_eq_push hnext, trivial⟩
    | plain => exact ⟨_, node?_of_eq_push hnext, trivial⟩
    | converted => exact ⟨_, node?_of_eq_push hnext, trivial⟩

theorem compileStatement_expression {e : Grammar.Expression} {a : Arena}
    {next : NodeId × Scope × Arena}
    (h : compileStatement ctx scope a (.expression e) = .ok next) :
    ∃ id a', (Formula.ofExpression e).build ctx scope a = .ok (id, a') ∧
      next = (id, scope, a') := by
  rw [compileStatement, Formula.compileExpression_eq] at h
  split at h
  · rename_i id a' h₁
    exact ⟨id, a', h₁, (Except.ok.inj h).symm⟩
  · contradiction

theorem compileStatement_assignment {name : List Char} {nameSpan : Span}
    {value : Grammar.Expression} {a : Arena} {next : NodeId × Scope × Arena}
    (h : compileStatement ctx scope a (.assignment name nameSpan value) = .ok next) :
    ∃ id a', (Formula.ofExpression value).build ctx scope a = .ok (id, a') ∧
      next = (⟨a'.size⟩, scope.declare (String.ofList name) (a'.egress id),
        (a'.push (.assign (String.ofList name) id (a'.egress id))
          (some (Grammar.Statement.assignment name nameSpan value).span)).2) := by
  rw [compileStatement, Formula.compileExpression_eq] at h
  split at h
  · rename_i id a' h₁
    exact ⟨id, a', h₁, (Except.ok.inj h).symm⟩
  · contradiction

theorem compileStatement_planted {s : Grammar.Statement} {a a' : Arena} {scope' : Scope}
    {id : NodeId} (ha : a.Ordered) (h : compileStatement ctx scope a s = .ok (id, scope', a')) :
    a.Grows a' ∧ Planted a.size id a' := by
  cases s with
  | expression e =>
    obtain ⟨id', a'', h₁, h⟩ := compileStatement_expression h
    cases h
    exact build_planted ha h₁
  | assignment name nameSpan value =>
    obtain ⟨id', a'', h₁, h⟩ := compileStatement_assignment h
    cases h
    obtain ⟨grows, planted⟩ := build_planted ha h₁
    exact ⟨grows.trans (a''.grows_push _ _), planted.over rfl _⟩

theorem grows_locateNodes (lines : LineIndex) (previous : Option Nat) (ids : List NodeId)
    (a : Arena) :
    a.Grows (locateNodes ctx lines previous ids a) ∧
      (locateNodes ctx lines previous ids a).size = a.size := by
  induction ids generalizing previous a with
  | nil => exact ⟨.refl a, rfl⟩
  | cons id rest ih =>
    rw [locateNodes]
    split
    · exact ih previous a
    · rename_i span _
      by_cases hline : previous = some (lines.line span.start)
      · rw [if_pos hline]
        exact ih previous a
      · rw [if_neg hline]
        obtain ⟨grows, size⟩ :=
          ih (some (lines.line span.start)) (a.setLocation id (ctx.locate span))
        exact ⟨(a.grows_setLocation id _).trans grows, size.trans (a.size_setLocation id _)⟩

/-- With or without locations a statement has the same nodes. -/
theorem located_layout (ctx : BuildContext) (lines : Option LineIndex) (root : NodeId) {a : Arena}
    (ha : a.Ordered) :
    a.Grows (located ctx lines root a) ∧ (located ctx lines root a).size = a.size ∧
      (located ctx lines root a).Ordered := by
  cases lines with
  | none => exact ⟨.refl a, rfl, ha⟩
  | some lines =>
    obtain ⟨grows, size⟩ := grows_locateNodes lines none (a.order root) a
    exact ⟨grows, size, grows.ordered size ha⟩

theorem compileStatements_cons {lines : Option LineIndex} {a a' : Arena} {s : Grammar.Statement}
    {rest : List Grammar.Statement} {roots : List NodeId}
    (h : compileStatements ctx lines scope a (s :: rest) = .ok (roots, a')) :
    ∃ root roots' scope' a₁, compileStatement ctx scope a s = .ok (root, scope', a₁) ∧
      compileStatements ctx lines scope' (located ctx lines root a₁) rest = .ok (roots', a') ∧
      roots = root :: roots' := by
  rw [compileStatements] at h
  split at h
  · contradiction
  · rename_i root scope' a₁ h₁
    split at h
    · rename_i roots' a₂ h₂
      cases h
      exact ⟨root, roots', scope', a₁, h₁, h₂, rfl⟩
    · contradiction

theorem compileStatements_eq_ok {lines : Option LineIndex} {a a₁ a' : Arena} {scope' : Scope}
    {s : Grammar.Statement} {rest : List Grammar.Statement} {root : NodeId} {roots : List NodeId}
    (h₁ : compileStatement ctx scope a s = .ok (root, scope', a₁))
    (h₂ : compileStatements ctx lines scope' (located ctx lines root a₁) rest = .ok (roots, a')) :
    compileStatements ctx lines scope a (s :: rest) = .ok (root :: roots, a') := by
  simp only [compileStatements, h₁, h₂]

/-- The nodes of statements: their trees stand one after another. -/
theorem compileStatements_layout {lines : Option LineIndex} {a a' : Arena}
    {statements : List Grammar.Statement} {roots : List NodeId} (ha : a.Ordered)
    (h : compileStatements ctx lines scope a statements = .ok (roots, a')) :
    a.Grows a' ∧ a'.Ordered ∧ (∀ r ∈ roots, r.index < a'.size) ∧
      (∀ x ∈ roots.flatMap a'.order, a.size ≤ x.index) ∧ (roots.flatMap a'.order).Nodup := by
  induction statements generalizing scope a roots with
  | nil =>
    rw [compileStatements] at h
    obtain ⟨rfl, rfl⟩ := Prod.mk.inj (Except.ok.inj h)
    simp [Grows.refl, ha]
  | cons s rest ih =>
    obtain ⟨root, roots', scope', a₁, h₁, h₂, rfl⟩ := compileStatements_cons h
    obtain ⟨grows₁, planted⟩ := compileStatement_planted ha h₁
    obtain ⟨growsLocated, size, ordered⟩ := located_layout ctx lines root planted.ordered
    obtain ⟨grows₂, ha', within, low, nodup⟩ := ih ordered h₂
    have grows := growsLocated.trans grows₂
    have order : a'.order root = a₁.order root :=
      grows.order_eq planted.ordered ha' planted.index_lt
    refine ⟨grows₁.trans grows, ha', ?_, ?_, ?_⟩
    · intro r hr
      rcases List.mem_cons.mp hr with rfl | hr
      · exact Nat.lt_of_lt_of_le planted.index_lt grows.size_le
      · exact within r hr
    · intro x hx
      rw [List.flatMap_cons, order, List.mem_append] at hx
      rcases hx with hx | hx
      · exact planted.low_le x hx
      · have := low x hx
        have := grows₁.size_le
        omega
    · rw [List.flatMap_cons, order]
      refine List.nodup_append.mpr ⟨planted.nodup, nodup, fun x hx y hy => ?_⟩
      rintro rfl
      have := le_of_mem_order planted.ordered hx
      have := low x hy
      have := planted.last
      omega

/-- Facts of the statements of a program are inductions over them, in the scope of each one and
for all nodes as they are in the end. -/
theorem compileStatements_ind {lines : Option LineIndex} {final : Arena}
    {motive : Scope → List Grammar.Statement → List NodeId → Prop}
    (nil : ∀ scope, motive scope [] [])
    (expression : ∀ {scope e rest id roots a a'}, a.Ordered →
      (Formula.ofExpression e).build ctx scope a = .ok (id, a') → a'.Grows final → final.Ordered →
      motive scope rest roots → motive scope (.expression e :: rest) (id :: roots))
    (assignment : ∀ {scope name nameSpan value rest id roots a a'}, a.Ordered →
      (Formula.ofExpression value).build ctx scope a = .ok (id, a') →
      (a'.push (.assign (String.ofList name) id (a'.egress id))
        (some (Grammar.Statement.assignment name nameSpan value).span)).2.Grows final →
      final.Ordered → motive (scope.declare (String.ofList name) (a'.egress id)) rest roots →
      motive scope (.assignment name nameSpan value :: rest) (⟨a'.size⟩ :: roots))
    {a : Arena} {statements : List Grammar.Statement} {roots : List NodeId} (ha : a.Ordered)
    (h : compileStatements ctx lines scope a statements = .ok (roots, final)) :
    motive scope statements roots := by
  induction statements generalizing scope a roots with
  | nil =>
    rw [compileStatements] at h
    obtain ⟨rfl, rfl⟩ := Prod.mk.inj (Except.ok.inj h)
    exact nil scope
  | cons s rest ih =>
    obtain ⟨root, roots', scope', a₁, h₁, h₂, rfl⟩ := compileStatements_cons h
    have planted := (compileStatement_planted ha h₁).2
    obtain ⟨growsLocated, -, ordered⟩ := located_layout ctx lines root planted.ordered
    obtain ⟨growsRest, hfinal, -⟩ := compileStatements_layout ordered h₂
    have grows := growsLocated.trans growsRest
    have later := ih ordered h₂
    cases s with
    | expression e =>
      obtain ⟨id, a₂, hbuild, h₁⟩ := compileStatement_expression h₁
      cases h₁
      exact expression ha hbuild grows hfinal later
    | assignment name nameSpan value =>
      obtain ⟨id, a₂, hbuild, h₁⟩ := compileStatement_assignment h₁
      cases h₁
      exact assignment ha hbuild grows hfinal later

end Compile

/-- What compilation answers with: the statements of a parse, compiled in an empty arena. -/
theorem compile_ok {ctx : BuildContext} {inputs : List (String × Ty)} {debugSymbols : Bool}
    {limit : Nat} {p : Program} (h : compile ctx inputs debugSymbols limit = .ok p) :
    ∃ script, Grammar.parse limit ctx.source = .ok script ∧
      Compile.compileStatements ctx (debugLines ctx debugSymbols) (.ofInputs inputs) .empty
        script.statements = .ok (p.statements, p.arena) := by
  unfold compile at h
  split at h
  · contradiction
  · rename_i script hs
    split at h
    · rename_i roots a h₁
      cases h
      exact ⟨script, hs, h₁⟩
    · contradiction

theorem compile_eq_ok {ctx : BuildContext} {inputs : List (String × Ty)} {debugSymbols : Bool}
    {limit : Nat} {script : Grammar.Script} {roots : List NodeId} {a : Arena}
    (hs : Grammar.parse limit ctx.source = .ok script)
    (h : Compile.compileStatements ctx (debugLines ctx debugSymbols) (.ofInputs inputs) .empty
      script.statements = .ok (roots, a)) :
    compile ctx inputs debugSymbols limit = .ok ⟨a, roots, Compile.returnTy roots a⟩ := by
  simp only [compile, hs, h]

theorem returnTy_of_compile {ctx : BuildContext} {inputs : List (String × Ty)}
    {debugSymbols : Bool} {limit : Nat} {p : Program}
    (h : compile ctx inputs debugSymbols limit = .ok p) :
    p.returnTy = Compile.returnTy p.statements p.arena := by
  unfold compile at h
  split at h
  · contradiction
  · split at h
    · cases h
      rfl
    · contradiction

/-- In a program operands come before operations, and no two places of its statements share a
node. -/
theorem compile_layout {ctx : BuildContext} {inputs : List (String × Ty)} {debugSymbols : Bool}
    {limit : Nat} {p : Program} (h : compile ctx inputs debugSymbols limit = .ok p) :
    p.arena.Ordered ∧ (∀ r ∈ p.statements, r.index < p.arena.size) ∧
      (p.statements.flatMap p.arena.order).Nodup := by
  obtain ⟨script, -, h⟩ := compile_ok h
  obtain ⟨-, ordered, within, -, nodup⟩ := Compile.compileStatements_layout .empty h
  exact ⟨ordered, within, nodup⟩

end Scriptlet
