import Scriptlet.Proofs.Compile.Typing
import Scriptlet.Proofs.Grammar.Insertion
import Scriptlet.Proofs.Node.Growth

/-!
# Compiling a source with more blanks

Ranges of a tree go into the spans, locations and errors of a program and nowhere else. So blanks
and a comment before a token change nothing but these.
-/
namespace Scriptlet

/-! ## Outcomes up to places -/

/-- The error without the places it names. -/
def BuildError.unplaced : BuildError → BuildError
  | .incompatibleTypes op left right _ => .incompatibleTypes op left right none
  | .undeclaredVariable name _ => .undeclaredVariable name none
  | .invalidUnaryOperand op ty _ => .invalidUnaryOperand op ty none
  | .conversion e _ => .conversion e none
  | .missingOperand side op => .missingOperand side op
  | .notBinary id => .notBinary id

/-- The error without the places it names. -/
def CompileError.unplaced : CompileError → CompileError
  | .parse e => .parse ⟨e.kind, .origin⟩
  | .build e => .build e.unplaced

/-- Both succeed, with related results, or both fail with the same error up to places. -/
inductive Alike {α β : Type} (R : α → β → Prop) :
    Except CompileError α → Except CompileError β → Prop
  | ok {x : α} {y : β} (related : R x y) : Alike R (.ok x) (.ok y)
  | error {e e' : CompileError} (same : e.unplaced = e'.unplaced) : Alike R (.error e) (.error e')

theorem Alike.exists_of_ok {α β : Type} {R : α → β → Prop} {x : α} {r : Except CompileError β}
    (h : Alike R (.ok x) r) : ∃ y, r = .ok y ∧ R x y := by
  cases h with
  | ok related => exact ⟨_, rfl, related⟩

theorem Alike.cases {α β : Type} {R : α → β → Prop} {r : Except CompileError α}
    {r' : Except CompileError β} (h : Alike R r r') :
    (∃ x y, r = .ok x ∧ r' = .ok y ∧ R x y) ∨
      ∃ e e', r = .error e ∧ r' = .error e' ∧ e.unplaced = e'.unplaced := by
  cases h with
  | ok related => exact .inl ⟨_, _, rfl, rfl, related⟩
  | error same => exact .inr ⟨_, _, rfl, rfl, same⟩

theorem Alike.bind {α β γ δ : Type} {R : α → β → Prop} {S : γ → δ → Prop}
    {x : Except CompileError α} {y : Except CompileError β} {f : α → Except CompileError γ}
    {g : β → Except CompileError δ} (h : Alike R x y)
    (step : ∀ v w, R v w → Alike S (f v) (g w)) : Alike S (x >>= f) (y >>= g) := by
  cases h with
  | ok related => exact step _ _ related
  | error same => exact .error same

namespace Arena

/-- The nodes without their spans and locations. -/
def nodes (a : Arena) : List Node := a.cells.toList.map (·.node)

theorem node?_eq (a : Arena) (id : NodeId) : a.node? id = a.nodes[id.index]? := by
  simp [node?, cell?, nodes]

theorem size_eq (a : Arena) : a.size = a.nodes.length := by
  simp [size, nodes]

theorem nodes_push (a : Arena) (node : Node) (span : Option Span) :
    (a.push node span).2.nodes = a.nodes ++ [node] := by
  simp [push, nodes]

theorem nodes_setLocation (a : Arena) (id : NodeId) (l : Location) :
    (a.setLocation id l).nodes = a.nodes := by
  refine List.ext_getElem? fun i => ?_
  rw [← node?_eq _ ⟨i⟩, ← node?_eq _ ⟨i⟩, node?, node?, cell?_setLocation]
  split
  · rw [Option.map_map]
    rfl
  · rfl

section

variable {a a' : Arena} (same : a.nodes = a'.nodes)

include same

theorem node?_congr (id : NodeId) : a.node? id = a'.node? id := by
  rw [node?_eq, node?_eq, same]

theorem size_congr : a.size = a'.size := by
  rw [size_eq, size_eq, same]

theorem egress_congr (id : NodeId) : a.egress id = a'.egress id := by
  have within (depth : Nat) (id : NodeId) : a.egressWithin depth id = a'.egressWithin depth id := by
    induction depth generalizing id with
    | zero => rfl
    | succ depth ih =>
      rw [egressWithin, egressWithin, node?_congr same]
      simp only [ih]
  rw [egress, egress, within, size_congr same]

theorem isLiteral_congr (id : NodeId) : a.isLiteral id = a'.isLiteral id := by
  rw [isLiteral, isLiteral, node?_congr same]

theorem literalTag_congr (id : NodeId) (ty : Ty) : a.literalTag id ty = a'.literalTag id ty := by
  rw [literalTag, literalTag, isLiteral_congr same]

theorem rightOperand_alike (ctx : BuildContext) (source : List Char) (op : Operator)
    (right : NodeId) (leftTy rightTy : Ty) :
    a.rightOperand ctx op right leftTy rightTy =
      a'.rightOperand { ctx with source := source } op right leftTy rightTy := by
  rw [rightOperand, rightOperand, isLiteral_congr same]

end

/-- The same node was appended to the same nodes. -/
def SameNode (r r' : NodeId × Arena) : Prop := r.1 = r'.1 ∧ r.2.nodes = r'.2.nodes

theorem built_cases {r r' : Built}
    (h : Alike SameNode (Compile.ofBuilt r) (Compile.ofBuilt r')) :
    (∃ n n', r = .ok n ∧ r' = .ok n' ∧ SameNode n n') ∨
      ∃ e e', r = .error e ∧ r' = .error e' ∧ e.unplaced = e'.unplaced := by
  rcases h.cases with ⟨n, n', hr, hr', related⟩ | ⟨e, e', hr, hr', same⟩
  · exact .inl ⟨n, n', Compile.ofBuilt_ok hr, Compile.ofBuilt_ok hr', related⟩
  · cases r with
    | ok => contradiction
    | error =>
      cases r' with
      | ok => contradiction
      | error =>
        cases hr
        cases hr'
        exact .inr ⟨_, _, rfl, rfl, CompileError.build.inj same⟩

section

variable {a a' : Arena} (same : a.nodes = a'.nodes)

include same

theorem sameNode_push (node : Node) (span span' : Option Span) :
    SameNode (a.push node span) (a'.push node span') :=
  ⟨congrArg NodeId.mk (size_congr same), by rw [nodes_push, nodes_push, same]⟩

theorem sameNode_pushBinary (op : Operator) (left right : NodeId) (egress leftTy rightTy : Ty)
    (span span' : Option Span) :
    SameNode (a.pushBinary op left right egress leftTy rightTy span)
      (a'.pushBinary op left right egress leftTy rightTy span') := by
  simp only [pushBinary, literalTag_congr same]
  exact sameNode_push same _ _ _

theorem alike_convertLiteral (r : ConversionRegistry) (id : NodeId) (target : Ty) :
    Alike SameNode (Compile.ofBuilt (a.convertLiteral r id target))
      (Compile.ofBuilt (a'.convertLiteral r id target)) := by
  rw [convertLiteral, convertLiteral, node?_congr same]
  split
  · rw [size_congr same]
    split
    · exact .ok (sameNode_push same _ _ _)
    · exact .error rfl
  · exact .ok ⟨rfl, same⟩

theorem alike_buildBinary (ctx : BuildContext) (source : List Char) (op : Operator)
    (left right : NodeId) :
    Alike SameNode (Compile.ofBuilt (a.buildBinary ctx op left right))
      (Compile.ofBuilt (a'.buildBinary { ctx with source := source } op left right)) := by
  rw [buildBinary, buildBinary, node?_congr same, node?_congr same]
  split
  · exact .error rfl
  split
  · exact .error rfl
  rw [joinBinary, joinBinary, egress_congr same, egress_congr same,
    rightOperand_alike same ctx source]
  dsimp only
  split
  · exact .ok (sameNode_push same _ _ _)
  split
  · split
    · exact .ok (sameNode_pushBinary same _ _ _ _ _ _ _ _)
    · rename_i target _
      rcases built_cases (alike_convertLiteral same ctx.conversions right target) with
        ⟨⟨id, b⟩, ⟨id', b'⟩, hc, hc', rfl, same⟩ | ⟨e, e', hc, hc', place⟩
      · rw [hc, hc']
        exact .ok (sameNode_pushBinary same _ _ _ _ _ _ _ _)
      · rw [hc, hc']
        exact .error (congrArg CompileError.build place)
    · exact .error rfl
  · exact .ok (sameNode_pushBinary same _ _ _ _ _ _ _ _)

end

end Arena

/-! ## Formulas without ranges -/

namespace Compile

open Grammar

namespace Formula

/-- The formula with the empty range everywhere. -/
def bare : Formula → Formula
  | leaf l _ => leaf l .origin
  | group inner _ => group inner.bare .origin
  | unary op operand _ => unary op operand.bare .origin
  | binary op left right => binary op left.bare right.bare

/-- The operands that wait, without their ranges. -/
def Waiting.bare (waiting : Waiting) : Waiting := waiting.map fun w => (w.1.bare, w.2)

theorem signed_bare (span : Span) (signs : List Sign) (f : Formula) :
    (signed span signs f).bare = signed .origin (signs.map Sign.bare) f.bare := by
  induction signs generalizing f with
  | nil => rfl
  | cons sign outer ih => exact ih (.unary sign.op f span)

theorem groupBefore_bare (next : Operator) (waiting : Waiting) (last : Formula) :
    groupBefore next (Waiting.bare waiting) last.bare =
      (Waiting.bare (groupBefore next waiting last).1, (groupBefore next waiting last).2.bare) := by
  induction waiting generalizing last with
  | nil => rfl
  | cons entry rest ih =>
    obtain ⟨left, op⟩ := entry
    by_cases h : op.reducesBefore next = true
    · have later := ih (.binary op left last)
      simp only [Waiting.bare, List.map_cons, groupBefore, if_pos h, bare] at later ⊢
      exact later
    · simp only [Waiting.bare, List.map_cons, groupBefore, if_neg h]

theorem groupAll_bare (waiting : Waiting) (last : Formula) :
    groupAll (Waiting.bare waiting) last.bare = (groupAll waiting last).bare := by
  induction waiting generalizing last with
  | nil => rfl
  | cons entry rest ih =>
    obtain ⟨left, op⟩ := entry
    exact ih (.binary op left last)

theorem splitMinus_bare (signs : List Sign) :
    splitMinus (signs.map Sign.bare) =
      (splitMinus signs).map fun r => (r.1.bare, r.2.map Sign.bare) := by
  cases signs with
  | nil => rfl
  | cons sign outer =>
    rw [List.map_cons, splitMinus, splitMinus]
    by_cases h : sign.op = .neg
    · rw [if_pos h, if_pos (show sign.bare.op = .neg from h)]
      rfl
    · rw [if_neg h, if_neg (show ¬ sign.bare.op = .neg from h)]
      rfl

theorem span_bare (signs : List Sign) (primary : Primary) :
    (Operand.mk (signs.map Sign.bare) primary.bare).span = .origin := by
  cases primary <;> cases signs <;> rfl

mutual

theorem ofPrimary_bare : ∀ p : Primary, ofPrimary p.bare = (ofPrimary p).bare
  | .leaf l span => rfl
  | .group inner span => by
    rw [Primary.bare, ofPrimary, ofPrimary, ofExpression_bare inner, bare]

theorem ofOperand_bare : ∀ o : Operand, ofOperand o.bare = (ofOperand o).bare
  | .mk signs primary => by
    have split : splitMinus (signs.map Sign.bare).reverse =
        (splitMinus signs.reverse).map fun r => (r.1.bare, r.2.map Sign.bare) := by
      rw [← List.map_reverse, splitMinus_bare]
    rw [Operand.bare]
    simp only [ofOperand.eq_def, span_bare, split]
    cases hs : splitMinus signs.reverse with
    | none =>
      simp only [Option.map_none]
      rw [ofPrimary_bare primary, signed_bare, List.map_reverse]
      cases primary with
      | group => rfl
      | leaf l place => cases l <;> rfl
    | some r =>
      obtain ⟨minus, outer⟩ := r
      cases primary with
      | group inner place =>
        rw [signed_bare, ← ofPrimary_bare (.group inner place), List.map_reverse]
        rfl
      | leaf l place =>
        cases l with
        | number text =>
          exact (signed_bare (Operand.mk signs (.leaf (.number text) place)).span outer
            (.leaf (.number ('-' :: text)) (minus.span.combine place))).symm
        | _ =>
          rw [signed_bare, List.map_reverse]
          rfl

theorem ofLinks_bare (waiting : Waiting) (last : Formula) : ∀ links : Links,
    ofLinks (Waiting.bare waiting) last.bare links.bare = (ofLinks waiting last links).bare
  | .nil => groupAll_bare waiting last
  | .cons op span operand rest => by
    rw [Links.bare, ofLinks, ofLinks, groupBefore_bare, ofOperand_bare operand,
      ← ofLinks_bare _ _ rest]
    rfl

theorem ofExpression_bare : ∀ e : Expression, ofExpression e.bare = (ofExpression e).bare
  | .mk first links span => by
    rw [Expression.bare, ofExpression, ofExpression, ofOperand_bare first,
      ← ofLinks_bare [] _ links]
    rfl

end

/-! ## Building -/

variable {a a' : Arena} (ctx : BuildContext) (source : List Char) (scope : Scope)

theorem alike_compileLeaf (same : a.nodes = a'.nodes) (span span' : Span) (l : Leaf) :
    Alike Arena.SameNode (compileLeaf ctx scope a span l)
      (compileLeaf { ctx with source := source } scope a' span' l) := by
  cases l with
  | null => exact .ok (Arena.sameNode_push same _ _ _)
  | boolean b => exact .ok (Arena.sameNode_push same _ _ _)
  | number text =>
    rw [compileLeaf, compileLeaf, compileNumber, compileNumber]
    split
    · exact .ok (Arena.sameNode_push same _ _ _)
    · exact .error rfl
  | string quote body =>
    rw [compileLeaf, compileLeaf, compileString, compileString]
    split
    · exact .ok (Arena.sameNode_push same _ _ _)
    · exact .error rfl
  | ident name =>
    rw [compileLeaf, compileLeaf, compileName, compileName]
    split
    · exact .ok (Arena.sameNode_push same _ _ _)
    · split
      · exact .error rfl
      · exact .ok (Arena.sameNode_push same _ _ _)

theorem alike_compileUnary (same : a.nodes = a'.nodes) (op : UnaryOp) (operand : NodeId)
    (span span' : Span) :
    Alike Arena.SameNode (compileUnary ctx a op operand span)
      (compileUnary { ctx with source := source } a' op operand span') := by
  have fold : folded? a op operand = folded? a' op operand := by
    simp only [folded?, Arena.node?_congr same]
  rw [compileUnary, compileUnary, fold, Arena.egress_congr same]
  split
  · exact .ok (Arena.sameNode_push same _ _ _)
  · split
    · exact .error rfl
    · exact .ok (Arena.sameNode_push same _ _ _)

/-- Formulas that differ in ranges only are built into the same nodes. -/
theorem alike_build (f f' : Formula) (same : a.nodes = a'.nodes) (h : f.bare = f'.bare) :
    Alike Arena.SameNode (f.build ctx scope a)
      (f'.build { ctx with source := source } scope a') := by
  induction f generalizing f' a a' with
  | leaf l span =>
    cases f' with
    | leaf l' span' =>
      obtain ⟨rfl, -⟩ := leaf.inj h
      exact alike_compileLeaf ctx source scope same span span' l
    | _ => contradiction
  | group inner span ih =>
    cases f' with
    | group inner' span' =>
      obtain ⟨hinner, -⟩ := group.inj h
      refine (ih inner' same hinner).bind fun v w related => ?_
      obtain ⟨id, b⟩ := v
      obtain ⟨id', b'⟩ := w
      obtain ⟨rfl, same⟩ := related
      exact .ok (Arena.sameNode_push same _ _ _)
    | _ => contradiction
  | unary op operand span ih =>
    cases f' with
    | unary op' operand' span' =>
      obtain ⟨rfl, hoperand, -⟩ := unary.inj h
      refine (ih operand' same hoperand).bind fun v w related => ?_
      obtain ⟨id, b⟩ := v
      obtain ⟨id', b'⟩ := w
      obtain ⟨rfl, same⟩ := related
      exact alike_compileUnary ctx source same op id span span'
    | _ => contradiction
  | binary op left right ihl ihr =>
    cases f' with
    | binary op' left' right' =>
      obtain ⟨rfl, hleft, hright⟩ := binary.inj h
      refine (ihl left' same hleft).bind fun v w related => ?_
      obtain ⟨l, b⟩ := v
      obtain ⟨l', b'⟩ := w
      obtain ⟨rfl, same⟩ := related
      refine (ihr right' same hright).bind fun v w related => ?_
      obtain ⟨r, c⟩ := v
      obtain ⟨r', c'⟩ := w
      obtain ⟨rfl, same⟩ := related
      exact Arena.alike_buildBinary same ctx source op l r
    | _ => contradiction

end Formula

variable {a a' : Arena} (ctx : BuildContext) (source : List Char) (scope : Scope)

theorem alike_compileExpression (e e' : Expression) (same : a.nodes = a'.nodes)
    (h : e.bare = e'.bare) :
    Alike Arena.SameNode (compileExpression ctx scope a e)
      (compileExpression { ctx with source := source } scope a' e') := by
  rw [Formula.compileExpression_eq, Formula.compileExpression_eq]
  refine Formula.alike_build ctx source scope _ _ same ?_
  rw [← Formula.ofExpression_bare, ← Formula.ofExpression_bare, h]

/-- The same node was appended to the same nodes, and the same names are in scope. -/
def SameStatement (r r' : NodeId × Scope × Arena) : Prop :=
  r.1 = r'.1 ∧ r.2.1 = r'.2.1 ∧ r.2.2.nodes = r'.2.2.nodes

theorem alike_compileStatement (s s' : Statement) (same : a.nodes = a'.nodes)
    (h : s.bare = s'.bare) :
    Alike SameStatement (compileStatement ctx scope a s)
      (compileStatement { ctx with source := source } scope a' s') := by
  cases s with
  | expression e =>
    cases s' with
    | expression e' =>
      have built := alike_compileExpression ctx source scope e e' same (Statement.expression.inj h)
      rw [compileStatement, compileStatement]
      rcases built.cases with ⟨x, y, hx, hy, related⟩ | ⟨e, e', hx, hy, same⟩ <;> rw [hx, hy]
      · exact .ok ⟨related.1, rfl, related.2⟩
      · exact .error same
    | assignment => contradiction
  | assignment name place value =>
    cases s' with
    | expression => contradiction
    | assignment name' place' value' =>
      obtain ⟨rfl, -, hvalue⟩ := Statement.assignment.inj h
      have built := alike_compileExpression ctx source scope value value' same hvalue
      rw [compileStatement, compileStatement]
      rcases built.cases with
        ⟨⟨id, b⟩, ⟨id', b'⟩, hx, hy, rfl, same⟩ | ⟨e, e', hx, hy, same⟩ <;> rw [hx, hy]
      · dsimp only
        rw [Arena.egress_congr same]
        obtain ⟨root, nodes⟩ := Arena.sameNode_push same
          (.assign (String.ofList name) id (b'.egress id))
          (some (Statement.assignment name place value).span)
          (some (Statement.assignment name place' value').span)
        exact .ok ⟨root, rfl, nodes⟩
      · exact .error same

theorem nodes_located (ctx : BuildContext) (lines : Option LineIndex) (root : NodeId) (a : Arena) :
    (located ctx lines root a).nodes = a.nodes := by
  have nodes (lines : LineIndex) (previous : Option Nat) (ids : List NodeId) (a : Arena) :
      (locateNodes ctx lines previous ids a).nodes = a.nodes := by
    induction ids generalizing previous a with
    | nil => rfl
    | cons id rest ih =>
      rw [locateNodes]
      split
      · exact ih previous a
      · dsimp only
        split
        · exact ih previous a
        · rw [ih, Arena.nodes_setLocation]
  cases lines with
  | none => rfl
  | some lines => exact nodes lines none (a.order root) a

/-- The same roots over the same nodes. -/
def SameRoots (r r' : List NodeId × Arena) : Prop := r.1 = r'.1 ∧ r.2.nodes = r'.2.nodes

theorem alike_compileStatements (lines lines' : Option LineIndex) (ss ss' : List Statement)
    (same : a.nodes = a'.nodes) (h : ss.map Statement.bare = ss'.map Statement.bare) :
    Alike SameRoots (compileStatements ctx lines scope a ss)
      (compileStatements { ctx with source := source } lines' scope a' ss') := by
  induction ss generalizing scope a a' ss' with
  | nil =>
    obtain rfl := List.map_eq_nil_iff.mp h.symm
    exact .ok ⟨rfl, same⟩
  | cons s rest ih =>
    obtain ⟨s', rest', rfl, hs, hrest⟩ := List.map_eq_cons_iff.mp h.symm
    have first := alike_compileStatement ctx source scope s s' same hs.symm
    rw [compileStatements, compileStatements]
    rcases first.cases with
      ⟨⟨root, scope', b⟩, ⟨root', scope'', b'⟩, hx, hy, rfl, rfl, same⟩ | ⟨e, e', hx, hy, same⟩ <;>
      rw [hx, hy]
    · have nodes : (located ctx lines root b).nodes =
          (located { ctx with source := source } lines' root b').nodes := by
        rw [nodes_located, nodes_located, same]
      dsimp only
      rcases (ih scope' rest' nodes hrest.symm).cases with
        ⟨x, y, hx, hy, related⟩ | ⟨e, e', hx, hy, same⟩ <;> rw [hx, hy]
      · exact .ok ⟨congrArg (root :: ·) related.1, related.2⟩
      · exact .error same
    · exact .error same

theorem returnTy_same (same : a.nodes = a'.nodes) (roots : List NodeId) :
    returnTy roots a = returnTy roots a' := by
  rw [returnTy, returnTy]
  split
  · exact Arena.egress_congr same _
  · rfl

end Compile

/-- The programs have the same nodes, statements and type. -/
def Program.Same (p q : Program) : Prop :=
  p.arena.nodes = q.arena.nodes ∧ p.statements = q.statements ∧ p.returnTy = q.returnTy

/-- A source that is read as other statements up to ranges is compiled as they are. -/
theorem compile_of_bare {ctx : BuildContext} {inputs : List (String × Ty)} {debugSymbols : Bool}
    {limit : Nat} {source : List Char} {script : Grammar.Script} {lines : Option LineIndex}
    {statements : List Grammar.Statement} {roots : List NodeId} {a : Arena}
    (parsed : Grammar.parse limit source = .ok script)
    (bare : script.statements.map Grammar.Statement.bare = statements.map Grammar.Statement.bare)
    (h : Compile.compileStatements ctx lines (.ofInputs inputs) .empty statements =
      .ok (roots, a)) :
    ∃ q, compile { ctx with source := source } inputs debugSymbols limit = .ok q ∧
      q.statements = roots ∧ q.arena.nodes = a.nodes := by
  have alike := Compile.alike_compileStatements ctx source (.ofInputs inputs) lines
    (debugLines { ctx with source := source } debugSymbols) statements script.statements
    (rfl : Arena.empty.nodes = Arena.empty.nodes) bare.symm
  rw [h] at alike
  obtain ⟨⟨roots', a'⟩, compiled, rfl, same⟩ := alike.exists_of_ok
  exact ⟨_, compile_eq_ok parsed compiled, rfl, same.symm⟩

/-- Whether a source compiles depends on its statements up to places. -/
theorem exists_compile_iff {ctx : BuildContext} {inputs : List (String × Ty)} {debugSymbols : Bool}
    {limit : Nat} {source : List Char} {script : Grammar.Script}
    {statements : List Grammar.Statement} (parsed : Grammar.parse limit source = .ok script)
    (bare : script.statements.map Grammar.Statement.bare =
      statements.map Grammar.Statement.bare) :
    (∃ p, compile { ctx with source := source } inputs debugSymbols limit = .ok p) ↔
      ∃ r, Compile.compileStatements ctx none (.ofInputs inputs) .empty statements = .ok r := by
  constructor
  · rintro ⟨p, compiled⟩
    obtain ⟨_, parsed', built⟩ := compile_ok compiled
    obtain rfl := Except.ok.inj (parsed.symm.trans parsed')
    have alike := Compile.alike_compileStatements ctx source (.ofInputs inputs) none
      (debugLines { ctx with source := source } debugSymbols) statements script.statements
      (rfl : Arena.empty.nodes = Arena.empty.nodes) bare.symm
    rw [built] at alike
    rcases alike.cases with ⟨r, _, done, -, -⟩ | ⟨_, _, -, failed, -⟩
    · exact ⟨r, done⟩
    · cases failed
  · rintro ⟨⟨roots, a⟩, built⟩
    exact (compile_of_bare parsed bare built).imp fun _ compiled => compiled.1

/-- Blanks and a comment before a token change the places in a program or an error, and nothing
else. -/
theorem compile_insert {ctx : BuildContext} {front back filler : List Char}
    {script : Grammar.Script} {ts : List Grammar.Lexeme} {l : Grammar.Lexeme}
    (source : ctx.source = front ++ back) (h : Grammar.read? ctx.source = some script)
    (tokens : Grammar.tokens? ctx.source = some ts) (hl : l ∈ ts)
    (start : l.span.start = Source.byteSize front) (hfiller : Grammar.Filler filler)
    (inputs : List (String × Ty)) (debugSymbols : Bool) (limit : Nat) :
    Alike Program.Same (compile ctx inputs debugSymbols limit)
      (compile { ctx with source := front ++ filler ++ back } inputs debugSymbols limit) := by
  rw [source] at h tokens
  rw [compile, compile, source]
  rcases Grammar.parse_insert h tokens hl start hfiller limit with
    ⟨script', parsed, parsed', bare⟩ | ⟨offset, offset', failed, failed'⟩
  · rw [parsed, parsed']
    have compiled := Compile.alike_compileStatements ctx (front ++ filler ++ back)
      (.ofInputs inputs) (debugLines ctx debugSymbols)
      (debugLines { ctx with source := front ++ filler ++ back } debugSymbols)
      script.statements script'.statements (rfl : Arena.empty.nodes = Arena.empty.nodes) bare.symm
    dsimp only
    rcases compiled.cases with
      ⟨⟨roots, a⟩, ⟨roots', a'⟩, hx, hy, rfl, same⟩ | ⟨e, e', hx, hy, same⟩ <;> rw [hx, hy]
    · exact .ok ⟨same, rfl, Compile.returnTy_same same roots⟩
    · exact .error same
  · rw [failed, failed']
    exact .error rfl

/-- A comment that holds a minus sign, before a minus sign. -/
theorem compile_insert_before_minus :
    ∃ p q, compile (strict "a-b; -a") [("a", .primitive .long), ("b", .primitive .int)] true 128 =
        .ok p ∧
      compile { strict "a-b; -a" with source := "a\n/* - */-b; -a".toList }
        [("a", .primitive .long), ("b", .primitive .int)] true 128 = .ok q ∧ p.Same q := by
  have present : (Grammar.read? "a-b; -a".toList).isSome := by decide +kernel
  have tokens : Grammar.tokens? "a-b; -a".toList = some
      [⟨.leaf (.ident ['a']), ⟨0, 1⟩⟩, ⟨.operator .sub, ⟨1, 2⟩⟩, ⟨.leaf (.ident ['b']), ⟨2, 3⟩⟩,
        ⟨.semicolon, ⟨3, 4⟩⟩, ⟨.operator .sub, ⟨5, 6⟩⟩, ⟨.leaf (.ident ['a']), ⟨6, 7⟩⟩] := by
    decide +kernel
  have minus : (⟨.operator .sub, ⟨1, 2⟩⟩ : Grammar.Lexeme) ∈
      [⟨.leaf (.ident ['a']), ⟨0, 1⟩⟩, ⟨.operator .sub, ⟨1, 2⟩⟩, ⟨.leaf (.ident ['b']), ⟨2, 3⟩⟩,
        ⟨.semicolon, ⟨3, 4⟩⟩, ⟨.operator .sub, ⟨5, 6⟩⟩, ⟨.leaf (.ident ['a']), ⟨6, 7⟩⟩] := by
    decide
  have source : (strict "a-b; -a").source = ['a'] ++ "-b; -a".toList := rfl
  have opened : ¬ ['*', '/'] <:+: " - ".toList ++ ['*'] := by decide
  have filler : Grammar.Filler ("\n".toList ++ ("/* - */").toList) :=
    ⟨_, _, by decide, List.all_eq_true.mp (by decide), .inr (.block opened), rfl⟩
  have compiled : (compile (strict "a-b; -a")
      [("a", .primitive .long), ("b", .primitive .int)] true 128).map (·.statements.length) =
        .ok 2 := by
    decide +kernel
  obtain ⟨script, read⟩ := Option.isSome_iff_exists.mp present
  obtain ⟨p, hp, -⟩ := Kernel.map_eq_ok compiled
  have alike := compile_insert source read tokens minus rfl filler
    [("a", .primitive .long), ("b", .primitive .int)] true 128
  rw [hp] at alike
  have text : ['a'] ++ ("\n".toList ++ "/* - */".toList) ++ "-b; -a".toList =
      "a\n/* - */-b; -a".toList := by decide
  rw [text] at alike
  obtain ⟨q, hq, same⟩ := alike.exists_of_ok
  exact ⟨p, q, hp, hq, same⟩

end Scriptlet
