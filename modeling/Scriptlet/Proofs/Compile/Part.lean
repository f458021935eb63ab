import Scriptlet.Compile.Program
import Scriptlet.Grammar.Outline

/-!
# Compiling parts

The grammar finds the parts of a source, and nothing but its rules says which parts a part has
inside. A compiler of parts has to have an answer for those that the grammar never finds: an
expression without operands, an operator without a right operand, an operand without a primary.
On the parts of a script it does what the compiler of syntax trees does, which has none of these
answers.
-/
namespace Scriptlet

namespace Grammar

/-- A part of a source: its rule, its range, its characters where they matter, and the parts inside
of it in order. -/
inductive Part where
  | mk (rule : Rule) (span : Span) (text : List Char) (inner : List Part)

namespace Part

def rule : Part → Rule
  | .mk rule .. => rule

def span : Part → Span
  | .mk _ span .. => span

def text : Part → List Char
  | .mk _ _ text _ => text

def inner : Part → List Part
  | .mk _ _ _ inner => inner

mutual

/-- A part and those inside of it, outer ones first. -/
def rows (depth : Nat) : Part → List Row
  | .mk rule span _ inner => ⟨depth, rule, span⟩ :: rowsInside (depth + 1) inner

def rowsInside (depth : Nat) : List Part → List Row
  | [] => []
  | part :: rest => part.rows depth ++ rowsInside depth rest

end

end Part

/-- The body of a string is a part of its own. -/
def Leaf.part (span : Span) : Leaf → Part
  | .null => .mk .null span "null".toList []
  | .boolean b => .mk .boolean span (if b then "true".toList else "false".toList) []
  | .number text => .mk .number span text []
  | .string quote body =>
    let rule := if quote = '"' then .doubleQuoted else .singleQuoted
    .mk .string span [] [.mk rule ⟨span.start + 1, span.stop - 1⟩ body []]
  | .ident name => .mk .ident span name []

def Sign.part (s : Sign) : Part :=
  .mk (match s.op with | .neg => .neg | .not => .not) s.span [] []

mutual

def Primary.part : Primary → Part
  | .leaf l span => l.part span
  | .group inner span => .mk .grouped span [] [inner.part]

def Operand.part : Operand → Part
  | .mk signs primary =>
    .mk .operand (Operand.mk signs primary).span [] (signs.map Sign.part ++ [primary.part])

def Links.parts : Links → List Part
  | .nil => []
  | .cons op span operand rest => .mk (.operator op) span [] [] :: operand.part :: rest.parts

def Expression.part : Expression → Part
  | .mk first links span => .mk .expression span [] (first.part :: links.parts)

end

def Statement.part : Statement → Part
  | .expression e => e.part
  | .assignment name nameSpan value =>
    .mk .assignment (Statement.assignment name nameSpan value).span []
      [.mk .ident nameSpan name [], value.part]

/-- The parts of a script: its statements and its end. -/
def Script.part (s : Script) : Part :=
  .mk .main ⟨0, s.size⟩ []
    (s.statements.map Statement.part ++ [.mk .endOfInput ⟨s.size, s.size⟩ [] []])

end Grammar

namespace Compile

open Grammar

/-- The error of parts that the grammar does not find. -/
def defect (message : String) (span : Span) : CompileError := .parse ⟨.other message, span⟩

def malformed (part : Part) : CompileError :=
  defect ("unexpected " ++ part.rule.name ++ " in parse tree") part.span

/-- Builds an operation on the last two operands. One that is missing is no node. -/
def reduceParts (ctx : BuildContext) (op : Operator) (operands : List NodeId) (a : Arena) :
    Except CompileError (List NodeId × Arena) :=
  let right := operands.head?.getD .invalid
  let left := operands.tail.head?.getD .invalid
  match a.buildBinary ctx op left right with
  | .ok (id, a) => .ok (id :: operands.tail.tail, a)
  | .error e => .error (.build e)

/-- Builds the pending operations that come before the operator `next`. -/
def reducePartsBefore (ctx : BuildContext) (next : Operator) :
    List Operator → List NodeId → Arena →
      Except CompileError (List Operator × List NodeId × Arena)
  | [], operands, a => .ok ([], operands, a)
  | top :: pending, operands, a =>
    if top.reducesBefore next then
      match reduceParts ctx top operands a with
      | .ok (operands, a) => reducePartsBefore ctx next pending operands a
      | .error e => .error e
    else .ok (top :: pending, operands, a)

/-- Builds all pending operations. -/
def reduceAllParts (ctx : BuildContext) :
    List Operator → List NodeId → Arena → Except CompileError (List NodeId × Arena)
  | [], operands, a => .ok (operands, a)
  | top :: pending, operands, a =>
    match reduceParts ctx top operands a with
    | .ok (operands, a) => reduceAllParts ctx pending operands a
    | .error e => .error e

/-- Builds what is pending; the last operand left is the whole expression. -/
def finishParts (ctx : BuildContext) (span : Span) (pending : List Operator)
    (operands : List NodeId) (a : Arena) : Compiled :=
  match reduceAllParts ctx pending operands a with
  | .error e => .error e
  | .ok (id :: _, a) => .ok (id, a)
  | .ok ([], _) => .error (defect "empty expression" span)

/-- What is known of an operand after some of its parts. -/
structure OperandState where
  /-- Prefix operators that are to be applied, the last one first. -/
  prefixes : List UnaryOp
  /-- Where the minus sign right before the next part starts. -/
  signStart : Option Nat
  primary : Option NodeId
  arena : Arena

/-- Applies prefix operators, the last one first. -/
def applyPrefixes (ctx : BuildContext) (span : Span) :
    List UnaryOp → NodeId → Arena → Compiled
  | [], id, a => .ok (id, a)
  | op :: outer, id, a =>
    match compileUnary ctx a op id span with
    | .ok (id, a) => applyPrefixes ctx span outer id a
    | .error e => .error e

mutual

def primaryPart (ctx : BuildContext) (scope : Scope) (a : Arena) : Part → Compiled
  | .mk rule span text inner =>
    match rule with
    | .null => .ok (pushLiteral a .null span)
    | .boolean => .ok (pushLiteral a (.boolean (text = "true".toList)) span)
    | .number => compileNumber a text span
    | .string => compileString a ((inner.head?.map Part.text).getD []) span
    | .ident => compileName ctx scope a (String.ofList text) span
    | .grouped =>
      match inner with
      | [] => .error (defect "empty group" span)
      | first :: _ =>
        match expressionPart ctx scope a first with
        | .ok (id, a) => .ok (a.push (.group id) (some span))
        | .error e => .error e
    | _ => .error (malformed (.mk rule span text inner))

def operandPart (ctx : BuildContext) (scope : Scope) (a : Arena) : Part → Compiled
  | .mk _ span _ inner =>
    match operandParts ctx scope ⟨[], none, none, a⟩ inner with
    | .error e => .error e
    | .ok st =>
      match st.primary with
      | some id => applyPrefixes ctx span st.prefixes id st.arena
      | none => .error (defect "missing operand" span)

/-- The sign right before a number belongs to it. -/
def operandParts (ctx : BuildContext) (scope : Scope) (st : OperandState) :
    List Part → Except CompileError OperandState
  | [] => .ok st
  | part :: rest =>
    if part.rule = .neg then
      operandParts ctx scope
        { st with signStart := some part.span.start, prefixes := .neg :: st.prefixes } rest
    else if part.rule = .not then
      operandParts ctx scope { st with signStart := none, prefixes := .not :: st.prefixes } rest
    else if part.rule = .number ∧ st.prefixes.head? = some .neg then
      let start := st.signStart.getD part.span.start
      match compileNumber st.arena ('-' :: part.text) ⟨start, part.span.stop⟩ with
      | .ok (id, a) =>
        operandParts ctx scope
          { st with prefixes := st.prefixes.tail, primary := some id, arena := a } rest
      | .error e => .error e
    else
      match primaryPart ctx scope st.arena part with
      | .ok (id, a) => operandParts ctx scope { st with primary := some id, arena := a } rest
      | .error e => .error e

def expressionPart (ctx : BuildContext) (scope : Scope) (a : Arena) : Part → Compiled
  | .mk _ span _ inner =>
    match expressionParts ctx scope [] [] a inner with
    | .error e => .error e
    | .ok (pending, operands, a) => finishParts ctx span pending operands a

/-- Operands and operators are stacked apart. -/
def expressionParts (ctx : BuildContext) (scope : Scope) (pending : List Operator)
    (operands : List NodeId) (a : Arena) :
    List Part → Except CompileError (List Operator × List NodeId × Arena)
  | [] => .ok (pending, operands, a)
  | part :: rest =>
    if part.rule = .operand then
      match operandPart ctx scope a part with
      | .ok (id, a) => expressionParts ctx scope pending (id :: operands) a rest
      | .error e => .error e
    else
      match part.rule.operator? with
      | none => .error (malformed part)
      | some op =>
        match reducePartsBefore ctx op pending operands a with
        | .ok (pending, operands, a) => expressionParts ctx scope (op :: pending) operands a rest
        | .error e => .error e

end

def statementPart (ctx : BuildContext) (scope : Scope) (a : Arena) (part : Part) :
    Except CompileError (NodeId × Scope × Arena) :=
  match part.rule with
  | .assignment =>
    match part.inner with
    | name :: value :: _ =>
      match expressionPart ctx scope a value with
      | .ok (id, a) =>
        let ty := a.egress id
        let name' := String.ofList name.text
        let (root, a) := a.push (.assign name' id ty) (some part.span)
        .ok (root, scope.declare name' ty, a)
      | .error e => .error e
    | _ => .error (defect "malformed assignment" part.span)
  | .expression =>
    match expressionPart ctx scope a part with
    | .ok (id, a) => .ok (id, scope, a)
    | .error e => .error e
  | _ => .error (malformed part)

/-- The statements among the parts of a source, which ends with a part of its own. -/
def statementParts (ctx : BuildContext) (lines : Option LineIndex) (scope : Scope) (a : Arena) :
    List Part → Except CompileError (List NodeId × Arena)
  | [] => .ok ([], a)
  | part :: rest =>
    if part.rule = .endOfInput then statementParts ctx lines scope a rest
    else
      match statementPart ctx scope a part with
      | .error e => .error e
      | .ok (root, scope, a) =>
        match statementParts ctx lines scope (located ctx lines root a) rest with
        | .ok (roots, a) => .ok (root :: roots, a)
        | .error e => .error e

/-- Compiles the parts that the grammar finds in the source of a context. -/
def compileSource (ctx : BuildContext) (inputs : List (String × Ty)) (debugSymbols : Bool)
    (limit : Nat) : Except CompileError Program :=
  match Grammar.parse limit ctx.source with
  | .error e => .error (.parse e)
  | .ok script =>
    match statementParts ctx (debugLines ctx debugSymbols) (.ofInputs inputs) .empty
        script.part.inner with
    | .ok (roots, a) => .ok ⟨a, roots, returnTy roots a⟩
    | .error e => .error e

end Compile

/-! ## The parts of a script -/

namespace Grammar

theorem Leaf.rows_part (depth : Nat) (span : Span) (l : Leaf) :
    (l.part span).rows depth = l.outline depth span := by
  cases l <;> rfl

theorem Sign.rows_part (depth : Nat) (s : Sign) : s.part.rows depth = [s.row depth] := by
  cases h : s.op <;> simp only [Sign.part, Sign.row, h] <;> rfl

theorem Part.rowsInside_append (depth : Nat) (parts parts' : List Part) :
    rowsInside depth (parts ++ parts') = rowsInside depth parts ++ rowsInside depth parts' := by
  induction parts with
  | nil => rfl
  | cons part rest ih =>
    rw [List.cons_append, rowsInside, rowsInside, ih, List.append_assoc]

theorem Part.rowsInside_signs (depth : Nat) (signs : List Sign) :
    rowsInside depth (signs.map Sign.part) = signs.map (·.row depth) := by
  induction signs with
  | nil => rfl
  | cons sign rest ih =>
    rw [List.map_cons, rowsInside, ih, Sign.rows_part]
    rfl

mutual

theorem Primary.rows_part (depth : Nat) : ∀ p : Primary, p.part.rows depth = p.outline depth
  | .leaf l span => l.rows_part depth span
  | .group inner span => by
    rw [Primary.part, Part.rows, Primary.outline, Part.rowsInside, Expression.rows_part,
      Part.rowsInside, List.append_nil]

theorem Operand.rows_part (depth : Nat) : ∀ o : Operand, o.part.rows depth = o.outline depth
  | .mk signs primary => by
    rw [Operand.part, Part.rows, Operand.outline, Part.rowsInside_append, Part.rowsInside_signs,
      Part.rowsInside, Primary.rows_part, Part.rowsInside, List.append_nil]

theorem Links.rows_parts (depth : Nat) : ∀ links : Links,
    Part.rowsInside depth links.parts = links.outline depth
  | .nil => rfl
  | .cons op span operand rest => by
    rw [Links.parts, Part.rowsInside, Part.rowsInside, Operand.rows_part, Links.rows_parts,
      Links.outline]
    rfl

theorem Expression.rows_part (depth : Nat) : ∀ e : Expression,
    e.part.rows depth = e.outline depth
  | .mk first links span => by
    rw [Expression.part, Part.rows, Part.rowsInside, Operand.rows_part, Links.rows_parts,
      Expression.outline]

end

theorem Statement.rows_part (depth : Nat) (s : Statement) :
    s.part.rows depth = s.outline depth := by
  cases s with
  | expression e => exact e.rows_part depth
  | assignment name nameSpan value =>
    rw [Statement.part, Part.rows, Part.rowsInside, Part.rowsInside, Expression.rows_part,
      Part.rowsInside, List.append_nil, Statement.outline]
    rfl

/-- The parts of a script are those of its outline. -/
theorem Script.rows_part (s : Script) : s.part.rows 0 = s.outline := by
  have statements (l : List Statement) :
      Part.rowsInside 1 (l.map Statement.part) = l.flatMap (·.outline 1) := by
    induction l with
    | nil => rfl
    | cons first rest ih =>
      rw [List.map_cons, Part.rowsInside, Statement.rows_part, ih, List.flatMap_cons]
  rw [Script.part, Part.rows, Part.rowsInside_append, statements, Script.outline]
  rfl

end Grammar

/-! ## Compiling the parts of a script -/

namespace Compile

open Grammar

variable {ctx : BuildContext} {scope : Scope}

theorem applyPrefixes_eq (span : Span) (signs : List Sign) (id : NodeId) (a : Arena) :
    applyPrefixes ctx span (signs.map (·.op)) id a = compileSigns ctx span signs id a := by
  induction signs generalizing id a with
  | nil => rfl
  | cons sign outer ih =>
    rw [List.map_cons, applyPrefixes, compileSigns]
    cases compileUnary ctx a sign.op id span with
    | ok next => exact ih next.1 next.2
    | error e => rfl

/-- The stacks of operators and operands for operands that wait before their operators. -/
theorem reducePartsBefore_eq (next : Operator) (pending : Pending) (last : NodeId) (a : Arena) :
    reducePartsBefore ctx next (pending.map (·.2)) (last :: pending.map (·.1)) a =
      (reduceBefore ctx next pending last a).map fun (pending, last, a) =>
        (pending.map (·.2), last :: pending.map (·.1), a) := by
  induction pending generalizing last a with
  | nil => rfl
  | cons entry rest ih =>
    obtain ⟨left, op⟩ := entry
    rw [List.map_cons, reducePartsBefore, reduceBefore]
    by_cases h : op.reducesBefore next
    · rw [if_pos h, if_pos h]
      simp only [List.map_cons, reduceParts, List.head?_cons, List.tail_cons, Option.getD_some]
      cases a.buildBinary ctx op left last with
      | ok built => exact ih built.1 built.2
      | error e => rfl
    · rw [if_neg h, if_neg h]
      rfl

theorem reduceAllParts_eq (pending : Pending) (last : NodeId) (a : Arena) :
    reduceAllParts ctx (pending.map (·.2)) (last :: pending.map (·.1)) a =
      (reduceAll ctx pending last a).map fun (id, a) => ([id], a) := by
  induction pending generalizing last a with
  | nil => rfl
  | cons entry rest ih =>
    obtain ⟨left, op⟩ := entry
    rw [List.map_cons, reduceAllParts, reduceAll]
    simp only [List.map_cons, reduceParts, List.head?_cons, List.tail_cons, Option.getD_some]
    cases a.buildBinary ctx op left last with
    | ok built => exact ih built.1 built.2
    | error e => rfl

/-- One operand is left when all is built. -/
theorem finishParts_eq (span : Span) (pending : Pending) (last : NodeId) (a : Arena) :
    finishParts ctx span (pending.map (·.2)) (last :: pending.map (·.1)) a =
      reduceAll ctx pending last a := by
  rw [finishParts, reduceAllParts_eq]
  cases reduceAll ctx pending last a <;> rfl

/-- The state of an operand after signs, the last one first. -/
def afterSigns (a : Arena) : List Sign → OperandState
  | [] => ⟨[], none, none, a⟩
  | sign :: outer =>
    ⟨sign.op :: outer.map (·.op), if sign.op = .neg then some sign.span.start else none, none, a⟩

theorem operandParts_signs (signs signs' : List Sign) (a : Arena) (rest : List Part) :
    operandParts ctx scope (afterSigns a signs) (signs'.map Sign.part ++ rest) =
      operandParts ctx scope (afterSigns a (signs'.reverse ++ signs)) rest := by
  induction signs' generalizing signs with
  | nil => rfl
  | cons sign later ih =>
    have step : operandParts ctx scope (afterSigns a signs)
        (sign.part :: (later.map Sign.part ++ rest)) =
          operandParts ctx scope (afterSigns a (sign :: signs)) (later.map Sign.part ++ rest) := by
      rw [operandParts]
      cases h : sign.op <;> cases signs <;>
        simp [Sign.part, Part.rule, Part.span, afterSigns, h]
    rw [List.map_cons, List.cons_append, step, ih, List.reverse_cons, List.append_assoc]
    rfl

theorem prefixes_afterSigns (a : Arena) (signs : List Sign) :
    (afterSigns a signs).prefixes = signs.map (·.op) := by
  cases signs <;> rfl

theorem arena_afterSigns (a : Arena) (signs : List Sign) : (afterSigns a signs).arena = a := by
  cases signs <;> rfl

theorem splitMinus_eq_some {signs outer : List Sign} {minus : Sign}
    (h : splitMinus signs = some (minus, outer)) : signs = minus :: outer ∧ minus.op = .neg := by
  cases signs with
  | nil => contradiction
  | cons sign rest =>
    simp only [splitMinus] at h
    split at h
    · rename_i neg
      obtain ⟨rfl, rfl⟩ := Prod.mk.inj (Option.some.inj h)
      exact ⟨rfl, neg⟩
    · contradiction

theorem splitMinus_isSome {signs : List Sign} (h : (signs.map (·.op)).head? = some .neg) :
    ∃ minus outer, splitMinus signs = some (minus, outer) := by
  cases signs with
  | nil => contradiction
  | cons sign rest =>
    have neg : sign.op = .neg := Option.some.inj h
    exact ⟨sign, rest, by rw [splitMinus, if_pos neg]⟩

theorem Primary.rule_part (p : Primary) :
    p.part.rule ≠ .neg ∧ p.part.rule ≠ .not ∧
      (p.part.rule = .number → ∃ text span, p = .leaf (.number text) span) := by
  cases p with
  | group inner span => simp [Primary.part, Part.rule]
  | leaf l span => cases l <;> simp [Primary.part, Leaf.part, Part.rule]

/-- A minus sign right before a number is taken back from the signs. -/
theorem operandParts_number {minus : Sign} (neg : minus.op = .neg) (outer : List Sign) (a : Arena)
    (text : List Char) (span : Span) :
    operandParts ctx scope (afterSigns a (minus :: outer)) [(Leaf.number text).part span] =
      (compileNumber a ('-' :: text) (minus.span.combine span)).map fun (id, a) =>
        ⟨outer.map (·.op), some minus.span.start, some id, a⟩ := by
  simp only [operandParts, afterSigns, Leaf.part, Part.rule, Part.span, Part.text, neg,
    List.head?_cons, List.tail_cons, reduceCtorEq, if_false, and_self, if_true, Option.getD_some]
  cases h : compileNumber a ('-' :: text) ⟨minus.span.start, span.stop⟩ <;>
    simp only [Span.combine, h] <;> rfl

theorem operandParts_primary {st : OperandState} {p : Primary}
    (other : ∀ text span, p = .leaf (.number text) span → st.prefixes.head? ≠ some .neg) :
    operandParts ctx scope st [p.part] =
      (primaryPart ctx scope st.arena p.part).map fun (id, a) =>
        { st with primary := some id, arena := a } := by
  obtain ⟨notNeg, notNot, number⟩ := Primary.rule_part p
  have plain : ¬ (p.part.rule = .number ∧ st.prefixes.head? = some .neg) := by
    rintro ⟨rule, signed⟩
    obtain ⟨text, span, hp⟩ := number rule
    exact other text span hp signed
  rw [operandParts, if_neg notNeg, if_neg notNot, if_neg plain]
  cases primaryPart ctx scope st.arena p.part <;> rfl

mutual

theorem primaryPart_eq (a : Arena) : ∀ p : Primary,
    primaryPart ctx scope a p.part = compilePrimary ctx scope a p
  | .leaf l span => by
    cases l with
    | boolean b => cases b <;> rfl
    | _ => rfl
  | .group inner span => by
    have same := expressionPart_eq a inner
    cases h : compileExpression ctx scope a inner <;> rw [h] at same <;>
      simp only [Primary.part, primaryPart, compilePrimary, same, h]

theorem operandPart_eq (a : Arena) : ∀ o : Operand,
    operandPart ctx scope a o.part = compileOperand ctx scope a o
  | .mk signs primary => by
    have signed : operandParts ctx scope (afterSigns a []) (signs.map Sign.part ++ [primary.part]) =
        operandParts ctx scope (afterSigns a signs.reverse) [primary.part] := by
      rw [operandParts_signs, List.append_nil]
    have start : (⟨[], none, none, a⟩ : OperandState) = afterSigns a [] := rfl
    rw [Operand.part, operandPart, start, signed]
    simp only [compileOperand.eq_def]
    symm
    split
    · rename_i text numberSpan minus outer hminus
      obtain ⟨reversed, neg⟩ := splitMinus_eq_some hminus
      rw [reversed, Primary.part, operandParts_number neg]
      cases compileNumber a ('-' :: text) (minus.span.combine numberSpan) with
      | ok next => exact (applyPrefixes_eq _ outer next.1 next.2).symm
      | error e => rfl
    · rename_i primary _ _ hother
      have other : ∀ text span, primary = .leaf (.number text) span →
          (afterSigns a signs.reverse).prefixes.head? ≠ some .neg := by
        intro text span hp signed
        rw [prefixes_afterSigns] at signed
        obtain ⟨minus, outer, hminus⟩ := splitMinus_isSome signed
        exact hother text span minus outer hp hminus
      rw [operandParts_primary other, arena_afterSigns, primaryPart_eq a primary]
      cases compilePrimary ctx scope a primary with
      | ok next =>
        have applied : applyPrefixes ctx (Operand.mk signs primary).span
            (signs.reverse.map (·.op)) next.1 next.2 = _ := applyPrefixes_eq _ _ _ _
        rw [← prefixes_afterSigns a] at applied
        exact applied.symm
      | error e => rfl

theorem expressionParts_eq (a : Arena) (span : Span) (pending : Pending) (last : NodeId) :
    ∀ links : Links,
    (match expressionParts ctx scope (pending.map (·.2)) (last :: pending.map (·.1)) a
        links.parts with
      | .error e => .error e
      | .ok (pending, operands, a) => finishParts ctx span pending operands a) =
      compileLinks ctx scope pending last a links
  | .nil => finishParts_eq span pending last a
  | .cons op opSpan operand rest => by
    rw [Links.parts, expressionParts, compileLinks]
    simp only [Part.rule, reduceCtorEq, if_false, Rule.operator?, reducePartsBefore_eq]
    cases reduceBefore ctx op pending last a with
    | error e => rfl
    | ok next =>
      obtain ⟨pending', left, a'⟩ := next
      have operator : operand.part.rule = .operand := by
        cases operand
        rfl
      simp only [Except.map, expressionParts, operator, if_true, operandPart_eq a' operand]
      cases compileOperand ctx scope a' operand with
      | error e => rfl
      | ok next => exact expressionParts_eq next.2 span ((left, op) :: pending') next.1 rest

theorem expressionPart_eq (a : Arena) : ∀ e : Expression,
    expressionPart ctx scope a e.part = compileExpression ctx scope a e
  | .mk first links span => by
    have operand : first.part.rule = .operand := by
      cases first
      rfl
    rw [Expression.part, expressionPart, compileExpression]
    simp only [expressionParts, operand, if_true, operandPart_eq a first]
    cases compileOperand ctx scope a first with
    | error e => rfl
    | ok next => exact expressionParts_eq next.2 span [] next.1 links

end

theorem statementPart_eq (a : Arena) (s : Statement) :
    statementPart ctx scope a s.part = compileStatement ctx scope a s := by
  cases s with
  | expression e =>
    have rule : e.part.rule = .expression := by
      cases e
      rfl
    cases h : compileExpression ctx scope a e <;>
      simp only [Statement.part, statementPart, rule, expressionPart_eq, compileStatement, h]
  | assignment name nameSpan value =>
    cases h : compileExpression ctx scope a value <;>
      simp only [Statement.part, statementPart, Part.rule, Part.inner, Part.text, Part.span,
        expressionPart_eq, compileStatement, h]

theorem statementParts_eq (lines : Option LineIndex) (a : Arena) (statements : List Statement)
    (size : Nat) :
    statementParts ctx lines scope a
        (statements.map Statement.part ++ [.mk .endOfInput ⟨size, size⟩ [] []]) =
      compileStatements ctx lines scope a statements := by
  induction statements generalizing scope a with
  | nil => rfl
  | cons s rest ih =>
    have rule : s.part.rule ≠ .endOfInput := by
      cases s with
      | expression e => cases e; simp [Statement.part, Expression.part, Part.rule]
      | assignment name nameSpan value => simp [Statement.part, Part.rule]
    rw [List.map_cons, List.cons_append]
    cases hs : compileStatement ctx scope a s with
    | error e => simp only [statementParts, rule, if_false, statementPart_eq, compileStatements, hs]
    | ok next =>
      obtain ⟨root, scope', a'⟩ := next
      cases hrest : compileStatements ctx lines scope' (located ctx lines root a') rest <;>
        simp only [statementParts, rule, if_false, statementPart_eq, compileStatements, hs, ih,
          hrest]

end Compile

/-- On the parts of a source the compiler of parts does what the compiler of trees does. -/
theorem compileSource_eq (ctx : BuildContext) (inputs : List (String × Ty)) (debugSymbols : Bool)
    (limit : Nat) :
    Compile.compileSource ctx inputs debugSymbols limit =
      compile ctx inputs debugSymbols limit := by
  cases parsed : Grammar.parse limit ctx.source with
  | error e => simp only [Compile.compileSource, compile, parsed]
  | ok script =>
    cases h : Compile.compileStatements ctx (debugLines ctx debugSymbols) (.ofInputs inputs) .empty
        script.statements <;>
      simp only [Compile.compileSource, compile, parsed, Grammar.Script.part, Grammar.Part.inner,
        Compile.statementParts_eq, h]

end Scriptlet
