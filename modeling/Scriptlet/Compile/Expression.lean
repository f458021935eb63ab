import Scriptlet.Compile.Error
import Scriptlet.Compile.Scope
import Scriptlet.Grammar.Tree
import Scriptlet.Kernel.Apply
import Scriptlet.Literal.Escape
import Scriptlet.Literal.Number
import Scriptlet.Node.Binary

/-!
# Compiling expressions

An expression becomes nodes, operands before the operations on them. In a chain an operation is
built as soon as its right operand is known to be complete: the operator before an operand takes
it unless the operator after it binds tighter.
-/
namespace Scriptlet.Compile

/-- A node was appended, or compilation stops. -/
abbrev Compiled := Except CompileError (NodeId × Arena)

def ofBuilt (r : Arena.Built) : Compiled := r.mapError .build

/-- Appends a literal of its own type. -/
def pushLiteral (a : Arena) (v : Value) (span : Span) : NodeId × Arena :=
  a.push (.literal v v.ty) (some span)

/-- Appends a number literal. -/
def compileNumber (a : Arena) (text : List Char) (span : Span) : Compiled :=
  match Literal.readNumber? text with
  | some v => .ok (pushLiteral a v span)
  | none => .error (.parse ⟨.invalidNumber (String.ofList text), span⟩)

/-- Appends a string literal. -/
def compileString (a : Arena) (body : List Char) (span : Span) : Compiled :=
  match Literal.unescape body with
  | .ok text => .ok (pushLiteral a (.string (String.ofList text)) span)
  | .error bad => .error (.parse ⟨.invalidEscape (String.ofList bad), span⟩)

/-- Appends a variable. A name out of scope has the universal type, or is an error under strong
typing. -/
def compileName (ctx : BuildContext) (scope : Scope) (a : Arena) (name : String) (span : Span) :
    Compiled :=
  match scope.lookup? name with
  | some ty => .ok (a.push (.variable name ty) (some span))
  | none =>
    if ctx.strongTyping then .error (.build (.undeclaredVariable name (some span)))
    else .ok (a.push (.variable name .any) (some span))

/-- Appends a leaf. -/
def compileLeaf (ctx : BuildContext) (scope : Scope) (a : Arena) (span : Span) :
    Grammar.Leaf → Compiled
  | .null => .ok (pushLiteral a .null span)
  | .boolean b => .ok (pushLiteral a (.boolean b) span)
  | .number text => compileNumber a text span
  | .string _ body => compileString a body span
  | .ident name => compileName ctx scope a (String.ofList name) span

/-- The negative of a number literal. -/
def negateLiteral? : Value → Option Value
  | .char _ => none
  | v => Kernel.negate? v

/-- The literal that the negation of a node folds into. -/
def folded? (a : Arena) (op : UnaryOp) (operand : NodeId) : Option Node :=
  match op, a.node? operand with
  | .neg, some (.literal value ty) => (negateLiteral? value).map (.literal · ty)
  | _, _ => none

/-- The types a prefix operator takes. -/
def accepts (op : UnaryOp) (ty : Ty) : Bool :=
  match op with
  | .neg => ty.isNumber || ty == .any
  | .not => ty.isBoolean || ty == .any

/-- The type of a prefix operation. -/
def unaryTy (op : UnaryOp) (ty : Ty) : Ty :=
  match op with
  | .neg => ty
  | .not => .primitive .boolean

/-- Appends a prefix operation; the negative of a number literal is a literal again. -/
def compileUnary (ctx : BuildContext) (a : Arena) (op : UnaryOp) (operand : NodeId)
    (span : Span) : Compiled :=
  let ty := a.egress operand
  match folded? a op operand with
  | some node => .ok (a.push node (some span))
  | none =>
    if ctx.strongTyping && !accepts op ty then
      .error (.build (.invalidUnaryOperand op ty (some span)))
    else .ok (a.push (.unary op operand (unaryTy op ty)) (some span))

/-- Applies signs to a node, the last one first. -/
def compileSigns (ctx : BuildContext) (span : Span) :
    List Grammar.Sign → NodeId → Arena → Compiled
  | [], id, a => .ok (id, a)
  | sign :: outer, id, a =>
    match compileUnary ctx a sign.op id span with
    | .ok (id, a) => compileSigns ctx span outer id a
    | .error e => .error e

/-- The minus sign right before a number, which is part of it, and the signs before that. The
signs are given from the last one on. -/
def splitMinus : List Grammar.Sign → Option (Grammar.Sign × List Grammar.Sign)
  | sign :: outer => if sign.op = .neg then some (sign, outer) else none
  | [] => none

/-- An operand before an operator, the operator, and so on: what is still to be combined. -/
abbrev Pending := List (NodeId × Operator)

/-- Builds the pending operations that come before the operator `next`. -/
def reduceBefore (ctx : BuildContext) (next : Operator) :
    Pending → NodeId → Arena → Except CompileError (Pending × NodeId × Arena)
  | [], last, a => .ok ([], last, a)
  | (left, op) :: rest, last, a =>
    if op.reducesBefore next then
      match a.buildBinary ctx op left last with
      | .ok (id, a) => reduceBefore ctx next rest id a
      | .error e => .error (.build e)
    else .ok ((left, op) :: rest, last, a)

/-- Builds all pending operations. -/
def reduceAll (ctx : BuildContext) : Pending → NodeId → Arena → Compiled
  | [], last, a => .ok (last, a)
  | (left, op) :: rest, last, a =>
    match a.buildBinary ctx op left last with
    | .ok (id, a) => reduceAll ctx rest id a
    | .error e => .error (.build e)

mutual

def compilePrimary (ctx : BuildContext) (scope : Scope) (a : Arena) :
    Grammar.Primary → Compiled
  | .leaf l span => compileLeaf ctx scope a span l
  | .group inner span =>
    match compileExpression ctx scope a inner with
    | .ok (id, a) => .ok (a.push (.group id) (some span))
    | .error e => .error e

/-- Signs apply from the primary outwards. The sign right before a number belongs to it. -/
def compileOperand (ctx : BuildContext) (scope : Scope) (a : Arena) :
    Grammar.Operand → Compiled
  | .mk signs primary =>
    let span := (Grammar.Operand.mk signs primary).span
    match primary, splitMinus signs.reverse with
    | .leaf (.number text) numberSpan, some (minus, outer) =>
      match compileNumber a ('-' :: text) (minus.span.combine numberSpan) with
      | .ok (id, a) => compileSigns ctx span outer id a
      | .error e => .error e
    | _, _ =>
      match compilePrimary ctx scope a primary with
      | .ok (id, a) => compileSigns ctx span signs.reverse id a
      | .error e => .error e

/-- The rest of a chain after the operand `last`. -/
def compileLinks (ctx : BuildContext) (scope : Scope) (pending : Pending) (last : NodeId)
    (a : Arena) : Grammar.Links → Compiled
  | .nil => reduceAll ctx pending last a
  | .cons op _ operand rest =>
    match reduceBefore ctx op pending last a with
    | .error e => .error e
    | .ok (pending, left, a) =>
      match compileOperand ctx scope a operand with
      | .ok (id, a) => compileLinks ctx scope ((left, op) :: pending) id a rest
      | .error e => .error e

def compileExpression (ctx : BuildContext) (scope : Scope) (a : Arena) :
    Grammar.Expression → Compiled
  | .mk first links _ =>
    match compileOperand ctx scope a first with
    | .ok (id, a) => compileLinks ctx scope [] id a links
    | .error e => .error e

end

end Scriptlet.Compile
