import Scriptlet.Compile.Expression
import Scriptlet.Grammar.Parse

/-!
# Programs

A program is an arena and the roots of its statements; its type is that of the last statement.
With debug symbols, the nodes on which a debugger can stop carry locations: along the order of
evaluation of a statement, the first node and each one that starts on another line than the node
before it.
-/
namespace Scriptlet

structure Program where
  arena : Arena
  statements : List NodeId
  returnTy : Ty
  deriving Inhabited

namespace Arena

/-- The nodes of a tree of at most the given height in the order in which evaluation begins
them: a node, then its operands from left to right. -/
def orderWithin (a : Arena) : Nat → NodeId → List NodeId
  | 0, _ => []
  | height + 1, id =>
    match a.node? id with
    | some node => id :: node.operands.flatMap (a.orderWithin height)
    | none => []

/-- The nodes of the tree under a node in the order of evaluation. -/
def order (a : Arena) (root : NodeId) : List NodeId := a.orderWithin a.size root

end Arena

namespace Compile

/-- Gives a location to the nodes that start on another line than the one before. -/
def locateNodes (ctx : BuildContext) (lines : LineIndex) :
    Option Nat → List NodeId → Arena → Arena
  | _, [], a => a
  | previous, id :: rest, a =>
    match a.span? id with
    | none => locateNodes ctx lines previous rest a
    | some span =>
      let line := lines.line span.start
      if previous = some line then locateNodes ctx lines previous rest a
      else locateNodes ctx lines (some line) rest (a.setLocation id (ctx.locate span))

/-- Gives locations to the nodes of a statement. -/
def locate (ctx : BuildContext) (lines : LineIndex) (root : NodeId) (a : Arena) : Arena :=
  locateNodes ctx lines none (a.order root) a

/-- The arena of a statement with its locations; without debug symbols it has none. -/
def located (ctx : BuildContext) (lines : Option LineIndex) (root : NodeId) (a : Arena) : Arena :=
  match lines with
  | some lines => locate ctx lines root a
  | none => a

/-- Appends a statement. An assignment declares its name for the statements after it. -/
def compileStatement (ctx : BuildContext) (scope : Scope) (a : Arena) :
    Grammar.Statement → Except CompileError (NodeId × Scope × Arena)
  | .expression e =>
    match compileExpression ctx scope a e with
    | .ok (id, a) => .ok (id, scope, a)
    | .error e => .error e
  | .assignment name nameSpan value =>
    match compileExpression ctx scope a value with
    | .ok (id, a) =>
      let ty := a.egress id
      let name' := String.ofList name
      let (root, a) := a.push (.assign name' id ty)
        (some (Grammar.Statement.assignment name nameSpan value).span)
      .ok (root, scope.declare name' ty, a)
    | .error e => .error e

/-- Appends statements and answers with their roots. The line index is given with debug
symbols. -/
def compileStatements (ctx : BuildContext) (lines : Option LineIndex) (scope : Scope)
    (a : Arena) : List Grammar.Statement → Except CompileError (List NodeId × Arena)
  | [] => .ok ([], a)
  | s :: rest =>
    match compileStatement ctx scope a s with
    | .error e => .error e
    | .ok (root, scope, a) =>
      match compileStatements ctx lines scope (located ctx lines root a) rest with
      | .ok (roots, a) => .ok (root :: roots, a)
      | .error e => .error e

/-- The type of the last statement. -/
def returnTy (roots : List NodeId) (a : Arena) : Ty :=
  match roots.getLast? with
  | some root => a.egress root
  | none => .null

end Compile

/-- The lines that locations are made from. -/
def debugLines (ctx : BuildContext) (debugSymbols : Bool) : Option LineIndex :=
  if debugSymbols then some (LineIndex.ofSource ctx.source) else none

/-- Compiles the source of a context with declared inputs; `limit` bounds the nesting of
parentheses. -/
def compile (ctx : BuildContext) (inputs : List (String × Ty)) (debugSymbols : Bool)
    (limit : Nat) : Except CompileError Program :=
  match Grammar.parse limit ctx.source with
  | .error e => .error (.parse e)
  | .ok script =>
    match Compile.compileStatements ctx (debugLines ctx debugSymbols) (.ofInputs inputs) .empty
        script.statements with
    | .ok (roots, a) => .ok ⟨a, roots, Compile.returnTy roots a⟩
    | .error e => .error e

end Scriptlet
