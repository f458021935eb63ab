import Scriptlet.Eval.Machine
import Scriptlet.Grammar.Parse

/-!
# Engine options

How sources are compiled and how programs are run, unless a caller says otherwise.
-/
namespace Scriptlet

structure CompilationOptions where
  /-- Operands whose types do not fit together are errors. -/
  strongTyping : Bool := false
  /-- Nodes on which a debugger can stop carry locations. -/
  debugSymbols : Bool := false
  sourceFile : Option String := none
  mode : EvaluationMode := .accelerated
  /-- The limit on nested parentheses. -/
  maxDepth : Nat := Grammar.defaultDepth

structure ExecutionOptions where
  /-- The limit on the height of a tree. -/
  maxDepth : Nat := 1000

end Scriptlet
