import Scriptlet.Kernel.Error
import Scriptlet.Source.Diagnostic
import Scriptlet.Text.Positional

/-!
# Execution errors

How an evaluation fails, and at which node.
-/
namespace Scriptlet

inductive ExecutionErrorKind where
  | runtime (e : RuntimeError)
  /-- The tree is higher than the limit. -/
  | tooDeep (depth limit : Nat)
  /-- Nodes of this sort are not evaluated in the chosen mode. -/
  | unsupported (node : String)
  deriving DecidableEq, Repr

namespace ExecutionErrorKind

def message : ExecutionErrorKind → String
  | .runtime e => e.message
  | .tooDeep depth limit =>
    "Evaluation stack overflow: depth " ++ String.ofList (Nat.toDigits 10 depth) ++
      " exceeds maximum of " ++ String.ofList (Nat.toDigits 10 limit)
  | .unsupported node => node ++ " nodes do not support interpreted evaluation"

def code : ExecutionErrorKind → String
  | .runtime e => e.code
  | .tooDeep .. => "R100"
  | .unsupported _ => "R999"

end ExecutionErrorKind

structure ExecutionError where
  kind : ExecutionErrorKind
  /-- The span of the node that failed, if it has one. -/
  span : Option Span
  deriving DecidableEq, Repr

namespace ExecutionError

/-- The evaluation went deeper than allowed. -/
def isTooDeep (e : ExecutionError) : Bool :=
  match e.kind with
  | .tooDeep .. => true
  | _ => false

def diagnostic (e : ExecutionError) : Diagnostic :=
  .plain e.kind.code e.kind.message (e.span.getD .origin)

/-- The message with the range of the node. -/
def display (e : ExecutionError) : String :=
  match e.span with
  | some s =>
    e.kind.message ++ " at " ++ String.ofList (Nat.toDigits 10 s.start) ++ ".." ++
      String.ofList (Nat.toDigits 10 s.stop)
  | none => e.kind.message

end ExecutionError

end Scriptlet
