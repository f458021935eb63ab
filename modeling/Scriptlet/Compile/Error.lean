import Scriptlet.Grammar.ParseError
import Scriptlet.Node.BuildError

/-!
# Compile errors

A source fails to compile because it cannot be parsed or because a node cannot be built.
-/
namespace Scriptlet

inductive CompileError where
  | parse (e : ParseError)
  | build (e : BuildError)
  deriving DecidableEq, Repr

def CompileError.diagnostic : CompileError → Diagnostic
  | .parse e => e.diagnostic
  | .build e => e.diagnostic

end Scriptlet
