import Scriptlet.Source.Span

/-!
# Diagnostics

A diagnostic is a message about a span of the source, with related spans, help and a code.
-/
namespace Scriptlet

inductive Severity where
  | error
  | warning
  | info
  deriving DecidableEq, Repr

def Severity.display : Severity → String
  | .error => "error"
  | .warning => "warning"
  | .info => "info"

/-- A span that explains the diagnostic. -/
structure Related where
  span : Span
  message : String
  deriving DecidableEq, Repr

structure Diagnostic where
  severity : Severity
  message : String
  span : Span
  related : List Related
  help : List String
  code : Option String
  deriving DecidableEq, Repr

namespace Diagnostic

/-- An error with a code and nothing else. -/
def plain (code message : String) (span : Span) : Diagnostic :=
  ⟨.error, message, span, [], [], some code⟩

end Diagnostic

end Scriptlet
