import Scriptlet.Source.Diagnostic
import Scriptlet.Text.Positional

/-!
# Parse errors

What is wrong with a source before it has a tree, and where.
-/
namespace Scriptlet

inductive ParseErrorKind where
  | unexpectedToken (expected found : String)
  | invalidNumber (text : String)
  | invalidEscape (text : String)
  /-- Parentheses are nested deeper than the limit. -/
  | tooDeep (depth limit : Nat)
  | other (message : String)
  deriving DecidableEq, Repr

structure ParseError where
  kind : ParseErrorKind
  span : Span
  deriving DecidableEq, Repr

namespace ParseErrorKind

def message : ParseErrorKind → String
  | .unexpectedToken expected found => "Expected " ++ expected ++ ", found " ++ found
  | .invalidNumber text => "Invalid number literal '" ++ text ++ "'"
  | .invalidEscape text => "Invalid escape sequence '" ++ text ++ "'"
  | .tooDeep _ limit =>
    "Expression nesting depth exceeds maximum of " ++ String.ofList (Nat.toDigits 10 limit) ++
      " levels"
  | .other message => message

def code : ParseErrorKind → String
  | .unexpectedToken .. => "P001"
  | .invalidNumber _ => "P003"
  | .invalidEscape _ => "P005"
  | .tooDeep .. => "P004"
  | .other _ => "P999"

def help : ParseErrorKind → List String
  | .invalidNumber _ => ["Check the number format and suffix (L, f, d, I, B)"]
  | .tooDeep .. => ["Reduce nesting or simplify the expression"]
  | _ => []

end ParseErrorKind

namespace ParseError

def diagnostic (e : ParseError) : Diagnostic :=
  { Diagnostic.plain e.kind.code e.kind.message e.span with help := e.kind.help }

/-- The error in running text, with its code and help. -/
def display (e : ParseError) : String :=
  e.kind.help.foldl (fun text line => text ++ "\nhelp: " ++ line)
    (Severity.error.display ++ ": " ++ e.kind.message ++ " [" ++ e.kind.code ++ "]")

end ParseError

end Scriptlet
