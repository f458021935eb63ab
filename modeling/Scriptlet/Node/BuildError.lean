import Scriptlet.Conversion.Error
import Scriptlet.Node.Arena
import Scriptlet.Source.Diagnostic

/-!
# Build errors

Why a node cannot be built.
-/
namespace Scriptlet

inductive Side where
  | left
  | right
  deriving DecidableEq, Repr

def Side.display : Side → String
  | .left => "left"
  | .right => "right"

inductive BuildError where
  | missingOperand (side : Side) (op : Operator)
  /-- The operands cannot meet; the place is that of the left one. -/
  | incompatibleTypes (op : Operator) (left right : Ty) (place : Option (Span × Location))
  | undeclaredVariable (name : String) (span : Option Span)
  | invalidUnaryOperand (op : UnaryOp) (ty : Ty) (span : Option Span)
  | conversion (e : ConversionError) (span : Option Span)
  | notBinary (id : NodeId)
  deriving DecidableEq, Repr

namespace BuildError

def message : BuildError → String
  | .missingOperand side op => "missing " ++ side.display ++ " operand for '" ++ op.symbol ++ "'"
  | .incompatibleTypes op left right _ =>
    "incompatible types for '" ++ op.symbol ++ "': " ++ left.display ++ " and " ++ right.display
  | .undeclaredVariable name _ => "undeclared variable '" ++ name ++ "'"
  | .invalidUnaryOperand op ty _ =>
    "operator '" ++ op.symbol ++ "' cannot be applied to " ++ ty.display
  | .conversion e _ => e.message
  | .notBinary id => "node " ++ id.display ++ " is not a binary operation"

def code : BuildError → String
  | .incompatibleTypes .. => "T001"
  | .undeclaredVariable .. => "T002"
  | .invalidUnaryOperand .. => "T003"
  | .conversion .. => "T004"
  | .missingOperand .. | .notBinary _ => "T999"

def span? : BuildError → Option Span
  | .incompatibleTypes _ _ _ place => place.map (·.1)
  | .undeclaredVariable _ span | .invalidUnaryOperand _ _ span | .conversion _ span => span
  | .missingOperand .. | .notBinary _ => none

def related : BuildError → List Related
  | .incompatibleTypes _ _ _ (some (span, location)) => [⟨span, "at " ++ location.display⟩]
  | _ => []

def help : BuildError → List String
  | .incompatibleTypes op _ _ _ =>
    if op.isEquality then ["Register an equality compatibility rule for these types"] else []
  | .undeclaredVariable name _ => ["Declare '" ++ name ++ "' as an input or assign it first"]
  | _ => []

def diagnostic (e : BuildError) : Diagnostic :=
  ⟨.error, e.message, e.span?.getD .origin, e.related, e.help, some e.code⟩

end BuildError

end Scriptlet
