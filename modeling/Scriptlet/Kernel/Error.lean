import Scriptlet.Conversion.Error
import Scriptlet.Kind.Operator
import Scriptlet.Kind.Tag

/-!
# Runtime errors

Why an operation on values, or the look-up of a variable, has no result.
-/
namespace Scriptlet

inductive RuntimeError where
  | divisionByZero
  | nullOperand (op : Operator)
  | incompatibleOperands (op : Operator) (left right : Tag)
  | overflow (op : Operator)
  | invalidUnaryOperand (op : UnaryOp) (operand : Tag)
  | unboundVariable (name : String)
  | conversion (e : ConversionError)
  deriving DecidableEq, Repr

namespace RuntimeError

def message : RuntimeError → String
  | .divisionByZero => "division by zero"
  | .nullOperand op => "null operand for '" ++ op.symbol ++ "'"
  | .incompatibleOperands op left right =>
    "cannot apply '" ++ op.symbol ++ "' to " ++ left.display ++ " and " ++ right.display
  | .overflow op => "arithmetic overflow in '" ++ op.symbol ++ "'"
  | .invalidUnaryOperand op operand =>
    "cannot apply '" ++ op.symbol ++ "' to " ++ operand.display
  | .unboundVariable name => "unbound variable '" ++ name ++ "'"
  | .conversion e => e.message

/-- The code that diagnostics show. -/
def code : RuntimeError → String
  | .divisionByZero => "R001"
  | .nullOperand _ => "R002"
  | .incompatibleOperands .. | .invalidUnaryOperand .. => "R003"
  | .overflow _ => "R004"
  | .unboundVariable _ => "R005"
  | .conversion _ => "R006"

end RuntimeError

end Scriptlet
