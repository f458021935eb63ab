import Scriptlet.Kind.Ty

/-!
# Conversion errors

The three ways in which a value fails to become a value of another type.
-/
namespace Scriptlet

inductive ConversionError where
  /-- No rule leads from one type to the other. -/
  | unsupported (source target : Ty)
  /-- A string does not spell a value of the type. -/
  | invalidLiteral (text : String) (target : Ty)
  /-- The value, shown by its text, has no counterpart in the type. -/
  | outOfRange (value : String) (target : Ty)
  deriving DecidableEq, Repr

namespace ConversionError

def message : ConversionError → String
  | .unsupported source target => "cannot convert " ++ source.display ++ " to " ++ target.display
  | .invalidLiteral text target => "'" ++ text ++ "' is not a valid " ++ target.display
  | .outOfRange value target => value ++ " is out of range for " ++ target.display

end ConversionError

end Scriptlet
