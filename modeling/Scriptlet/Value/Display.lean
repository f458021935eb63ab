import Scriptlet.Decimal.Text
import Scriptlet.Floating.Shortest
import Scriptlet.Value.Basic

/-!
# Display of values

The text of a value: what joining it to a string appends.
-/
namespace Scriptlet.Value

/-- The characters of a value's text. -/
def displayChars : Value → List Char
  | .null => "null".toList
  | .boolean true => "true".toList
  | .boolean false => "false".toList
  | .char c => [c]
  | .byte n => Text.integer n.toInt
  | .short n => Text.integer n.toInt
  | .int n => Text.integer n.toInt
  | .long n => Text.integer n.toInt
  | .float x => Floating.singleText x
  | .double x => Floating.doubleText x
  | .bigInteger n => Text.integer n
  | .bigDecimal d => d.text
  | .string s => s.toList
  | .object o => o.text.toList

/-- The text of a value. -/
def display (v : Value) : String := String.ofList v.displayChars

end Scriptlet.Value
