import Scriptlet.Value.View
import Scriptlet.Decimal.Text
import Scriptlet.Floating.Numeral

/-!
# Number literals

Digits with an optional fraction and a suffix that names the kind. Without a suffix a fraction
makes a double, and an integer has the narrowest of `int` and `long` that holds it.
-/
namespace Scriptlet.Literal

/-- A 32-bit integer. -/
def fitInt32? (n : Int) : Option Int32 :=
  if Int32.minValue.toInt ≤ n ∧ n ≤ Int32.maxValue.toInt then some (Int32.ofInt n) else none

/-- The kinds that a letter after the digits can ask for. -/
inductive Suffix where
  | long
  | float
  | double
  | bigInteger
  | bigDecimal
  deriving DecidableEq, Repr

def Suffix.ofChar? (c : Char) : Option Suffix :=
  if c = 'L' ∨ c = 'l' then some .long
  else if c = 'f' ∨ c = 'F' then some .float
  else if c = 'd' ∨ c = 'D' then some .double
  else if c = 'I' then some .bigInteger
  else if c = 'B' then some .bigDecimal
  else none

/-- The value of digits with a suffix. Only the integral suffixes refuse a fraction. -/
def readSuffixed? (digits : List Char) : Suffix → Option Value
  | .long => if digits.contains '.' then none else
    ((Text.readInt? digits).bind Value.fitInt64?).map .long
  | .float => (Floating.readSingle? digits).map .float
  | .double => (Floating.readDouble? digits).map .double
  | .bigInteger => if digits.contains '.' then none else (Text.readLoose? digits).map .bigInteger
  | .bigDecimal => (Decimal.read? digits).map .bigDecimal

/-- The value of an integer without a suffix. -/
def ofInt? (n : Int) : Option Value :=
  ((fitInt32? n).map .int).or ((Value.fitInt64? n).map .long)

/-- The value of digits without a suffix. -/
def readPlain? (digits : List Char) : Option Value :=
  if digits.contains '.' then (Floating.readDouble? digits).map .double
  else (Text.readInt? digits).bind ofInt?

/-- The value of a number literal; a letter at its end is a suffix. -/
def readNumber? (text : List Char) : Option Value :=
  match text.getLast? with
  | some c =>
    if c.isAlpha then (Suffix.ofChar? c).bind (readSuffixed? text.dropLast) else readPlain? text
  | none => none

end Scriptlet.Literal
