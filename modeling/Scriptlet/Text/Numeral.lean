import Scriptlet.Text.Positional

/-!
# Integers in text

`integer` prints a decimal integer. Two readers take them: `readInt?` takes an optional sign and digits. `readLoose?` also
takes underscores between and after the digits, as long as a digit comes first.
-/
namespace Scriptlet.Text

/-- The decimal digits of an integer, with a minus sign if it is negative. -/
def integer (n : Int) : List Char :=
  signed (decide (n < 0)) (Nat.toDigits 10 n.natAbs)

/-- The number that a non-empty run of decimal digits denotes. -/
def readDigits? (digits : List Char) : Option Nat :=
  if digits.isEmpty then none
  else if digits.all Char.isDigit then some (Nat.ofDigitChars 10 digits 0)
  else none

/-- An optional sign followed by digits, and nothing else. -/
def readInt? : List Char → Option Int
  | '-' :: digits => (readDigits? digits).map fun n => -(n : Int)
  | '+' :: digits => (readDigits? digits).map Int.ofNat
  | digits => (readDigits? digits).map Int.ofNat

/-- Digits after which underscores may stand: the first character is a digit. -/
def readSpaced? (text : List Char) : Option Nat :=
  match text with
  | '_' :: _ => none
  | _ => readDigits? (text.filter (· ≠ '_'))

/-- At most one sign, then digits that may be spaced by underscores. -/
def readLoose? : List Char → Option Int
  | '-' :: '+' :: _ => none
  | '-' :: digits => (readSpaced? digits).map fun n => -(n : Int)
  | '+' :: digits => (readSpaced? digits).map Int.ofNat
  | digits => (readSpaced? digits).map Int.ofNat

/-- The value of a hexadecimal digit. -/
def hexValue? (c : Char) : Option Nat :=
  if c.isDigit then some (c.toNat - '0'.toNat)
  else if 'a' ≤ c ∧ c ≤ 'f' then some (c.toNat - 'a'.toNat + 10)
  else if 'A' ≤ c ∧ c ≤ 'F' then some (c.toNat - 'A'.toNat + 10)
  else none

/-- The number that hexadecimal digits denote, continuing from `acc`. -/
def readHexFrom? (acc : Nat) : List Char → Option Nat
  | [] => some acc
  | c :: rest => (hexValue? c).bind fun digit => readHexFrom? (acc * 16 + digit) rest

/-- A non-empty run of hexadecimal digits after an optional plus sign. -/
def readHex? : List Char → Option Nat
  | [] => none
  | ['+'] => none
  | '+' :: digits => readHexFrom? 0 digits
  | digits => readHexFrom? 0 digits

end Scriptlet.Text
