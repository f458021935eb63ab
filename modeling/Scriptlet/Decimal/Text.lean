import Scriptlet.Decimal.Arith
import Scriptlet.Text.Numeral
import Scriptlet.Text.Positional

/-!
# Decimals in text

A decimal is printed with exactly the places of its scale. `read?` takes digits with optional
underscores and one point, and after them perhaps an exponent. What does not fit after the point
is rounded half up.
-/
namespace Scriptlet.Decimal

/-- The digits with the point at the scale; the sign shows also on zero. -/
def text (d : Decimal) : List Char :=
  Text.signed d.negative (Text.positional d.scale d.mantissa)

/-- Digits that were read, and the text after them. -/
structure Reading where
  mantissa : Nat
  scale : Nat
  rest : List Char

/-- Whether a character starts an exponent. -/
def isExponentMark (c : Char) : Bool := c == 'e' || c == 'E'

/-- Whether a character may stand among digits. -/
def isDigitPart (c : Char) : Bool := c.isDigit || c == '_'

/-- The digits read so far, rounded by the next character: a digit of five or more rounds up. All
further digits are skipped. -/
def roundBy? (mantissa scale : Nat) (next : Char) (rest : List Char) : Option Reading :=
  let rest := rest.dropWhile isDigitPart
  if !isDigitPart next then none
  else if next = '_' ∨ next < '5' then some ⟨mantissa, scale, rest⟩
  else if mantissa + 1 < capacity then some ⟨mantissa + 1, scale, rest⟩
  else if scale = 0 then none
  else some ⟨(mantissa + 5) / 10, scale - 1, rest⟩

/-- From this mantissa on an underscore at the place that decides the rounding is skipped. -/
def wideMantissa : Nat := (2 ^ 64 - 256) / 10

/-- Reads digits, underscores after a digit, and one point, up to the end or an exponent. The digit
that no longer fits rounds if it stands after the point; before the point it is an error. -/
def readDigits? (mantissa scale : Nat) (point seen : Bool) : List Char → Option Reading
  | [] => if seen then some ⟨mantissa, scale, []⟩ else none
  | c :: rest =>
    if c.isDigit then
      let longer := mantissa * 10 + (c.toNat - '0'.toNat)
      let scaled := if point then scale + 1 else scale
      if capacity ≤ longer then
        if point then roundBy? mantissa scale c rest else none
      else
        match rest with
        | [] => some ⟨longer, scaled, []⟩
        | next :: after =>
          if point && maxScale ≤ scaled && !isExponentMark next then
            if next = '_' ∧ wideMantissa ≤ mantissa then readDigits? longer scaled point true after
            else roundBy? longer scaled next after
          else readDigits? longer scaled point true (next :: after)
    else if c = '.' ∧ point = false then readDigits? mantissa scale true seen rest
    else if c = '_' ∧ seen then readDigits? mantissa scale point seen rest
    else if isExponentMark c ∧ seen then some ⟨mantissa, scale, c :: rest⟩
    else none

/-- The decimal moved to a scale. -/
def withScale? (d : Decimal) (scale : Nat) : Option Decimal :=
  ofParts? d.negative d.mantissa scale

/-- The largest power of ten that a single factor brings. -/
def largestFactor : Nat := 19

/-- The product with a power of ten, which takes at most two factors. -/
def timesPowerOfTen? (d : Decimal) (exponent : Nat) : Option Decimal :=
  let first := min exponent largestFactor
  let power (n : Nat) := ofParts? false (10 ^ n) 0
  (power first).bind fun factor => (d.mul? factor).bind fun product =>
    if exponent = first then some product
    else (power (exponent - first)).bind product.mul?

/-- Multiplies by a power of ten: the point moves as long as there are places, and then the
mantissa grows. -/
def raise? (d : Decimal) (exponent : Nat) : Option Decimal :=
  if exponent ≤ d.scale then d.withScale? (d.scale - exponent)
  else if maxScale < exponent then none
  else (d.timesPowerOfTen? exponent).map normalize

/-- Divides by a power of ten: the point moves, and what it moves past the last place is rounded
half up. -/
def lower? (d : Decimal) (exponent : Nat) : Option Decimal :=
  if maxScale < exponent then none
  else if d.scale + exponent ≤ maxScale then d.withScale? (d.scale + exponent)
  else
    let mantissa := Rounding.halfUp d.mantissa (10 ^ (d.scale + exponent - maxScale))
    ofParts? d.negative mantissa maxScale

/-- The decimal times the power of ten that the rest of its text denotes. -/
def withExponent? (d : Decimal) : List Char → Option Decimal
  | [] => some d
  | mark :: exponent =>
    if !isExponentMark mark then none
    else
      match exponent with
      | '-' :: digits => (Text.readDigits? digits).bind d.lower?
      | '+' :: digits => (Text.readDigits? digits).bind d.raise?
      | digits => (Text.readDigits? digits).bind d.raise?

/-- An unsigned numeral with the sign that stood before it. -/
def readSigned? (negative : Bool) (digits : List Char) : Option Decimal :=
  (readDigits? 0 0 false false digits).bind fun reading =>
    (ofParts? negative reading.mantissa reading.scale).bind (·.withExponent? reading.rest)

/-- A decimal in plain or scientific notation. -/
def read? : List Char → Option Decimal
  | '-' :: digits => readSigned? true digits
  | '+' :: digits => readSigned? false digits
  | digits => readSigned? false digits

end Scriptlet.Decimal
