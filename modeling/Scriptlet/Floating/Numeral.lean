import Scriptlet.Floating.Format

/-!
# Reading binary numbers

A numeral is an optional sign followed by `inf`, `infinity` or `nan` in any case, or by digits
with an optional point and an optional exponent; at least one digit stands before the exponent.
The value is the number of the format nearest to the one written.
-/
namespace Scriptlet.Floating

/-- An exponent: an optional sign and at least one digit. -/
def readExponent? (text : List Char) : Option Int :=
  let (negative, digits) := match text with
    | '-' :: rest => (true, rest)
    | '+' :: rest => (false, rest)
    | rest => (false, rest)
  if digits.isEmpty || !digits.all Char.isDigit then none
  else
    let n := Nat.ofDigitChars 10 digits 0
    some (if negative then -(n : Int) else n)

/-- Digits with an optional point and exponent, as an integer and a power of ten. -/
def readScientific? (text : List Char) : Option (Nat × Int) :=
  let whole := text.takeWhile Char.isDigit
  let afterWhole := text.dropWhile Char.isDigit
  let (fraction, rest) := match afterWhole with
    | '.' :: tail => (tail.takeWhile Char.isDigit, tail.dropWhile Char.isDigit)
    | tail => ([], tail)
  if whole.isEmpty && fraction.isEmpty then none
  else
    let digits := Nat.ofDigitChars 10 (whole ++ fraction) 0
    match rest with
    | [] => some (digits, -(fraction.length : Int))
    | c :: tail =>
      if c = 'e' ∨ c = 'E' then
        (readExponent? tail).map fun exponent => (digits, exponent - fraction.length)
      else none

/-- No number of either format lies beyond ten to this power, and none but zero below its
inverse. -/
def exponentLimit : Int := 400

/-- The pattern nearest to `digits * 10 ^ exponent`. -/
def encodeScientific (f : Format) (digits : Nat) (exponent : Int) : Nat :=
  let size : Int := (Nat.toDigits 10 digits).length
  if digits = 0 then 0
  else if exponentLimit < size + exponent then f.infinityBits
  else if size + exponent < -exponentLimit then 0
  else encodeRatio f (digits * 10 ^ exponent.toNat) (10 ^ (-exponent).toNat)

/-- The pattern that an unsigned numeral denotes. -/
def readMagnitude? (f : Format) (text : List Char) : Option Nat :=
  let name := text.map Char.toLower
  if name = "inf".toList ∨ name = "infinity".toList then some f.infinityBits
  else if name = "nan".toList then some (f.infinityBits + f.fieldWeight / 2)
  else (readScientific? text).map fun (digits, exponent) => encodeScientific f digits exponent

/-- The pattern that a numeral denotes. -/
def readBits? (f : Format) : List Char → Option Nat
  | '-' :: text => (readMagnitude? f text).map (withSign f true)
  | '+' :: text => readMagnitude? f text
  | text => readMagnitude? f text

/-- The double that a numeral denotes. -/
def readDouble? (text : List Char) : Option Float :=
  (readBits? .double text).map fun bits => Float.ofBits (UInt64.ofNat bits)

/-- The single that a numeral denotes, rounded once. -/
def readSingle? (text : List Char) : Option Float32 :=
  (readBits? .single text).map fun bits => Float32.ofBits (UInt32.ofNat bits)

end Scriptlet.Floating
