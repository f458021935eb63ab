/-!
# Positional notation

A natural number written in decimal with a point before its last places.
-/
namespace Scriptlet.Text

/-- The decimal digits of `n`, at least `width` of them. -/
def paddedDigits (width n : Nat) : List Char :=
  let digits := Nat.toDigits 10 n
  List.replicate (width - digits.length) '0' ++ digits

/-- The number `n / 10 ^ places` with exactly `places` digits after the point; no point when
there are none. -/
def positional (places n : Nat) : List Char :=
  if places = 0 then Nat.toDigits 10 n
  else
    let digits := paddedDigits (places + 1) n
    let whole := digits.length - places
    digits.take whole ++ '.' :: digits.drop whole

/-- The text with a minus sign in front when `negative`. -/
def signed (negative : Bool) (text : List Char) : List Char :=
  if negative then '-' :: text else text

end Scriptlet.Text
