import Scriptlet.Floating.Format
import Scriptlet.Text.Positional

/-!
# Shortest decimal text of a binary number

Of the decimal numbers that read back as a given binary number, the text shows one with the
fewest digits, and of those the nearest. It is positional, never with an exponent.
-/
namespace Scriptlet.Floating

/-- The decimal number `digits * 10 ^ exponent`. -/
structure DecimalPoint where
  digits : Nat
  exponent : Int
  deriving DecidableEq, Repr

/-- The numbers that read back as `significand * 2 ^ exponent`, in quarters of its last bit. -/
structure Neighbourhood where
  lower : Nat
  centre : Nat
  upper : Nat
  /-- The power of two that a quarter weighs. -/
  weight : Int
  /-- Whether the two ends read back as the centre. -/
  closed : Bool

/-- Half-way to the two neighbours; the lower one is nearer at a power of two. -/
def neighbourhood (f : Format) (significand : Nat) (exponent : Int) : Neighbourhood where
  lower :=
    if significand = f.fieldWeight ∧ f.minExponent < exponent then 4 * significand - 1
    else 4 * significand - 2
  centre := 4 * significand
  upper := 4 * significand + 2
  weight := exponent - 2
  closed := significand % 2 == 0

/-- The point of the grid of multiples of `10 ^ exponent` that lies in the neighbourhood and
nearest to its centre; a tie goes up. -/
def Neighbourhood.onGrid? (n : Neighbourhood) (exponent : Int) : Option Nat :=
  let grid := 10 ^ exponent.toNat * 2 ^ (-n.weight).toNat
  let scale := 10 ^ (-exponent).toNat * 2 ^ n.weight.toNat
  let below := n.centre * scale / grid
  let above := below + 1
  let lowerHit := if n.closed then n.lower * scale ≤ below * grid else n.lower * scale < below * grid
  let upperHit := if n.closed then above * grid ≤ n.upper * scale else above * grid < n.upper * scale
  if lowerHit then
    if upperHit ∧ grid ≤ 2 * (n.centre * scale - below * grid) then some above else some below
  else if upperHit then some above
  else none

/-- The first hit on the grids from `exponent` downwards, at most `steps` of them. -/
def Neighbourhood.search (n : Neighbourhood) (exponent : Int) : Nat → DecimalPoint
  | 0 => ⟨n.centre, exponent⟩
  | steps + 1 =>
    match n.onGrid? exponent with
    | some digits => ⟨digits, exponent⟩
    | none => n.search (exponent - 1) steps

/-- The shortest decimal that reads back as `significand * 2 ^ exponent`. -/
def shortest (f : Format) (significand : Nat) (exponent : Int) : DecimalPoint :=
  let bits : Int := significand.log2 + 1 + exponent
  (neighbourhood f significand exponent).search (bits * 30103 / 100000 + 1) (f.precision + 4)

/-- The digits of a decimal number, without an exponent. -/
def DecimalPoint.text (d : DecimalPoint) : List Char :=
  if 0 ≤ d.exponent then Text.positional 0 (d.digits * 10 ^ d.exponent.toNat)
  else Text.positional (-d.exponent).toNat d.digits

/-- A finite number shows a point: `.0` is appended when its digits have none. -/
def withPoint (text : List Char) : List Char :=
  if text.contains '.' then text else text ++ ['.', '0']

/-- The text of a binary number. -/
def text (f : Format) : Reading → List Char
  | .nan => "NaN".toList
  | .infinite negative => Text.signed negative "inf".toList
  | .finite negative 0 _ => Text.signed negative "0.0".toList
  | .finite negative significand exponent =>
    Text.signed negative (withPoint (shortest f significand exponent).text)

/-- The text of a double. -/
def doubleText (x : Float) : List Char := text .double (readDouble x)

/-- The text of a single. -/
def singleText (x : Float32) : List Char := text .single (readSingle x)

end Scriptlet.Floating
