import Scriptlet.Conversion.Registry

/-!
# Host classes at hand

Two kinds of host objects, and conversion handlers that make them. A date is a number of days
and equal to a date of the same number; a token is a text and equal only to itself.
-/
namespace Scriptlet.Host

/-- A date of a class. -/
def date (c : ClassType) (days : Int) : Value :=
  .object ⟨c, .content days, String.ofList ('@' :: Text.integer days)⟩

/-- A token of a class. -/
def token (c : ClassType) (identity : Identity) (text : String) : Value :=
  .object ⟨c, identity, text⟩

/-- The days of a date that is written as `@` and a 64-bit integer. -/
def readDate? : List Char → Option Int
  | '@' :: digits => ((Text.readInt? digits).bind Value.fitInt64?).map Int64.toInt
  | _ => none

/-- The days that a value stands for. -/
def days? : Value → Option Int
  | .string s => readDate? s.toList
  | v => v.toInt64?.map Int64.toInt

/-- The date of a value as a conversion. -/
def toDate (v : Value) (target : Ty) : Conversion.Result :=
  match days? v, target with
  | some days, .hostClass c => .ok (date c days)
  | _, _ => .error (Conversion.unsupported v target)

/-- The token of a value as a conversion. -/
def toToken (v : Value) (target : Ty) : Conversion.Result :=
  match target with
  | .hostClass c => .ok (token c .fresh v.display)
  | _ => .error (Conversion.unsupported v target)

/-- Dates from strings and from integral numbers. -/
def dateHandler : ConversionHandler := ⟨fun t => t == .string || t.isIntegral, toDate⟩

/-- Dates from strings. -/
def dateTextHandler : ConversionHandler := ⟨(· == .string), toDate⟩

/-- Dates from integral numbers. -/
def dateNumberHandler : ConversionHandler := ⟨Ty.isIntegral, toDate⟩

/-- Tokens from numbers. -/
def tokenHandler : ConversionHandler := ⟨Ty.isNumber, toToken⟩

/-- Accepts everything and converts nothing. -/
def failingHandler : ConversionHandler :=
  ⟨fun _ => true, fun v target => .error (Conversion.outOfRange v target)⟩

end Scriptlet.Host
