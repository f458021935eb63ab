import Scriptlet.Conversion.Error
import Scriptlet.Floating.Numeral
import Scriptlet.Text.Blank
import Scriptlet.Value.Display
import Scriptlet.Value.View

/-!
# Conversions between built-in types

Rules into the primitive kinds, the big numbers and strings. Integers are narrowed by dropping
high bits; floating numbers saturate.
-/
namespace Scriptlet.Conversion

/-- A conversion answers with a value or with the reason why there is none. -/
abbrev Result := Except ConversionError Value

def unsupported (v : Value) (target : Ty) : ConversionError := .unsupported v.ty target

def outOfRange (v : Value) (target : Ty) : ConversionError := .outOfRange v.display target

/-- A numeric source in one of the two machine representations. -/
inductive Number where
  | integral (n : Int64)
  | floating (x : Float)

/-- The number of a value on the way to a floating kind. -/
def floatingNumber? : Value → Option Number
  | .float x => some (.floating x.toFloat)
  | .double x => some (.floating x)
  | .bigDecimal d => some (.floating d.toDouble)
  | .bigInteger n => some (.floating (Floating.doubleOfInt n))
  | v => v.toInt64?.map .integral

/-- The number of a value on the way to an integral kind. -/
def integralNumber? : Value → Option Number
  | .float x => some (.floating x.toFloat)
  | .double x => some (.floating x)
  | .bigDecimal d => (Value.fitInt64? d.truncate).map .integral
  | v => v.toInt64?.map .integral

/-- The number that a string spells, blanks around it apart. -/
def spelledNumber? (floating : Bool) (text : List Char) : Option Number :=
  if floating then (Floating.readDouble? (Text.trim text)).map .floating
  else ((Text.readInt? (Text.trim text)).bind Value.fitInt64?).map .integral

/-- A floating kind. -/
def isFloatingKind (p : Primitive) : Bool := p == .float || p == .double

/-- The number as a value of a numeric kind. -/
def narrow : Number → Primitive → Value
  | .integral n, .byte => .byte n.toInt8
  | .integral n, .short => .short n.toInt16
  | .integral n, .long => .long n
  | .integral n, .float => .float n.toFloat32
  | .integral n, .double => .double (Floating.doubleOfInt n.toInt)
  | .integral n, _ => .int n.toInt32
  | .floating x, .byte => .byte x.toInt32.toInt8
  | .floating x, .short => .short x.toInt32.toInt16
  | .floating x, .long => .long x.toInt64
  | .floating x, .float => .float x.toFloat32
  | .floating x, .double => .double x
  | .floating x, _ => .int x.toInt32

/-- The text without regard to the case of ASCII letters. -/
def isNamed (name : String) (text : String) : Bool :=
  text.toList.map Char.toLower == name.toList

/-- Booleans, and the strings `true` and `false` in any case. -/
def toBoolean (v : Value) (target : Ty) : Result :=
  match v with
  | .boolean b => .ok (.boolean b)
  | .string s =>
    if isNamed "true" s then .ok (.boolean true)
    else if isNamed "false" s then .ok (.boolean false)
    else .error (.invalidLiteral s target)
  | _ => .error (unsupported v target)

/-- The character of a code point. -/
def charOfCode? (n : Int64) : Option Char :=
  if h : 0 ≤ n.toInt ∧ n.toInt.toNat.isValidChar then some (Char.ofNatAux n.toInt.toNat h.2)
  else none

/-- Characters, strings of one character, and code points. -/
def toChar (v : Value) (target : Ty) : Result :=
  match v with
  | .char c => .ok (.char c)
  | .string s =>
    match s.toList with
    | [c] => .ok (.char c)
    | _ => .error (.invalidLiteral s target)
  | _ =>
    match v.toInt64? with
    | none => .error (unsupported v target)
    | some code =>
      match charOfCode? code with
      | some c => .ok (.char c)
      | none => .error (outOfRange v target)

/-- Numbers, characters, and strings that spell a number. -/
def toNumeric (v : Value) (kind : Primitive) (target : Ty) : Result :=
  match v with
  | .string s =>
    match spelledNumber? (isFloatingKind kind) s.toList with
    | some n => .ok (narrow n kind)
    | none => .error (.invalidLiteral s target)
  | .boolean _ | .object _ | .null => .error (unsupported v target)
  | _ =>
    match if isFloatingKind kind then floatingNumber? v else integralNumber? v with
    | some n => .ok (narrow n kind)
    | none => .error (outOfRange v target)

/-- A value of a primitive kind. -/
def toPrimitive (v : Value) (kind : Primitive) (target : Ty) : Result :=
  match kind with
  | .boolean => toBoolean v target
  | .char => toChar v target
  | _ => toNumeric v kind target

/-- Numbers, characters, and strings that spell an integer. -/
def toBigInteger (v : Value) (target : Ty) : Result :=
  match v with
  | .string s =>
    match Text.readLoose? (Text.trim s.toList) with
    | some n => .ok (.bigInteger n)
    | none => .error (.invalidLiteral s target)
  | .boolean _ | .object _ => .error (unsupported v target)
  | _ =>
    match v.toInt? with
    | some n => .ok (.bigInteger n)
    | none => .error (outOfRange v target)

/-- Numbers, characters, and strings that spell a decimal. -/
def toBigDecimal (v : Value) (target : Ty) : Result :=
  match v with
  | .string s =>
    match Decimal.read? (Text.trim s.toList) with
    | some d => .ok (.bigDecimal d)
    | none => .error (.invalidLiteral s target)
  | .boolean _ | .object _ => .error (unsupported v target)
  | _ =>
    match v.toDecimal? with
    | some d => .ok (.bigDecimal d)
    | none => .error (outOfRange v target)

end Scriptlet.Conversion
