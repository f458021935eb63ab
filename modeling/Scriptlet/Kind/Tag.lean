import Scriptlet.Kind.Ty

/-!
# Tags

A tag is the kind of a value as the operators see it: a primitive type and its boxed form share
one, and every host class has the tag of objects. `widen` gives the tag that two numeric
operands are promoted to.
-/
namespace Scriptlet

inductive Tag where
  | null
  | object
  | string
  | boolean
  | char
  | byte
  | short
  | int
  | long
  | float
  | double
  | bigInteger
  | bigDecimal
  deriving DecidableEq, Repr

namespace Tag

/-- All tags, in order of declaration. -/
def all : List Tag :=
  [.null, .object, .string, .boolean, .char, .byte, .short, .int, .long, .float, .double,
   .bigInteger, .bigDecimal]

theorem mem_all (t : Tag) : t ∈ all := by cases t <;> simp [all]

def ofPrimitive : Primitive → Tag
  | .boolean => .boolean
  | .char => .char
  | .byte => .byte
  | .short => .short
  | .int => .int
  | .long => .long
  | .float => .float
  | .double => .double

/-- The tag of the values of a type. -/
def ofTy : Ty → Tag
  | .primitive p | .boxed p => ofPrimitive p
  | .bigInteger => .bigInteger
  | .bigDecimal => .bigDecimal
  | .string => .string
  | .null => .null
  | .any | .hostClass _ => .object

/-- The type of a tag; primitive kinds are boxed. -/
def toTy : Tag → Ty
  | .null => .null
  | .object => .any
  | .string => .string
  | .boolean => .boxed .boolean
  | .char => .boxed .char
  | .byte => .boxed .byte
  | .short => .boxed .short
  | .int => .boxed .int
  | .long => .boxed .long
  | .float => .boxed .float
  | .double => .boxed .double
  | .bigInteger => .bigInteger
  | .bigDecimal => .bigDecimal

/-- Takes part in numeric promotion; a character counts as its code point. -/
def isNumeric : Tag → Bool
  | .null | .object | .string | .boolean => false
  | _ => true

def isIntegral : Tag → Bool
  | .char | .byte | .short | .int | .long | .bigInteger => true
  | _ => false

def isFloating : Tag → Bool
  | .float | .double => true
  | _ => false

/-- The tag that two numeric tags are promoted to. -/
def widenNumeric (left right : Tag) : Tag :=
  let either (t : Tag) : Bool := left == t || right == t
  if either .bigDecimal then .bigDecimal
  else if either .bigInteger then
    if left.isFloating || right.isFloating then .bigDecimal else .bigInteger
  else if either .double then .double
  else if either .float then .float
  else if either .long then .long
  else if either .int || either .char then .int
  else if either .short then .short
  else .byte

/-- The tag both operands of an arithmetic operation are promoted to; none unless both are
numeric. -/
def widen (left right : Tag) : Option Tag :=
  if left.isNumeric && right.isNumeric then some (widenNumeric left right) else none

def display : Tag → String
  | .null => "null"
  | .object => "object"
  | .string => "string"
  | .boolean => "boolean"
  | .char => "char"
  | .byte => "byte"
  | .short => "short"
  | .int => "int"
  | .long => "long"
  | .float => "float"
  | .double => "double"
  | .bigInteger => "big integer"
  | .bigDecimal => "big decimal"

theorem ofTy_toTy (t : Tag) : ofTy t.toTy = t := by cases t <;> rfl

theorem widen_comm (left right : Tag) : widen left right = widen right left := by
  cases left <;> cases right <;> rfl

/-- The tag to dispatch an operand on, when it is known before evaluation: nulls and objects
tell nothing. -/
def known? : Tag → Option Tag
  | .null | .object => none
  | t => some t

/-- The tag that a static type promises for an operand; the universal type promises none. -/
def ofOperandTy : Ty → Tag
  | .any => .null
  | t => ofTy t

end Tag

/-- The tag of an operand as a node stores it; `none` is taken from each value. -/
abbrev OperandTag := Option Tag

namespace OperandTag

/-- The operand tag of a static type. -/
def ofTy (t : Ty) : OperandTag := (Tag.ofOperandTy t).known?

end OperandTag

end Scriptlet
