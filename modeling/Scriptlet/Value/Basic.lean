import Scriptlet.Decimal.Basic
import Scriptlet.Kind.Tag

/-!
# Values

The values of the language: null, the eight primitive kinds, big integers, decimals, strings
and objects of the host. Objects can be shown and compared, nothing else.
-/
namespace Scriptlet

/-- What tells two host objects of one class apart. -/
inductive Identity where
  /-- Objects with equal content are equal. -/
  | content (n : Int)
  /-- An object that the host handed in; copies of it are the same object. -/
  | given (n : Nat)
  /-- The object that a node of a program holds. -/
  | held (n : Nat)
  /-- An object just made by a conversion; nothing else is equal to it. -/
  | fresh
  deriving DecidableEq, Repr

namespace Identity

/-- Sameness of objects; an object just made is not even compared with itself. -/
def same : Identity → Identity → Bool
  | .content m, .content n => m == n
  | .given m, .given n => m == n
  | .held m, .held n => m == n
  | _, _ => false

theorem same_comm (a b : Identity) : a.same b = b.same a := by
  cases a <;> cases b <;> simp [same, BEq.comm]

end Identity

/-- An instance of a host class. -/
structure HostObject where
  hostClass : ClassType
  identity : Identity
  /-- How the object is shown. -/
  text : String
  deriving DecidableEq, Repr

/-- Objects are equal if their classes have one name and they are the same. -/
def HostObject.equals (a b : HostObject) : Bool :=
  a.hostClass.name == b.hostClass.name && a.identity.same b.identity

theorem HostObject.equals_comm (a b : HostObject) : a.equals b = b.equals a := by
  simp [HostObject.equals, Identity.same_comm a.identity, BEq.comm (a := a.hostClass.name)]

inductive Value where
  | null
  | boolean (b : Bool)
  | char (c : Char)
  | byte (n : Int8)
  | short (n : Int16)
  | int (n : Int32)
  | long (n : Int64)
  | float (x : Float32)
  | double (x : Float)
  | bigInteger (n : Int)
  | bigDecimal (d : Decimal)
  | string (s : String)
  | object (o : HostObject)
  deriving Inhabited

namespace Value

def isNull : Value → Bool
  | .null => true
  | _ => false

/-- The boxed type of a value. -/
def ty : Value → Ty
  | .null => .null
  | .boolean _ => .boxed .boolean
  | .char _ => .boxed .char
  | .byte _ => .boxed .byte
  | .short _ => .boxed .short
  | .int _ => .boxed .int
  | .long _ => .boxed .long
  | .float _ => .boxed .float
  | .double _ => .boxed .double
  | .bigInteger _ => .bigInteger
  | .bigDecimal _ => .bigDecimal
  | .string _ => .string
  | .object o => .hostClass o.hostClass

def tag : Value → Tag
  | .null => .null
  | .boolean _ => .boolean
  | .char _ => .char
  | .byte _ => .byte
  | .short _ => .short
  | .int _ => .int
  | .long _ => .long
  | .float _ => .float
  | .double _ => .double
  | .bigInteger _ => .bigInteger
  | .bigDecimal _ => .bigDecimal
  | .string _ => .string
  | .object _ => .object

theorem tag_eq_ofTy (v : Value) : v.tag = Tag.ofTy v.ty := by cases v <;> rfl

theorem isNull_iff_tag (v : Value) : v.isNull = true ↔ v.tag = .null := by
  cases v <;> simp [isNull, tag]

/-- Equality of values of one kind. Numbers of different kinds are not equal here; decimals are
compared by value, floating numbers in the usual way. -/
def equals : Value → Value → Bool
  | .null, .null => true
  | .boolean a, .boolean b => a == b
  | .char a, .char b => a == b
  | .byte a, .byte b => a == b
  | .short a, .short b => a == b
  | .int a, .int b => a == b
  | .long a, .long b => a == b
  | .float a, .float b => a == b
  | .double a, .double b => a == b
  | .bigInteger a, .bigInteger b => a == b
  | .bigDecimal a, .bigDecimal b => a.equals b
  | .string a, .string b => a == b
  | .object a, .object b => a.equals b
  | _, _ => false

end Value

namespace OperandTag

/-- The tag to dispatch an operand value on. -/
def resolve (t : OperandTag) (v : Value) : Tag := t.getD v.tag

@[simp] theorem resolve_none (v : Value) : resolve none v = v.tag := rfl

@[simp] theorem resolve_some (t : Tag) (v : Value) : resolve (some t) v = t := rfl

end OperandTag

end Scriptlet
