import Scriptlet.Kind.Primitive
import Scriptlet.Kind.ClassType

/-!
# Static types

The types that nodes and inputs have. A primitive type and its boxed form have the same values,
apart from null.
-/
namespace Scriptlet

inductive Ty where
  | primitive (kind : Primitive)
  | boxed (kind : Primitive)
  | bigInteger
  | bigDecimal
  | string
  /-- The type of the null literal. -/
  | null
  /-- The universal type, also of what is not known before evaluation. -/
  | any
  | hostClass (c : ClassType)
  deriving DecidableEq, Repr

namespace Ty

instance : Inhabited Ty := ⟨.null⟩

def isPrimitive : Ty → Bool
  | .primitive _ => true
  | _ => false

/-- The kind of a primitive or boxed type. -/
def kind? : Ty → Option Primitive
  | .primitive p | .boxed p => some p
  | _ => none

/-- The boxed form of a primitive type; any other type is itself. -/
def box : Ty → Ty
  | .primitive p => .boxed p
  | t => t

/-- The numeric kinds and the big numbers. -/
def isNumber : Ty → Bool
  | .primitive p | .boxed p => p.isNumeric
  | .bigInteger | .bigDecimal => true
  | _ => false

/-- `short`, `int`, `long` and the big integers. -/
def isIntegral : Ty → Bool
  | .primitive p | .boxed p => p == .short || p == .int || p == .long
  | .bigInteger => true
  | _ => false

/-- `float`, `double` and the big decimals. -/
def isFloating : Ty → Bool
  | .primitive p | .boxed p => p == .float || p == .double
  | .bigDecimal => true
  | _ => false

def isBoolean (t : Ty) : Bool := t.kind? == some .boolean

def isChar (t : Ty) : Bool := t.kind? == some .char

/-- Between two different types: a value of type `source` may stand for `target`. -/
def widensFrom : Ty → Ty → Bool
  | .any, source => !source.isPrimitive
  | .primitive target, .primitive source => source.widensTo target
  | .primitive target, .boxed source => target == source
  | .boxed target, .primitive source => target == source
  | .hostClass target, .hostClass source => target.isAncestorOf source
  | _, _ => false

/-- A value of type `source` can be used where `target` is expected, without conversion. -/
def assignableFrom (target source : Ty) : Bool :=
  target == source || target.widensFrom source

def display : Ty → String
  | .primitive p => p.name
  | .boxed p => p.boxedName
  | .bigInteger => "BigInteger"
  | .bigDecimal => "BigDecimal"
  | .string => "String"
  | .null => "null"
  | .any => "Object"
  | .hostClass c => c.name

/-- The class that a type is. -/
def hostClass? : Ty → Option ClassType
  | .hostClass c => some c
  | _ => none

theorem assignableFrom_refl (t : Ty) : t.assignableFrom t = true := by
  simp [assignableFrom]

@[simp] theorem isPrimitive_box (t : Ty) : t.box.isPrimitive = false := by
  cases t <;> rfl

@[simp] theorem box_box (t : Ty) : t.box.box = t.box := by
  cases t <;> rfl

@[simp] theorem kind?_box (t : Ty) : t.box.kind? = t.kind? := by
  cases t <;> rfl

end Ty

namespace ClassTable

/-- The type of a declared name. -/
def type? (table : ClassTable) (name : String) : Option Ty :=
  (table.find? name).map .hostClass

/-- Declares a class below a parent type. A parent that is no class is ignored. -/
def declareType (table : ClassTable) (name : String) (parent : Option Ty) : Ty × ClassTable :=
  let (c, table) := table.declare name (parent.bind Ty.hostClass?)
  (.hostClass c, table)

end ClassTable

end Scriptlet
