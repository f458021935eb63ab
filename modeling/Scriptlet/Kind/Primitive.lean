/-!
# Primitive kinds

The kinds of values that have both a primitive and a boxed type.
-/
namespace Scriptlet

inductive Primitive where
  | boolean
  | char
  | byte
  | short
  | int
  | long
  | float
  | double
  deriving DecidableEq, Repr

namespace Primitive

/-- All kinds, in order of declaration. -/
def all : List Primitive := [.boolean, .char, .byte, .short, .int, .long, .float, .double]

theorem mem_all (p : Primitive) : p ∈ all := by cases p <;> simp [all]

def isNumeric (p : Primitive) : Bool := p ≠ .boolean && p ≠ .char

/-- The kinds a kind widens to, itself apart. -/
def wider : Primitive → List Primitive
  | .byte => [.short, .int, .long, .float, .double]
  | .short => [.int, .long, .float, .double]
  | .char => [.int, .long, .float, .double]
  | .int => [.long, .float, .double]
  | .long => [.float, .double]
  | .float => [.double]
  | .double => []
  | .boolean => []

/-- Widening: `byte`, `short`, `int`, `long`, `float`, `double` in this order, and `char` to
`int`. -/
def widensTo (source target : Primitive) : Bool :=
  source == target || source.wider.contains target

/-- The name of the primitive type. -/
def name : Primitive → String
  | .boolean => "boolean"
  | .char => "char"
  | .byte => "byte"
  | .short => "short"
  | .int => "int"
  | .long => "long"
  | .float => "float"
  | .double => "double"

/-- The name of the boxed type. -/
def boxedName : Primitive → String
  | .boolean => "Boolean"
  | .char => "Character"
  | .byte => "Byte"
  | .short => "Short"
  | .int => "Integer"
  | .long => "Long"
  | .float => "Float"
  | .double => "Double"

theorem widensTo_refl (p : Primitive) : p.widensTo p = true := by
  cases p <;> rfl

theorem widensTo_trans {p q r : Primitive} (h : p.widensTo q = true) (k : q.widensTo r = true) :
    p.widensTo r = true := by
  revert h k
  cases p <;> cases q <;> cases r <;> decide

end Primitive

end Scriptlet
