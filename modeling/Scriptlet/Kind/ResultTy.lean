import Scriptlet.Kind.Operator
import Scriptlet.Kind.Tag

/-!
# Result types

The static type of a binary operation from the static types of its operands.
-/
namespace Scriptlet

namespace Ty

/-- The type of an arithmetic result: the operand type that has the promoted tag, or else the
type of that tag. Of operands that do not promote, a number on the right wins. -/
def arithmeticResult (left right : Ty) : Ty :=
  if left = .any ∨ right = .any then .any
  else
    match Tag.widen (Tag.ofTy left) (Tag.ofTy right) with
    | some tag =>
      if tag = Tag.ofTy left then left
      else if tag = Tag.ofTy right then right
      else tag.toTy
    | none => if right.isNumber && !left.isNumber then right else left

/-- The type of a bitwise result: boolean for booleans, otherwise `long` or `int`. -/
def bitwiseResult (left right : Ty) : Ty :=
  if left.isBoolean && right.isBoolean then .primitive .boolean
  else if left.kind? = some .long ∨ right.kind? = some .long then .primitive .long
  else .primitive .int

end Ty

/-- The type of `left op right`. A string operand makes a sum a string. -/
def Operator.resultTy (op : Operator) (left right : Ty) : Ty :=
  match op with
  | .eq | .neq | .lt | .gt | .le | .ge | .and | .or => .primitive .boolean
  | .add =>
    if left = .string ∨ right = .string then .string else Ty.arithmeticResult left right
  | .sub | .mul | .div | .rem | .pow => Ty.arithmeticResult left right
  | .bitAnd | .bitOr | .bitXor | .shl | .shr | .ushr => Ty.bitwiseResult left right

end Scriptlet
