/-!
# Operators

The binary operators with their precedence and associativity, and the two prefix operators.
-/
namespace Scriptlet

inductive Operator where
  | add
  | sub
  | mul
  | div
  | rem
  | pow
  | bitAnd
  | bitOr
  | bitXor
  | shl
  | shr
  | ushr
  | eq
  | neq
  | lt
  | gt
  | le
  | ge
  | and
  | or
  deriving DecidableEq, Repr

namespace Operator

/-- All operators, in order of declaration. -/
def all : List Operator :=
  [.add, .sub, .mul, .div, .rem, .pow, .bitAnd, .bitOr, .bitXor, .shl, .shr, .ushr, .eq, .neq,
   .lt, .gt, .le, .ge, .and, .or]

theorem mem_all (op : Operator) : op ∈ all := by cases op <;> simp [all]

def isArithmetic : Operator → Bool
  | .add | .sub | .mul | .div | .rem | .pow => true
  | _ => false

def isEquality : Operator → Bool
  | .eq | .neq => true
  | _ => false

/-- Binding strength; a higher one binds tighter. -/
def precedence : Operator → Nat
  | .or => 1
  | .and => 2
  | .bitOr => 3
  | .bitXor => 4
  | .bitAnd => 5
  | .eq | .neq => 6
  | .lt | .gt | .le | .ge => 7
  | .shl | .shr | .ushr => 8
  | .add | .sub => 9
  | .mul | .div | .rem => 10
  | .pow => 11

def isRightAssociative : Operator → Bool
  | .pow => true
  | _ => false

def symbol : Operator → String
  | .add => "+"
  | .sub => "-"
  | .mul => "*"
  | .div => "/"
  | .rem => "%"
  | .pow => "**"
  | .bitAnd => "&"
  | .bitOr => "|"
  | .bitXor => "^"
  | .shl => "<<"
  | .shr => ">>"
  | .ushr => ">>>"
  | .eq => "=="
  | .neq => "!="
  | .lt => "<"
  | .gt => ">"
  | .le => "<="
  | .ge => ">="
  | .and => "&&"
  | .or => "||"

/-- The operator `top`, which stands to the left of `next`, takes the operand between them. -/
def reducesBefore (top next : Operator) : Bool :=
  next.precedence < top.precedence ||
    (top.precedence == next.precedence && !next.isRightAssociative)

end Operator

/-- The prefix operators. -/
inductive UnaryOp where
  | neg
  | not
  deriving DecidableEq, Repr

def UnaryOp.symbol : UnaryOp → String
  | .neg => "-"
  | .not => "!"

end Scriptlet
