import Scriptlet.Grammar.Token

/-!
# Syntax trees

A program is a list of statements, a statement an expression or an assignment, an expression a
chain of operands joined by operators. Precedence plays no part here: a chain is flat.
-/
namespace Scriptlet.Grammar

/-- A prefix operator with its range. -/
structure Sign where
  op : UnaryOp
  span : Span
  deriving DecidableEq, Repr

mutual

/-- An operand without its signs. -/
inductive Primary where
  | leaf (l : Leaf) (span : Span)
  | group (inner : Expression) (span : Span)

/-- A primary after its signs, the outermost first. -/
inductive Operand where
  | mk (signs : List Sign) (primary : Primary)

/-- The operators of a chain, each with the operand after it. -/
inductive Links where
  | nil
  | cons (op : Operator) (span : Span) (operand : Operand) (rest : Links)

/-- A chain of operands. -/
inductive Expression where
  | mk (first : Operand) (links : Links) (span : Span)

end

inductive Statement where
  | expression (e : Expression)
  | assignment (name : List Char) (nameSpan : Span) (value : Expression)

/-- The statements of a source and the number of its bytes. -/
structure Script where
  statements : List Statement
  size : Nat

def Primary.span : Primary → Span
  | .leaf _ span => span
  | .group _ span => span

/-- From the first sign to the end of the primary. -/
def Operand.span : Operand → Span
  | .mk [] primary => primary.span
  | .mk (sign :: _) primary => Span.combine sign.span primary.span

def Expression.span : Expression → Span
  | .mk _ _ span => span

/-- From the name to the end of the value. -/
def Statement.span : Statement → Span
  | .expression e => e.span
  | .assignment _ nameSpan value => Span.combine nameSpan value.span

/-- The end of the last operand of a chain that ends at `stop` without links. -/
def Links.stop (stop : Nat) : Links → Nat
  | .nil => stop
  | .cons _ _ operand rest => rest.stop operand.span.stop

end Scriptlet.Grammar
