import Scriptlet.Kind.Operator

/-!
# Rules of the grammar

The names of the parts of a source, as outlines and error texts use them.
-/
namespace Scriptlet.Grammar

inductive Rule where
  | endOfInput
  | whitespace
  | comment
  | main
  | statement
  | assignment
  | expression
  | operand
  | prefixOp
  | not
  | neg
  | primary
  | grouped
  | binaryOp
  | operator (op : Operator)
  | literal
  | null
  | boolean
  | number
  | digits
  | suffix
  | string
  | doubleQuoted
  | singleQuoted
  | escape
  | keyword
  | ident
  | identChar
  deriving DecidableEq, Repr

namespace Rule

/-- The operators in the order in which the grammar tries them. -/
def operators : List Operator :=
  [.or, .and, .eq, .neq, .le, .ge, .ushr, .shr, .shl, .lt, .gt, .bitOr, .bitXor, .bitAnd, .add,
   .sub, .pow, .mul, .div, .rem]

/-- All rules in order of declaration. -/
def all : List Rule :=
  [.endOfInput, .whitespace, .comment, .main, .statement, .assignment, .expression, .operand,
   .prefixOp, .not, .neg, .primary, .grouped, .binaryOp] ++ operators.map .operator ++
  [.literal, .null, .boolean, .number, .digits, .suffix, .string, .doubleQuoted, .singleQuoted,
   .escape, .keyword, .ident, .identChar]

theorem mem_all (r : Rule) : r ∈ all := by
  cases r with
  | operator op => cases op <;> decide
  | _ => decide

def operatorName : Operator → String
  | .or => "or"
  | .and => "and"
  | .eq => "eq"
  | .neq => "neq"
  | .le => "le"
  | .ge => "ge"
  | .ushr => "ushr"
  | .shr => "shr"
  | .shl => "shl"
  | .lt => "lt"
  | .gt => "gt"
  | .bitOr => "bit_or"
  | .bitXor => "bit_xor"
  | .bitAnd => "bit_and"
  | .add => "add"
  | .sub => "sub"
  | .pow => "pow"
  | .mul => "mul"
  | .div => "div"
  | .rem => "rem"

def name : Rule → String
  | .endOfInput => "EOI"
  | .whitespace => "WHITESPACE"
  | .comment => "COMMENT"
  | .main => "main"
  | .statement => "statement"
  | .assignment => "assignment"
  | .expression => "expression"
  | .operand => "operand"
  | .prefixOp => "prefix_op"
  | .not => "not"
  | .neg => "neg"
  | .primary => "primary"
  | .grouped => "grouped"
  | .binaryOp => "binary_op"
  | .operator op => operatorName op
  | .literal => "literal"
  | .null => "null"
  | .boolean => "boolean"
  | .number => "number"
  | .digits => "digits"
  | .suffix => "suffix"
  | .string => "string"
  | .doubleQuoted => "dq_inner"
  | .singleQuoted => "sq_inner"
  | .escape => "escape"
  | .keyword => "keyword"
  | .ident => "ident"
  | .identChar => "ident_char"

/-- The rule of a name. -/
def ofName? (name : String) : Option Rule := all.find? (·.name == name)

/-- The operator of an operator rule. -/
def operator? : Rule → Option Operator
  | .operator op => some op
  | _ => none

/-- What an error text calls the part that a rule describes. -/
def concept : Rule → String
  | .number | .boolean | .string | .null => "literal"
  | .ident => "identifier"
  | .endOfInput => "end of input"
  | .operator _ => "operator"
  | _ => "expression"

/-- Drops what occurs before. -/
def distinct (names : List String) : List String :=
  names.foldl (fun seen name => if seen.contains name then seen else seen ++ [name]) []

/-- Names joined by commas, with `or` before the last one. -/
def enumerate : List String → String
  | [] => "something else"
  | [last] => last
  | first :: rest =>
    match rest.reverse with
    | [] => first
    | last :: middle => ", ".intercalate (first :: middle.reverse) ++ " or " ++ last

/-- The parts of which one was expected. -/
def describeExpected (rules : List Rule) : String := enumerate (distinct (rules.map concept))

/-- The part that was found. -/
def describeFound : List Rule → String
  | [] => "unexpected token"
  | rule :: _ => rule.concept

end Rule

end Scriptlet.Grammar
