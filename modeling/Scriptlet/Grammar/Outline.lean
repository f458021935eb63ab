import Scriptlet.Grammar.Rule
import Scriptlet.Grammar.Tree

/-!
# Outlines

The outline of a script lists its parts in source order, outer ones first, each with its rule,
its depth and its range.
-/
namespace Scriptlet.Grammar

/-- A part of a script. -/
structure Row where
  depth : Nat
  rule : Rule
  span : Span
  deriving DecidableEq, Repr

/-- The rows of a leaf: a string has its body inside. -/
def Leaf.outline (depth : Nat) (span : Span) : Leaf → List Row
  | .null => [⟨depth, .null, span⟩]
  | .boolean _ => [⟨depth, .boolean, span⟩]
  | .number _ => [⟨depth, .number, span⟩]
  | .string quote _ =>
    let body := if quote = '"' then .doubleQuoted else .singleQuoted
    [⟨depth, .string, span⟩, ⟨depth + 1, body, ⟨span.start + 1, span.stop - 1⟩⟩]
  | .ident _ => [⟨depth, .ident, span⟩]

/-- The row of a sign. -/
def Sign.row (depth : Nat) (s : Sign) : Row :=
  ⟨depth, match s.op with | .neg => .neg | .not => .not, s.span⟩

mutual

def Primary.outline (depth : Nat) : Primary → List Row
  | .leaf l span => l.outline depth span
  | .group inner span => ⟨depth, .grouped, span⟩ :: inner.outline (depth + 1)

def Operand.outline (depth : Nat) : Operand → List Row
  | .mk signs primary =>
    ⟨depth, .operand, (Operand.mk signs primary).span⟩ ::
      (signs.map (·.row (depth + 1)) ++ primary.outline (depth + 1))

def Links.outline (depth : Nat) : Links → List Row
  | .nil => []
  | .cons op span operand rest =>
    ⟨depth, .operator op, span⟩ :: (operand.outline depth ++ rest.outline depth)

def Expression.outline (depth : Nat) : Expression → List Row
  | .mk first links span =>
    ⟨depth, .expression, span⟩ :: (first.outline (depth + 1) ++ links.outline (depth + 1))

end

def Statement.outline (depth : Nat) : Statement → List Row
  | .expression e => e.outline depth
  | .assignment name nameSpan value =>
    ⟨depth, .assignment, (Statement.assignment name nameSpan value).span⟩ ::
      ⟨depth + 1, .ident, nameSpan⟩ :: value.outline (depth + 1)

/-- The rows of a script: the whole, its statements and its end. -/
def Script.outline (s : Script) : List Row :=
  ⟨0, .main, ⟨0, s.size⟩⟩ ::
    (s.statements.flatMap (·.outline 1) ++ [⟨1, .endOfInput, ⟨s.size, s.size⟩⟩])

end Scriptlet.Grammar
