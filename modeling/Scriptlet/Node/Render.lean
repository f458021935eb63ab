import Scriptlet.Node.Arena
import Scriptlet.Text.Quoted
import Scriptlet.Value.Display

/-!
# Rendering nodes

The text of a tree of nodes with parentheses around every binary operation and nowhere else.
-/
namespace Scriptlet

/-- A literal as it is rendered: strings are quoted. -/
def Value.renderChars : Value → List Char
  | .string s => Text.Quoted.encode s.toList
  | v => v.displayChars

namespace Arena

/-- The text of a tree of at most the given height. -/
def renderWithin (a : Arena) : Nat → NodeId → List Char
  | 0, _ => "<invalid>".toList
  | height + 1, id =>
    match a.node? id with
    | none => "<invalid>".toList
    | some (.literal value _) => value.renderChars
    | some (.variable name _) => name.toList
    | some (.group inner) => a.renderWithin height inner
    | some (.unary op operand _) => op.symbol.toList ++ a.renderWithin height operand
    | some (.assign name value _) =>
      name.toList ++ " = ".toList ++ a.renderWithin height value
    | some (.binary b) =>
      '(' :: a.renderWithin height b.left ++ ' ' :: b.op.symbol.toList ++
        ' ' :: a.renderWithin height b.right ++ [')']

/-- The text of the tree under a node. -/
def render (a : Arena) (id : NodeId) : String := String.ofList (a.renderWithin (a.size + 1) id)

end Arena

end Scriptlet
