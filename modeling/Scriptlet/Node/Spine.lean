import Scriptlet.Node.BuildError

/-!
# The right spine

The right spine of a binary operation runs along right operands as long as they are binary
operations too. Its last node can be given another right operand.
-/
namespace Scriptlet.Arena

/-- The last node of the right spine, at most `length` steps away. -/
def rightMostWithin (a : Arena) : Nat → NodeId → NodeId
  | 0, id => id
  | length + 1, id =>
    match a.binary? id with
    | some b => if (a.binary? b.right).isSome then a.rightMostWithin length b.right else id
    | none => id

/-- The last node of the right spine of a binary operation. -/
def rightMost (a : Arena) (root : NodeId) : Except BuildError NodeId :=
  if (a.binary? root).isSome then .ok (a.rightMostWithin a.size root)
  else .error (.notBinary root)

/-- Gives a binary operation another right operand, and the tag of its type. -/
def replaceRight (a : Arena) (parent node : NodeId) : Except BuildError Arena :=
  match a.binary? parent with
  | none => .error (.notBinary parent)
  | some b =>
    if (a.node? node).isNone then .error (.missingOperand .right b.op)
    else
      .ok (a.setNode parent
        (.binary { b with right := node, rightTag := OperandTag.ofTy (a.egress node) }))

/-- Gives the last node of the right spine another right operand; answers with that last node. -/
def setRightMost (a : Arena) (root node : NodeId) : Except BuildError (NodeId × Arena) :=
  match a.rightMost root with
  | .error e => .error e
  | .ok target =>
    match a.replaceRight target node with
    | .error e => .error e
    | .ok a => .ok (target, a)

end Scriptlet.Arena
