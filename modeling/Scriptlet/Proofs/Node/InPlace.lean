import Scriptlet.Node.Spine
import Scriptlet.Proofs.Node.Surgery

/-!
# Construction in place

The operations on an arena that can fail, as programs that change one arena step by step. What such
a program has done when it throws stays done, so that a failure leaves the arena as it was has to be
shown: nothing is appended or changed before the last check.
-/
namespace Scriptlet

/-- A program on one arena, which is left as it is when the program throws. -/
abbrev InPlace := EStateM BuildError Arena

namespace InPlace

open EStateM (Result)

/-! ## Programs -/

/-- Appends a node. -/
def append (node : Node) (span : Option Span) : InPlace NodeId :=
  modifyGet fun a => a.push node span

/-- Appends the conversion of a literal as a new literal with the span of the old one. -/
def convertLiteral (r : ConversionRegistry) (id : NodeId) (target : Ty) : InPlace NodeId := do
  let a ← get
  match a.node? id with
  | some (.literal value _) =>
    match r.convert value target with
    | .ok v => append (.literal (v.heldBy ⟨a.size⟩) target) (a.span? id)
    | .error e => throw (.conversion e (a.span? id))
  | _ => return id

/-- The right operand and its type once the operands fit together. -/
def fitRight (ctx : BuildContext) (op : Operator) (left right : NodeId) (leftTy rightTy : Ty) :
    InPlace (NodeId × Ty) := do
  let a ← get
  if ctx.strongTyping then
    match a.rightOperand ctx op right leftTy rightTy with
    | .asIs => return (right, rightTy)
    | .converted target =>
      let converted ← convertLiteral ctx.conversions right target
      return (converted, target)
    | .rejected => throw (a.incompatible ctx op left right leftTy rightTy)
  else return (right, rightTy)

/-- Appends an operation on two nodes that exist. -/
def joinBinary (ctx : BuildContext) (op : Operator) (left right : NodeId) : InPlace NodeId := do
  let a ← get
  let leftTy := a.egress left
  let rightTy := a.egress right
  let span := a.joinedSpan left right
  if op = .add ∧ (leftTy = .string ∨ rightTy = .string) then
    append (.binary
      ⟨op, left, right, .string, OperandTag.ofTy leftTy, OperandTag.ofTy rightTy⟩) span
  else
    let (operand, operandTy) ← fitRight ctx op left right leftTy rightTy
    modifyGet fun a =>
      a.pushBinary op left operand (op.resultTy leftTy rightTy) leftTy operandTy span

/-- Appends the operation `left op right`. -/
def buildBinary (ctx : BuildContext) (op : Operator) (left right : NodeId) : InPlace NodeId := do
  if ((← get).node? left).isNone then throw (.missingOperand .left op)
  if ((← get).node? right).isNone then throw (.missingOperand .right op)
  joinBinary ctx op left right

/-- Gives a binary operation another right operand, and the tag of its type. -/
def replaceRight (parent node : NodeId) : InPlace Unit := do
  let a ← get
  match a.binary? parent with
  | none => throw (.notBinary parent)
  | some b =>
    if (a.node? node).isNone then throw (.missingOperand .right b.op)
    set (a.setNode parent
      (.binary { b with right := node, rightTag := OperandTag.ofTy (a.egress node) }))

/-- Gives the last node of the right spine another right operand; answers with that last node. -/
def setRightMost (root node : NodeId) : InPlace NodeId := do
  let target ← MonadExcept.ofExcept ((← get).rightMost root)
  replaceRight target node
  return target

/-- How a program ends on an arena, given what is built of it: after an error the arena is the one
before. -/
def ended {α : Type} (a : Arena) : Except BuildError (α × Arena) → Result BuildError Arena α
  | .ok (x, a') => .ok x a'
  | .error e => .error e a

@[simp] theorem run_throw {α : Type} (e : BuildError) (a : Arena) :
    (throw e : InPlace α).run a = .error e a := rfl

/-! ## The programs build what the definitions answer -/

/-- What `left op right` appends to an arena: the operation, or under strong typing, if there is a
literal on the right, another literal with its span and the operation on that one. -/
inductive Appended (a : Arena) (ctx : BuildContext) (op : Operator) (left right : NodeId) :
    NodeId → Arena → Prop
  | operation (egress : Ty) (leftTag rightTag : OperandTag) (span : Option Span) :
      Appended a ctx op left right ⟨a.size⟩
        ⟨a.cells.push ⟨.binary ⟨op, left, right, egress, leftTag, rightTag⟩, span, none⟩⟩
  | converted (value : Value) (ty egress : Ty) (leftTag rightTag : OperandTag)
      (span : Option Span) (strong : ctx.strongTyping = true)
      (literal : a.isLiteral right = true) :
      Appended a ctx op left right ⟨a.size + 1⟩
        ⟨(a.cells.push ⟨.literal value ty, a.span? right, none⟩).push
          ⟨.binary ⟨op, left, ⟨a.size⟩, egress, leftTag, rightTag⟩, span, none⟩⟩

section

variable {a a' : Arena} {ctx : BuildContext} {op : Operator} {left right id : NodeId}

theorem Appended.cell?_eq (h : Appended a ctx op left right id a') {x : NodeId}
    (old : x.index < a.size) : a'.cell? x = a.cell? x := by
  cases h with
  | operation => exact Arena.cell?_push_of_lt a _ _ old
  | converted value ty =>
    have older : x.index < (a.push (.literal value ty) (a.span? right)).2.size := by
      rw [Arena.size_push]
      omega
    exact (Arena.cell?_push_of_lt _ _ _ older).trans (Arena.cell?_push_of_lt a _ _ old)

end

end InPlace

end Scriptlet
