import Scriptlet.Conversion.Equality
import Scriptlet.Conversion.Registry
import Scriptlet.Kind.ResultTy
import Scriptlet.Node.BuildError

/-!
# Building binary operations

A binary operation gets its type and, as far as they are known, the tags of its operands. Under
strong typing its operands must fit together, and a literal on the right may be replaced by its
conversion.
-/
namespace Scriptlet

/-- What building a node depends on. -/
structure BuildContext where
  strongTyping : Bool
  conversions : ConversionRegistry
  equality : EqualityStrategy
  /-- The source that spans point into. -/
  source : List Char
  file : Option String

namespace BuildContext

/-- The name of the source in locations. -/
def fileName (ctx : BuildContext) : String := ctx.file.getD Location.unknownFile

/-- Where a span starts. -/
def locate (ctx : BuildContext) (s : Span) : Location :=
  Location.ofOffset ctx.fileName ctx.source s.start

end BuildContext

namespace Ty

/-- The two types can meet under an operator without conversion. -/
def compatible (r : ConversionRegistry) (left right : Ty) : Bool :=
  left == .null || right == .null || (left.isNumber && right.isNumber) ||
    ((left.isPrimitive || right.isPrimitive) && r.canConvert left.box right.box)

end Ty

/-- An object just made becomes the object that the node holds. -/
def Value.heldBy (id : NodeId) : Value → Value
  | .object o =>
    .object (if o.identity = .fresh then { o with identity := .held id.index } else o)
  | v => v

namespace Arena

/-- A node was built, or the arena is as before. -/
abbrev Built := Except BuildError (NodeId × Arena)

/-- From the start of the left operand to the end of the right one. -/
def joinedSpan (a : Arena) (left right : NodeId) : Option Span :=
  match a.span? left, a.span? right with
  | some l, some r => some (l.combine r)
  | l, r => l.or r

/-- What the type of an operand promises: literals only. -/
def literalTag (a : Arena) (id : NodeId) (egress : Ty) : OperandTag :=
  if a.isLiteral id then OperandTag.ofTy egress else none

/-- Appends the conversion of a literal as a new literal with the span of the old one. -/
def convertLiteral (a : Arena) (r : ConversionRegistry) (id : NodeId) (target : Ty) : Built :=
  match a.node? id with
  | some (.literal value _) =>
    match r.convert value target with
    | .ok v => .ok (a.push (.literal (v.heldBy ⟨a.size⟩) target) (a.span? id))
    | .error e => .error (.conversion e (a.span? id))
  | _ => .ok (id, a)

/-- What strong typing does to the right operand. -/
inductive RightOperand where
  | asIs
  /-- A literal, to be replaced by its conversion to the type. -/
  | converted (target : Ty)
  | rejected

/-- How the operand types fit together under strong typing. An integral number on the left is
left alone beside a floating one. -/
def rightOperand (a : Arena) (ctx : BuildContext) (op : Operator) (right : NodeId)
    (leftTy rightTy : Ty) : RightOperand :=
  if leftTy.assignableFrom rightTy || rightTy.assignableFrom leftTy then .asIs
  else if !(leftTy.isIntegral && rightTy.isFloating) && a.isLiteral right &&
      ctx.conversions.canConvert leftTy rightTy then
    .converted (if op.isArithmetic then op.resultTy leftTy rightTy else leftTy)
  else if Ty.compatible ctx.conversions leftTy rightTy ||
      (op.isEquality && ctx.equality.allows leftTy rightTy) then .asIs
  else .rejected

/-- The error of operands that do not fit together. -/
def incompatible (a : Arena) (ctx : BuildContext) (op : Operator) (left right : NodeId)
    (leftTy rightTy : Ty) : BuildError :=
  .incompatibleTypes op leftTy rightTy
    (((a.span? left).or (a.span? right)).map fun s => (s, ctx.locate s))

/-- Appends the operation; equal operand types are both known, others for literals only. -/
def pushBinary (a : Arena) (op : Operator) (left right : NodeId) (egress leftTy rightTy : Ty)
    (span : Option Span) : NodeId × Arena :=
  let tags :=
    if leftTy = rightTy then (OperandTag.ofTy leftTy, OperandTag.ofTy leftTy)
    else (a.literalTag left leftTy, a.literalTag right rightTy)
  a.push (.binary ⟨op, left, right, egress, tags.1, tags.2⟩) span

/-- Appends an operation on two nodes that exist. -/
def joinBinary (a : Arena) (ctx : BuildContext) (op : Operator) (left right : NodeId) : Built :=
  let leftTy := a.egress left
  let rightTy := a.egress right
  let span := a.joinedSpan left right
  let egress := op.resultTy leftTy rightTy
  if op = .add ∧ (leftTy = .string ∨ rightTy = .string) then
    .ok (a.push (.binary
      ⟨op, left, right, .string, OperandTag.ofTy leftTy, OperandTag.ofTy rightTy⟩) span)
  else if ctx.strongTyping then
    match a.rightOperand ctx op right leftTy rightTy with
    | .asIs => .ok (a.pushBinary op left right egress leftTy rightTy span)
    | .converted target =>
      match a.convertLiteral ctx.conversions right target with
      | .ok (converted, a) => .ok (a.pushBinary op left converted egress leftTy target span)
      | .error e => .error e
    | .rejected => .error (a.incompatible ctx op left right leftTy rightTy)
  else .ok (a.pushBinary op left right egress leftTy rightTy span)

/-- Appends the operation `left op right`. -/
def buildBinary (a : Arena) (ctx : BuildContext) (op : Operator) (left right : NodeId) : Built :=
  if (a.node? left).isNone then .error (.missingOperand .left op)
  else if (a.node? right).isNone then .error (.missingOperand .right op)
  else a.joinBinary ctx op left right

end Arena

end Scriptlet
