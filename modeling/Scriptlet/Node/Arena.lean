import Scriptlet.Kind.Operator
import Scriptlet.Source.Location
import Scriptlet.Source.Span
import Scriptlet.Value.Basic

/-!
# The node arena

The nodes of a program live in one arena and refer to each other by their index in it. Beside a
node stand its span and, where a debugger may stop, its location.
-/
namespace Scriptlet

/-- The index of a node in its arena. -/
structure NodeId where
  index : Nat
  deriving DecidableEq, Repr, Inhabited

namespace NodeId

/-- The index that stands for no node. -/
def invalid : NodeId := ⟨2 ^ 32 - 1⟩

def display (id : NodeId) : String := "NodeId(" ++ String.ofList (Nat.toDigits 10 id.index) ++ ")"

end NodeId

/-- A binary operation with what is known of its types. -/
structure BinaryNode where
  op : Operator
  left : NodeId
  right : NodeId
  /-- The type of its values. -/
  egress : Ty
  leftTag : OperandTag
  rightTag : OperandTag
  deriving DecidableEq, Repr

inductive Node where
  | literal (value : Value) (ty : Ty)
  | variable (name : String) (ty : Ty)
  /-- An expression in parentheses. -/
  | group (inner : NodeId)
  | unary (op : UnaryOp) (operand : NodeId) (ty : Ty)
  | assign (name : String) (value : NodeId) (ty : Ty)
  | binary (b : BinaryNode)
  deriving Inhabited

/-- The operands of a node, in the order of evaluation. -/
def Node.operands : Node → List NodeId
  | .literal .. | .variable .. => []
  | .group inner => [inner]
  | .unary _ operand _ => [operand]
  | .assign _ value _ => [value]
  | .binary b => [b.left, b.right]

/-- A node with what stands beside it. -/
structure Cell where
  node : Node
  span : Option Span
  location : Option Location
  deriving Inhabited

/-- The nodes of a program in order of their construction. -/
structure Arena where
  cells : Array Cell
  deriving Inhabited

namespace Arena

def empty : Arena := ⟨#[]⟩

/-- The number of nodes. -/
def size (a : Arena) : Nat := a.cells.size

def isEmpty (a : Arena) : Bool := a.cells.isEmpty

def cell? (a : Arena) (id : NodeId) : Option Cell := a.cells[id.index]?

def node? (a : Arena) (id : NodeId) : Option Node := (a.cell? id).map (·.node)

def span? (a : Arena) (id : NodeId) : Option Span := (a.cell? id).bind (·.span)

def location? (a : Arena) (id : NodeId) : Option Location := (a.cell? id).bind (·.location)

/-- Appends a node; its id is the number of the nodes before it. -/
def push (a : Arena) (node : Node) (span : Option Span) : NodeId × Arena :=
  (⟨a.size⟩, ⟨a.cells.push ⟨node, span, none⟩⟩)

/-- Changes the cell of a node, if there is one. -/
def modify (a : Arena) (id : NodeId) (change : Cell → Cell) : Arena :=
  ⟨a.cells.modify id.index change⟩

def setLocation (a : Arena) (id : NodeId) (l : Location) : Arena :=
  a.modify id fun c => { c with location := some l }

def setNode (a : Arena) (id : NodeId) (node : Node) : Arena :=
  a.modify id fun c => { c with node := node }

/-- The binary operation at an id. -/
def binary? (a : Arena) (id : NodeId) : Option BinaryNode :=
  match a.node? id with
  | some (.binary b) => some b
  | _ => none

/-- Only literal nodes are literals, not operations on literals. -/
def isLiteral (a : Arena) (id : NodeId) : Bool :=
  match a.node? id with
  | some (.literal ..) => true
  | _ => false

/-- The static type of a node behind at most `depth` groups. -/
def egressWithin (a : Arena) : Nat → NodeId → Ty
  | 0, _ => .null
  | depth + 1, id =>
    match a.node? id with
    | some (.literal _ ty) | some (.variable _ ty) | some (.unary _ _ ty)
    | some (.assign _ _ ty) => ty
    | some (.group inner) => a.egressWithin depth inner
    | some (.binary b) => b.egress
    | none => .null

/-- The static type of a node. A group has the type of what is in it. -/
def egress (a : Arena) (id : NodeId) : Ty := a.egressWithin a.size id

theorem size_push (a : Arena) (node : Node) (span : Option Span) :
    (a.push node span).2.size = a.size + 1 := by
  simp [push, size]

theorem cell?_push (a : Arena) (node : Node) (span : Option Span) (id : NodeId) :
    (a.push node span).2.cell? id =
      if id = (a.push node span).1 then some ⟨node, span, none⟩ else a.cell? id := by
  obtain ⟨i⟩ := id
  simp [push, cell?, size, Array.getElem?_push]

/-- Nodes keep their cells when another one is appended. -/
theorem cell?_push_of_lt (a : Arena) (node : Node) (span : Option Span) {id : NodeId}
    (h : id.index < a.size) : (a.push node span).2.cell? id = a.cell? id := by
  rw [cell?_push, if_neg]
  intro he
  rw [he] at h
  exact Nat.lt_irrefl _ h

end Arena

end Scriptlet
