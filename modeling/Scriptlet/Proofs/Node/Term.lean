import Scriptlet.Node.Render
import Scriptlet.Proofs.Node.Growth

/-!
# Terms

A term is what is left of a tree of nodes without its groups. What an operation knows of the tags
of its operands depends on groups, and is left out with them. A term has its type, and the text
that rendering gives to each tree that holds it.
-/
namespace Scriptlet

/-- An expression without groups. -/
inductive Term where
  | literal (value : Value) (ty : Ty)
  | reference (name : String) (ty : Ty)
  | unary (op : UnaryOp) (operand : Term) (ty : Ty)
  | binary (op : Operator) (left right : Term) (ty : Ty)

namespace Term

def ty : Term → Ty
  | literal _ ty | reference _ ty | unary _ _ ty | binary _ _ _ ty => ty

/-- The text of a term, with parentheses around every binary operation. -/
def chars : Term → List Char
  | literal value _ => value.renderChars
  | reference name _ => name.toList
  | unary op operand _ => op.symbol.toList ++ operand.chars
  | binary op left right _ =>
    '(' :: left.chars ++ ' ' :: op.symbol.toList ++ ' ' :: right.chars ++ [')']

end Term

/-- A statement over terms. -/
inductive Clause where
  | expression (t : Term)
  | assign (name : String) (value : Term) (ty : Ty)

def Clause.chars : Clause → List Char
  | expression t => t.chars
  | assign name value _ => name.toList ++ " = ".toList ++ value.chars

namespace Arena

/-- The nodes under an id are the term, but for groups. -/
inductive Holds (a : Arena) : NodeId → Term → Prop
  | literal {id : NodeId} {value : Value} {ty : Ty} (node : a.node? id = some (.literal value ty)) :
    Holds a id (.literal value ty)
  | reference {id : NodeId} {name : String} {ty : Ty}
      (node : a.node? id = some (.variable name ty)) : Holds a id (.reference name ty)
  | group {id inner : NodeId} {t : Term} (node : a.node? id = some (.group inner))
      (holds : Holds a inner t) : Holds a id t
  | unary {id operand : NodeId} {op : UnaryOp} {t : Term} {ty : Ty}
      (node : a.node? id = some (.unary op operand ty)) (holds : Holds a operand t) :
    Holds a id (.unary op t ty)
  | binary {id : NodeId} {b : BinaryNode} {l r : Term} (node : a.node? id = some (.binary b))
      (left : Holds a b.left l) (right : Holds a b.right r) :
    Holds a id (.binary b.op l r b.egress)

/-- The nodes under the root of a statement are the clause, but for groups. -/
inductive States (a : Arena) : NodeId → Clause → Prop
  | expression {id : NodeId} {t : Term} (holds : a.Holds id t) : States a id (.expression t)
  | assign {id value : NodeId} {name : String} {t : Term} {ty : Ty}
      (node : a.node? id = some (.assign name value ty)) (holds : a.Holds value t) :
    States a id (.assign name t ty)

variable {a a' : Arena} {id : NodeId} {t t' : Term} {c c' : Clause}

/-- An arena holds one term at most under a node. -/
theorem Holds.unique (h : a.Holds id t) (h' : a.Holds id t') : t = t' := by
  induction h generalizing t' with
  | literal node => cases h' <;> simp_all
  | reference node => cases h' <;> simp_all
  | group node _ ih =>
    cases h' with
    | group node' holds =>
      obtain rfl := Node.group.inj (Option.some.inj (node.symm.trans node'))
      exact ih holds
    | _ => simp_all
  | unary node _ ih =>
    cases h' with
    | unary node' holds =>
      obtain ⟨rfl, rfl, rfl⟩ := Node.unary.inj (Option.some.inj (node.symm.trans node'))
      rw [ih holds]
    | _ => simp_all
  | binary node _ _ ihl ihr =>
    cases h' with
    | binary node' left right =>
      obtain rfl := Node.binary.inj (Option.some.inj (node.symm.trans node'))
      rw [ihl left, ihr right]
    | _ => simp_all

theorem Holds.of_nodes (h : a.Holds id t) (same : ∀ i node, a.node? i = some node →
    a'.node? i = some node) : a'.Holds id t := by
  induction h with
  | literal node => exact .literal (same _ _ node)
  | reference node => exact .reference (same _ _ node)
  | group node _ ih => exact .group (same _ _ node) ih
  | unary node _ ih => exact .unary (same _ _ node) ih
  | binary node _ _ ihl ihr => exact .binary (same _ _ node) ihl ihr

theorem States.of_nodes (h : a.States id c) (same : ∀ i node, a.node? i = some node →
    a'.node? i = some node) : a'.States id c := by
  cases h with
  | expression holds => exact .expression (holds.of_nodes same)
  | assign node holds => exact .assign (same _ _ node) (holds.of_nodes same)

theorem Holds.grows (h : a.Holds id t) (grows : a.Grows a') : a'.Holds id t :=
  h.of_nodes fun _ _ => grows.node?

theorem Holds.index_lt (h : a.Holds id t) : id.index < a.size := by
  cases h with
  | literal node | reference node | group node | unary node | binary node =>
    exact index_lt_size node

theorem Holds.egress (h : a.Holds id t) (ha : a.Ordered) : a.egress id = t.ty := by
  induction h with
  | group node _ ih => rw [egress_eq ha node, ← ih]; rfl
  | literal node | reference node | unary node | binary node => rw [egress_eq ha node]; rfl

theorem renderWithin_succ (a : Arena) (height : Nat) (id : NodeId) :
    a.renderWithin (height + 1) id =
      match a.node? id with
      | none => "<invalid>".toList
      | some (.literal value _) => value.renderChars
      | some (.variable name _) => name.toList
      | some (.group inner) => a.renderWithin height inner
      | some (.unary op operand _) => op.symbol.toList ++ a.renderWithin height operand
      | some (.assign name value _) =>
        name.toList ++ " = ".toList ++ a.renderWithin height value
      | some (.binary b) =>
        '(' :: a.renderWithin height b.left ++ ' ' :: b.op.symbol.toList ++
          ' ' :: a.renderWithin height b.right ++ [')'] := rfl

theorem Holds.renderWithin (h : a.Holds id t) (ha : a.Ordered) {height : Nat}
    (high : id.index < height) : a.renderWithin height id = t.chars := by
  induction h generalizing height with
  | literal node =>
    obtain ⟨height, rfl⟩ : ∃ k, height = k + 1 := ⟨height - 1, by omega⟩
    rw [renderWithin_succ, node, Term.chars]
  | reference node =>
    obtain ⟨height, rfl⟩ : ∃ k, height = k + 1 := ⟨height - 1, by omega⟩
    rw [renderWithin_succ, node, Term.chars]
  | @group id inner t node _ ih =>
    obtain ⟨height, rfl⟩ : ∃ k, height = k + 1 := ⟨height - 1, by omega⟩
    have := ha id _ node inner (by simp [Node.operands])
    rw [renderWithin_succ, node]
    exact ih (by omega)
  | @unary id operand op t ty node _ ih =>
    obtain ⟨height, rfl⟩ : ∃ k, height = k + 1 := ⟨height - 1, by omega⟩
    have := ha id _ node operand (by simp [Node.operands])
    rw [renderWithin_succ, node, Term.chars, ← ih (show operand.index < height by omega)]
  | @binary id b l r node _ _ ihl ihr =>
    obtain ⟨height, rfl⟩ : ∃ k, height = k + 1 := ⟨height - 1, by omega⟩
    have hl := ha id _ node b.left (by simp [Node.operands])
    have hr := ha id _ node b.right (by simp [Node.operands])
    rw [renderWithin_succ, node, Term.chars, ← ihl (show b.left.index < height by omega),
      ← ihr (show b.right.index < height by omega)]

/-- Rendering writes the clause that is held. -/
theorem States.render (h : a.States id c) (ha : a.Ordered) :
    (a.render id).toList = c.chars := by
  rw [Arena.render, String.toList_ofList]
  cases h with
  | expression holds =>
    exact holds.renderWithin ha (Nat.lt_succ_of_lt holds.index_lt)
  | @assign value name t ty node holds =>
    have hvalue := ha id _ node value (by simp [Node.operands])
    have hid := index_lt_size node
    rw [renderWithin_succ, node, Clause.chars,
      ← holds.renderWithin ha (show value.index < a.size by omega)]

end Arena

end Scriptlet
