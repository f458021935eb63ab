import Mathlib.Data.List.Basic
import Scriptlet.Compile.Program

/-!
# Orders and types in an arena

Operands are built before the node that has them, so in the arenas of programs they have smaller
indices. There the order in which evaluation begins the nodes of a tree is given by the nodes
alone: a node, then the orders of its operands. So is the static type of a node.
-/
namespace Scriptlet.Arena

/-- Operands stand before the node that has them. -/
def Ordered (a : Arena) : Prop :=
  ∀ id node, a.node? id = some node → ∀ x ∈ node.operands, x.index < id.index

theorem index_lt_size {a : Arena} {id : NodeId} {node : Node} (h : a.node? id = some node) :
    id.index < a.size := by
  simp only [node?, cell?, Option.map_eq_some_iff] at h
  obtain ⟨c, hc, _⟩ := h
  exact (Array.getElem?_eq_some_iff.mp hc).1

theorem node?_isSome {a : Arena} {id : NodeId} (h : id.index < a.size) :
    ∃ node, a.node? id = some node := by
  have hi : id.index < a.cells.size := h
  refine ⟨a.cells[id.index].node, ?_⟩
  simp only [node?, cell?, Option.map_eq_some_iff]
  exact ⟨_, Array.getElem?_eq_getElem hi, rfl⟩

theorem ordered_iff {a : Arena} :
    a.Ordered ↔ ∀ i : Fin a.cells.size, ∀ x ∈ a.cells[i].node.operands, x.index < i := by
  constructor
  · intro h i x hx
    refine h ⟨i⟩ a.cells[i].node ?_ x hx
    simp [node?, cell?]
  · intro h id node hn x hx
    simp only [node?, cell?, Option.map_eq_some_iff] at hn
    obtain ⟨c, hc, rfl⟩ := hn
    obtain ⟨hi, rfl⟩ := Array.getElem?_eq_some_iff.mp hc
    exact h ⟨id.index, hi⟩ x hx

instance (a : Arena) : Decidable a.Ordered := decidable_of_iff _ ordered_iff.symm

theorem orderWithin_eq {a : Arena} (ha : a.Ordered) {m n : Nat} {id : NodeId}
    (hm : id.index < m) (hn : id.index < n) : a.orderWithin m id = a.orderWithin n id := by
  induction m generalizing n id with
  | zero => omega
  | succ m ih =>
    obtain ⟨n, rfl⟩ : ∃ k, n = k + 1 := ⟨n - 1, by omega⟩
    simp only [orderWithin]
    cases hnode : a.node? id with
    | none => rfl
    | some node =>
      have hx : ∀ x ∈ node.operands, a.orderWithin m x = a.orderWithin n x := by
        intro x hx
        have := ha id node hnode x hx
        exact ih (by omega) (by omega)
      simp only [List.cons.injEq, true_and]
      exact List.flatMap_congr hx

/-- Evaluation begins with a node and goes on with its operands. -/
theorem order_eq {a : Arena} (ha : a.Ordered) {id : NodeId} {node : Node}
    (h : a.node? id = some node) : a.order id = id :: node.operands.flatMap a.order := by
  have hs := index_lt_size h
  rw [order, orderWithin_eq ha hs (show id.index < a.size + 1 by omega)]
  simp only [orderWithin, h]
  rfl

/-- The static type of a node, given those of its operands. -/
def typeOf (operandTy : NodeId → Ty) : Node → Ty
  | .literal _ ty | .variable _ ty | .unary _ _ ty | .assign _ _ ty => ty
  | .group inner => operandTy inner
  | .binary n => n.egress

theorem egressWithin_eq {a : Arena} (ha : a.Ordered) {m n : Nat} {id : NodeId}
    (hm : id.index < m) (hn : id.index < n) : a.egressWithin m id = a.egressWithin n id := by
  induction m generalizing n id with
  | zero => omega
  | succ m ih =>
    obtain ⟨n, rfl⟩ : ∃ k, n = k + 1 := ⟨n - 1, by omega⟩
    simp only [egressWithin]
    cases hnode : a.node? id with
    | none => rfl
    | some node =>
      cases node with
      | group inner =>
        have := ha id _ hnode inner (by simp [Node.operands])
        exact ih (by omega) (by omega)
      | _ => rfl

theorem egress_eq {a : Arena} (ha : a.Ordered) {id : NodeId} {node : Node}
    (h : a.node? id = some node) : a.egress id = typeOf a.egress node := by
  have hs := index_lt_size h
  rw [egress, egressWithin_eq ha hs (show id.index < a.size + 1 by omega)]
  cases node <;> simp only [egressWithin, h] <;> rfl

end Scriptlet.Arena
