import Scriptlet.Proofs.Node.Surgery

/-!
# Operations along the right spine

Operations that wait for their right operands, the innermost first, are built into a right spine.
Its text is that of its last operand with the operations around it, so with another last operand
the spine has the text of the same operations around that one.
-/
namespace Scriptlet.Arena

open Compile

variable {a a' : Arena} {id last root t x : NodeId} {rest pending : Pending}

/-- The operations that waited stand along the right spine from `root` on, and `last` at its
end. -/
inductive Spine (a : Arena) : Pending → NodeId → NodeId → Prop
  | nil (id : NodeId) : Spine a [] id id
  | cons {id root : NodeId} {b : BinaryNode} {rest : Pending}
      (node : a.node? id = some (.binary b)) (above : Spine a rest id root) :
      Spine a ((b.left, b.op) :: rest) b.right root

/-- The operations that wait, around a text. -/
def around (left : NodeId → List Char) : Pending → List Char → List Char
  | [], text => text
  | (l, op) :: rest, text =>
    around left rest ('(' :: left l ++ ' ' :: op.symbol.toList ++ ' ' :: text ++ [')'])

/-! ## In other arenas -/

theorem Ordered.grounded (h : a.Ordered) (id : NodeId) : a.Grounded id :=
  .of_acc (Subrelation.accessible (fun ⟨node, hn, hx⟩ => h _ node hn _ hx)
    (InvImage.accessible NodeId.index (Nat.lt_wfRel.wf.apply id.index)))

theorem Ordered.acyclic (h : a.Ordered) : a.Acyclic := fun x => h.grounded x x .refl

/-- A text stays while the nodes under it do. -/
theorem Renders.keep (ordered : a.Ordered)
    (keeps : ∀ x : NodeId, x.index < a.size → a'.node? x = a.node? x) {text : List Char}
    (h : a.Renders id text) (hid : id.index < a.size) : a'.Renders id text := by
  have kept {id : NodeId} {node : Node} (hn : a.node? id = some node) :
      a'.node? id = some node := by rw [keeps id (index_lt_size hn), hn]
  have lower {id x : NodeId} {node : Node} (hn : a.node? id = some node)
      (hx : x ∈ node.operands) : x.index < a.size :=
    Nat.lt_trans (ordered id node hn x hx) (index_lt_size hn)
  induction h with
  | invalid absent =>
    obtain ⟨node, hn⟩ := node?_isSome hid
    rw [absent] at hn
    contradiction
  | literal node => exact .literal (kept node)
  | reference node => exact .reference (kept node)
  | group node _ ih => exact .group (kept node) (ih (lower node (by simp [Node.operands])))
  | unary node _ ih => exact .unary (kept node) (ih (lower node (by simp [Node.operands])))
  | assign node _ ih => exact .assign (kept node) (ih (lower node (by simp [Node.operands])))
  | binary node _ _ ihl ihr =>
    exact .binary (kept node) (ihl (lower node (by simp [Node.operands])))
      (ihr (lower node (by simp [Node.operands])))

theorem Spine.mono (keeps : ∀ {x : NodeId} {node : Node}, a.node? x = some node →
    a'.node? x = some node) (h : a.Spine pending last root) : a'.Spine pending last root := by
  induction h with
  | nil => exact .nil _
  | cons node _ ih => exact .cons (keeps node) ih

/-! ## Its text and its end -/

theorem Spine.renders {left : NodeId → List Char} {text : List Char}
    (h : a.Spine pending last root) (lefts : ∀ w ∈ pending, a.Renders w.1 (left w.1))
    (renders : a.Renders last text) : a.Renders root (around left pending text) := by
  induction h generalizing text with
  | nil => exact renders
  | cons node _ ih =>
    obtain ⟨first, lefts⟩ := List.forall_mem_cons.mp lefts
    exact ih lefts (.binary node first renders)

theorem Spine.endsIn (h : a.Spine rest id root) (ends : a.EndsIn id t) : a.EndsIn root t := by
  induction h with
  | nil => exact ends
  | cons node _ ih => exact ih (.along (binary?_eq_some node) ends)

theorem Spine.le (ordered : a.Ordered) (h : a.Spine pending last root) :
    last.index ≤ root.index := by
  induction h with
  | nil => exact Nat.le_refl _
  | @cons id root b rest node _ ih =>
    exact Nat.le_trans (Nat.le_of_lt (ordered id _ node b.right (by simp [Node.operands]))) ih

/-! ## With another last operand -/

/-- What is above a node stays when the node changes. -/
theorem Spine.setNode (ordered : a.Ordered) (h : a.Spine rest id root)
    (le : t.index ≤ id.index) (node : Node) : (a.setNode t node).Spine rest id root := by
  induction h with
  | nil => exact .nil _
  | @cons upper root b rest above _ ih =>
    have lower := ordered upper _ above b.right (by simp [Node.operands])
    refine .cons ?_ (ih (by omega))
    rw [node?_setNode, if_neg, above]
    rintro rfl
    omega

/-- `t` has another right operand, with a tag for it, and all else is the same. -/
structure Grafted (a : Arena) (t n : NodeId) (tag : OperandTag) (a' : Arena) : Prop where
  target : ∃ b, a.binary? t = some b ∧ a'.cell? t = (a.cell? t).map
    ({ · with node := .binary { b with right := n, rightTag := tag } })
  others : ∀ x, x ≠ t → a'.cell? x = a.cell? x

/-- Of a spine with an operation, the innermost one gets the new operand. -/
theorem Spine.graft (ordered : a.Ordered) (h : a.Spine pending last root) (ne : pending ≠ [])
    (ended : a.binary? last = none) {n : NodeId} (present : (a.node? n).isSome) :
    ∃ t a', a.setRightMost root n = .ok (t, a') ∧ last.index < t.index ∧
      a.Grafted t n (OperandTag.ofTy (a.egress n)) a' ∧ a'.Spine pending n root := by
  cases h with
  | nil => exact absurd rfl ne
  | @cons t _ b rest node above =>
    have binary := binary?_eq_some node
    have ends : a.EndsIn root t := above.endsIn (.here binary ended)
    obtain ⟨top, htop⟩ := ends.binary?
    obtain ⟨t', ends', found⟩ := (ordered.grounded root).rightMost htop
    obtain rfl := ends.unique ends'
    refine ⟨t, _, by rw [setRightMost_eq found, replaceRight_eq binary present]; rfl,
      ordered t _ node b.right (by simp [Node.operands]), ⟨⟨b, binary, ?_⟩, fun x hx => ?_⟩, ?_⟩
    · rw [cell?_setNode, if_pos rfl]
    · rw [cell?_setNode, if_neg hx.symm]
    · have grafted : (a.setNode t (.binary { b with
          right := n, rightTag := OperandTag.ofTy (a.egress n) })).node? t =
          some (.binary { b with right := n, rightTag := OperandTag.ofTy (a.egress n) }) := by
        rw [node?_setNode, if_pos rfl, node]
        rfl
      exact .cons grafted (above.setNode ordered (Nat.le_refl _) _)

end Scriptlet.Arena
