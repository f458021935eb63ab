import Mathlib.Data.List.Perm.Subperm
import Mathlib.Logic.Relation
import Scriptlet.Node.Spine
import Scriptlet.Proofs.Eval.Limit
import Scriptlet.Proofs.Node.Term

/-!
# Cycles in an arena

Rendering, the right spine and evaluation follow operands as long as there are any. They come to an
end at a node from which no cycle can be reached: the tree under it has no more levels than the
arena has nodes, since no node is there twice on one way down.
-/
namespace Scriptlet.Arena

open Relation

/-- `x` is an operand of `y`. -/
def OperandOf (a : Arena) (x y : NodeId) : Prop := ∃ node, a.node? y = some node ∧ x ∈ node.operands

/-- `y` leads to `x` by one operand after another. -/
def Below (a : Arena) : NodeId → NodeId → Prop := TransGen a.OperandOf

/-- No node leads to itself. -/
def Acyclic (a : Arena) : Prop := ∀ x, ¬ a.Below x x

/-- No cycle can be reached from the node. -/
def Grounded (a : Arena) (id : NodeId) : Prop :=
  ∀ x, ReflTransGen a.OperandOf x id → ¬ a.Below x x

variable {a : Arena} {id x y : NodeId}

theorem Acyclic.grounded (h : a.Acyclic) (id : NodeId) : a.Grounded id := fun x _ => h x

theorem Grounded.operand (h : a.Grounded id) (hx : a.OperandOf x id) : a.Grounded x :=
  fun y hy => h y (hy.tail hx)

theorem not_below_self_of_acc (h : Acc a.OperandOf x) : ¬ a.Below x x := by
  have descending : Acc (TransGen a.OperandOf) x := h.transGen
  clear h
  induction descending with
  | intro x _ ih => exact fun cycle => ih x cycle cycle

theorem Grounded.of_acc (h : Acc a.OperandOf id) : a.Grounded id := by
  intro x hx
  refine not_below_self_of_acc ?_
  induction hx using ReflTransGen.head_induction_on with
  | refl => exact h
  | head step _ ih => exact ih.inv step

/-! ## Heights -/

/-- The tree under a node has at most so many levels. -/
def Shallow (a : Arena) : Nat → NodeId → Prop
  | 0, id => a.node? id = none
  | height + 1, id => ∀ x, a.OperandOf x id → a.Shallow height x

theorem Shallow.operand {height : Nat} {node : Node} (h : a.Shallow (height + 1) id)
    (hn : a.node? id = some node) (hx : x ∈ node.operands) : a.Shallow height x :=
  h x ⟨node, hn, hx⟩

/-- Below nodes `above` that lead to `id` there is room for as many levels as there are other
nodes. -/
theorem Grounded.shallow_below (h : a.Grounded id) {height : Nat} {above : List Nat}
    (distinct : above.Nodup) (inside : ∀ i ∈ above, i < a.size)
    (leads : ∀ i ∈ above, a.Below id ⟨i⟩) (room : a.size ≤ height + above.length) :
    a.Shallow height id := by
  have fresh : id.index ∉ above := fun hmem => h id .refl (leads id.index hmem)
  induction height generalizing id above with
  | zero =>
    by_contra present
    obtain ⟨node, hn⟩ := Option.ne_none_iff_exists'.mp present
    have all : ∀ i ∈ id.index :: above, i ∈ List.range a.size :=
      fun i hi => List.mem_range.mpr
        ((List.forall_mem_cons.mpr ⟨index_lt_size hn, inside⟩ : ∀ i ∈ id.index :: above, _) i hi)
    have few := ((List.nodup_cons.mpr ⟨fresh, distinct⟩).subperm all).length_le
    rw [List.length_cons, List.length_range] at few
    omega
  | succ height ih =>
    intro x hx
    have present : id.index < a.size := by
      obtain ⟨node, hn, -⟩ := hx
      exact index_lt_size hn
    have below : ∀ i ∈ id.index :: above, a.Below x ⟨i⟩ :=
      List.forall_mem_cons.mpr ⟨.single hx, fun i hi => .head hx (leads i hi)⟩
    refine ih (h.operand hx) (List.nodup_cons.mpr ⟨fresh, distinct⟩)
      (List.forall_mem_cons.mpr ⟨present, inside⟩) below ?_
      fun hmem => h x (.single hx) (below x.index hmem)
    rw [List.length_cons]
    omega

/-- The arena has room for the tree under a node that reaches no cycle. -/
theorem Grounded.shallow (h : a.Grounded id) : a.Shallow a.size id :=
  h.shallow_below .nil (by simp) (by simp) (Nat.le_refl _)

/-! ## What is made of a tree -/

/-- The text of the tree under a node. -/
inductive Renders (a : Arena) : NodeId → List Char → Prop
  | invalid {id : NodeId} (absent : a.node? id = none) : Renders a id "<invalid>".toList
  | literal {id : NodeId} {value : Value} {ty : Ty} (node : a.node? id = some (.literal value ty)) :
    Renders a id value.renderChars
  | reference {id : NodeId} {name : String} {ty : Ty}
      (node : a.node? id = some (.variable name ty)) : Renders a id name.toList
  | group {id inner : NodeId} {text : List Char} (node : a.node? id = some (.group inner))
      (renders : Renders a inner text) : Renders a id text
  | unary {id operand : NodeId} {op : UnaryOp} {ty : Ty} {text : List Char}
      (node : a.node? id = some (.unary op operand ty)) (renders : Renders a operand text) :
      Renders a id (op.symbol.toList ++ text)
  | assign {id value : NodeId} {name : String} {ty : Ty} {text : List Char}
      (node : a.node? id = some (.assign name value ty)) (renders : Renders a value text) :
      Renders a id (name.toList ++ " = ".toList ++ text)
  | binary {id : NodeId} {b : BinaryNode} {left right : List Char}
      (node : a.node? id = some (.binary b)) (rendersLeft : Renders a b.left left)
      (rendersRight : Renders a b.right right) :
      Renders a id ('(' :: left ++ ' ' :: b.op.symbol.toList ++ ' ' :: right ++ [')'])

theorem Renders.unique {text text' : List Char} (h : a.Renders id text) (h' : a.Renders id text') :
    text = text' := by
  induction h generalizing text' with
  | invalid => cases h' <;> simp_all
  | literal => cases h' <;> simp_all
  | reference => cases h' <;> simp_all
  | group node _ ih =>
    cases h' with
    | group node' renders =>
      obtain rfl := Node.group.inj (Option.some.inj (node.symm.trans node'))
      exact ih renders
    | _ => simp_all
  | unary node _ ih =>
    cases h' with
    | unary node' renders =>
      obtain ⟨rfl, rfl, rfl⟩ := Node.unary.inj (Option.some.inj (node.symm.trans node'))
      rw [ih renders]
    | _ => simp_all
  | assign node _ ih =>
    cases h' with
    | assign node' renders =>
      obtain ⟨rfl, rfl, rfl⟩ := Node.assign.inj (Option.some.inj (node.symm.trans node'))
      rw [ih renders]
    | _ => simp_all
  | binary node _ _ ihl ihr =>
    cases h' with
    | binary node' left right =>
      obtain rfl := Node.binary.inj (Option.some.inj (node.symm.trans node'))
      rw [ihl left, ihr right]
    | _ => simp_all

theorem Renders.acc {text : List Char} (h : a.Renders id text) : Acc a.OperandOf id := by
  induction h with
  | invalid absent =>
    refine .intro _ fun x ⟨node, hn, _⟩ => ?_
    rw [absent] at hn
    contradiction
  | literal node | reference node =>
    refine .intro _ fun x ⟨n, hn, hx⟩ => ?_
    obtain rfl := Option.some.inj (node.symm.trans hn)
    cases hx
  | group node _ ih | unary node _ ih | assign node _ ih =>
    refine .intro _ fun x ⟨n, hn, hx⟩ => ?_
    obtain rfl := Option.some.inj (node.symm.trans hn)
    obtain rfl := List.mem_singleton.mp hx
    exact ih
  | binary node _ _ ihl ihr =>
    refine .intro _ fun x ⟨n, hn, hx⟩ => ?_
    obtain rfl := Option.some.inj (node.symm.trans hn)
    rcases List.mem_pair.mp hx with rfl | rfl
    · exact ihl
    · exact ihr

theorem renders_absent (absent : a.node? id = none) (height : Nat) :
    a.Renders id (a.renderWithin (height + 1) id) := by
  have text : a.renderWithin (height + 1) id = "<invalid>".toList := by
    rw [renderWithin_succ, absent]
  rw [text]
  exact .invalid absent

theorem Shallow.renders {height : Nat} (h : a.Shallow height id) :
    a.Renders id (a.renderWithin (height + 1) id) := by
  induction height generalizing id with
  | zero => exact renders_absent h 0
  | succ height ih =>
    cases hn : a.node? id with
    | none => exact renders_absent hn (height + 1)
    | some node =>
      have operand {x : NodeId} (hx : x ∈ node.operands) :
          a.Renders x (a.renderWithin (height + 1) x) := ih (h.operand hn hx)
      rw [renderWithin_succ, hn]
      cases node with
      | literal => exact .literal hn
      | «variable» => exact .reference hn
      | group inner => exact .group hn (operand (by simp [Node.operands]))
      | unary op x ty => exact .unary hn (operand (by simp [Node.operands]))
      | assign name x ty => exact .assign hn (operand (by simp [Node.operands]))
      | binary b =>
        exact .binary hn (operand (by simp [Node.operands])) (operand (by simp [Node.operands]))

/-- Rendering writes the text of a tree. -/
theorem Renders.render {text : List Char} (h : a.Renders id text) :
    (a.render id).toList = text := by
  rw [Arena.render, String.toList_ofList]
  exact (Grounded.of_acc h.acc).shallow.renders.unique h

/-- A tree has a text just if no cycle can be reached from its root. -/
theorem exists_renders_iff : (∃ text, a.Renders id text) ↔ a.Grounded id :=
  ⟨fun ⟨_, h⟩ => .of_acc h.acc, fun h => ⟨_, h.shallow.renders⟩⟩

/-- The right spine from a node on ends in an operation whose right operand is none. -/
inductive EndsIn (a : Arena) : NodeId → NodeId → Prop
  | here {id : NodeId} {b : BinaryNode} (node : a.binary? id = some b)
      (last : a.binary? b.right = none) : EndsIn a id id
  | along {id t : NodeId} {b : BinaryNode} (node : a.binary? id = some b)
      (ends : EndsIn a b.right t) : EndsIn a id t

theorem node?_of_binary? {b : BinaryNode} (h : a.binary? id = some b) :
    a.node? id = some (.binary b) := by
  unfold binary? at h
  split at h
  · rename_i hn
    rw [hn, Option.some.inj h]
  · contradiction

theorem binary?_eq_some {b : BinaryNode} (h : a.node? id = some (.binary b)) :
    a.binary? id = some b := by
  rw [binary?, h]

theorem Shallow.endsIn {height : Nat} {b : BinaryNode} (h : a.Shallow height id)
    (hb : a.binary? id = some b) : a.EndsIn id (a.rightMostWithin height id) := by
  induction height generalizing id b with
  | zero =>
    have absent : a.node? id = none := h
    rw [node?_of_binary? hb] at absent
    contradiction
  | succ height ih =>
    rw [rightMostWithin, hb]
    dsimp only
    cases hr : a.binary? b.right with
    | none => exact .here hb hr
    | some r =>
      have right := h.operand (node?_of_binary? hb) (x := b.right) (by simp [Node.operands])
      exact .along hb (ih right hr)

theorem EndsIn.binary? {t : NodeId} (h : a.EndsIn id t) : ∃ b, a.binary? id = some b := by
  cases h with
  | here node | along node => exact ⟨_, node⟩

theorem EndsIn.last {t : NodeId} (h : a.EndsIn id t) :
    ∃ b, a.binary? t = some b ∧ a.binary? b.right = none := by
  induction h with
  | here node last => exact ⟨_, node, last⟩
  | along _ _ ih => exact ih

theorem EndsIn.unique {t t' : NodeId} (h : a.EndsIn id t) (h' : a.EndsIn id t') : t = t' := by
  induction h with
  | here node last =>
    cases h' with
    | here => rfl
    | along node' ends =>
      obtain rfl := Option.some.inj (node.symm.trans node')
      obtain ⟨b, hb⟩ := ends.binary?
      rw [last] at hb
      contradiction
  | along node ends ih =>
    cases h' with
    | here node' last =>
      obtain rfl := Option.some.inj (node.symm.trans node')
      obtain ⟨b, hb⟩ := ends.binary?
      rw [last] at hb
      contradiction
    | along node' ends' =>
      obtain rfl := Option.some.inj (node.symm.trans node')
      exact ih ends'

/-- The right spine from an operation that reaches no cycle has an end, and it is found. -/
theorem Grounded.rightMost (h : a.Grounded id) {b : BinaryNode} (hb : a.binary? id = some b) :
    ∃ t, a.EndsIn id t ∧ a.rightMost id = .ok t := by
  refine ⟨_, h.shallow.endsIn hb, ?_⟩
  rw [Arena.rightMost, hb]
  rfl

/-- The static type of a node: what stands in groups has the type of the groups. -/
inductive HasType (a : Arena) : NodeId → Ty → Prop
  | own {id : NodeId} {node : Node} (stands : a.node? id = some node)
      (single : ∀ inner, node ≠ .group inner) : HasType a id (typeOf a.egress node)
  | group {id inner : NodeId} {ty : Ty} (stands : a.node? id = some (.group inner))
      (inside : HasType a inner ty) : HasType a id ty

/-- Where groups come after what is in them, every node has a type. -/
theorem hasType_egressWithin
    (down : ∀ id inner, a.node? id = some (.group inner) → inner.index < id.index)
    (closed : ∀ x y, a.OperandOf x y → x.index < a.size) {depth : Nat} (hid : id.index < a.size)
    (high : id.index < depth) : a.HasType id (a.egressWithin depth id) := by
  induction depth generalizing id with
  | zero => omega
  | succ depth ih =>
    obtain ⟨node, hn⟩ := node?_isSome hid
    rw [egressWithin, hn]
    cases node with
    | group inner =>
      have lower := down id inner hn
      have present := closed inner id ⟨_, hn, by simp [Node.operands]⟩
      exact .group hn (ih present (by omega))
    | _ => exact .own hn (by simp)

end Arena

/-! ## Evaluation -/

namespace Evaluation

/-- The machine comes to a state in which it has no task left, or of which the next task fails. -/
def Halts (s : Evaluation) (m : Machine) : Prop :=
  ∃ ids last, s.Path m ids last ∧ (last.tasks = [] ∨ ∃ e, s.Stuck last e)

/-- Every evaluation comes to an end, whatever the arena is: the limit cuts off what is too deep. -/
theorem halts_begin (s : Evaluation) (id : NodeId) (b : Bindings) : s.Halts (.begin id b) := by
  have ends := s.ends_valueAt id 0 b [] []
  rcases h : s.valueAt id 0 b with ⟨e | v, b'⟩ <;> rw [h] at ends
  · obtain ⟨ids, last, path, stuck, -⟩ := ends
    exact ⟨ids, last, path, .inr ⟨e, stuck⟩⟩
  · obtain ⟨ids, path⟩ := ends
    exact ⟨ids, _, path, .inl rfl⟩

/-- A tree with fewer levels than the limit is evaluated without it. -/
theorem not_exceeds_of_shallow {s : Evaluation} {height depth : Nat} {id : NodeId} {b : Bindings}
    (h : s.arena.Shallow height id) (room : depth + height < s.maxDepth) :
    ¬ (s.valueAt id depth b).Exceeds := by
  rintro ⟨e, failed, deep⟩
  induction height generalizing id depth b with
  | zero =>
    have absent : s.arena.node? id = none := h
    rw [valueAt_level (by omega), level, absent] at failed
    contradiction
  | succ height ih =>
    rw [valueAt_level (by omega)] at failed
    obtain ⟨node, hn, x, hx, b', failed⟩ := operand_of_level failed deep
    exact ih (h.operand hn hx) (by omega) failed

end Evaluation

end Scriptlet
