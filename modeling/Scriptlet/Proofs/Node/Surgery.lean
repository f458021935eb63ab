import Scriptlet.Node.Binary
import Scriptlet.Proofs.Compile.Layout
import Scriptlet.Proofs.Node.Cycles

/-!
# Arenas made by operations

Building a node leads to nodes that were there before, so it makes no cycle. Giving an operation
another right operand makes one just if that operand leads to the operation. Otherwise right
spines end, and rendering does.
-/
namespace Scriptlet

/-- What can be done to an arena. -/
inductive Operation where
  | literal (value : Value) (ty : Ty) (span : Option Span)
  | reference (name : String) (ty : Ty) (span : Option Span)
  | group (inner : NodeId) (span : Option Span)
  | unary (op : UnaryOp) (operand : NodeId) (ty : Ty) (span : Option Span)
  | assign (name : String) (value : NodeId) (ty : Ty) (span : Option Span)
  | binary (ctx : BuildContext) (op : Operator) (left right : NodeId)
  | replaceRight (parent node : NodeId)
  | setRightMost (root node : NodeId)

namespace Operation

/-- The ids that an operation is given. -/
def arguments : Operation → List NodeId
  | literal .. | reference .. => []
  | group id _ | unary _ id _ _ | assign _ id _ _ => [id]
  | binary _ _ left right => [left, right]
  | replaceRight parent node => [parent, node]
  | setRightMost root node => [root, node]

/-- The id that an operation returns, if it returns one, and the arena after it. -/
def perform (a : Arena) : Operation → Except BuildError (Option NodeId × Arena)
  | literal value ty span => .ok (returning (a.push (.literal value ty) span))
  | reference name ty span => .ok (returning (a.push (.variable name ty) span))
  | group inner span => .ok (returning (a.push (.group inner) span))
  | unary op operand ty span => .ok (returning (a.push (.unary op operand ty) span))
  | assign name value ty span => .ok (returning (a.push (.assign name value ty) span))
  | binary ctx op left right => (a.buildBinary ctx op left right).map returning
  | replaceRight parent node => (a.replaceRight parent node).map (none, ·)
  | setRightMost root node => (a.setRightMost root node).map returning
where
  returning (r : NodeId × Arena) : Option NodeId × Arena := (some r.1, r.2)

/-- What is returned and left by an operation. One that fails returns nothing and leaves the arena
as it was. -/
def outcome (a : Arena) (o : Operation) : Option NodeId × Arena :=
  match o.perform a with
  | .ok r => r
  | .error _ => (none, a)

/-- The operation makes `node` the right operand of the operation `target`. -/
def Grafts (a : Arena) (o : Operation) (target node : NodeId) : Prop :=
  (a.binary? target).isSome ∧ (a.node? node).isSome ∧
    (o = .replaceRight target node ∨
      ∃ root, o = .setRightMost root node ∧ a.rightMost root = .ok target)

/-- The operation gives an operation a right operand that leads to it. -/
def Loops (a : Arena) (o : Operation) : Prop :=
  ∃ target node, o.Grafts a target node ∧ Relation.ReflTransGen a.OperandOf target node

end Operation

/-- The arena is made of the empty one by operations that are allowed, on ids that operations
before returned. -/
inductive Made (allowed : Arena → Operation → Prop) : List NodeId → Arena → Prop
  | empty : Made allowed [] .empty
  | perform {ids : List NodeId} {a : Arena} {o : Operation} (before : Made allowed ids a)
      (known : ∀ x ∈ o.arguments, x ∈ ids) (permitted : allowed a o) :
      Made allowed (ids ++ (o.outcome a).1.toList) (o.outcome a).2

namespace Arena

open Relation

variable {a : Arena} {x y n t : NodeId}

/-! ## Appending a node -/

/-- All operands are nodes of the arena, and groups come after what is in them. -/
structure Closed (a : Arena) : Prop where
  within : ∀ x y, a.OperandOf x y → x.index < a.size
  down : ∀ id inner, a.node? id = some (.group inner) → inner.index < id.index

theorem Closed.empty : Arena.empty.Closed where
  within := by
    rintro x y ⟨node, hn, -⟩
    simp [node?, cell?, Arena.empty] at hn
  down id inner hn := by simp [node?, cell?, Arena.empty] at hn

theorem operandOf_push {node : Node} {span : Option Span} :
    (a.push node span).2.OperandOf x y ↔
      a.OperandOf x y ∨ (y = ⟨a.size⟩ ∧ x ∈ node.operands) := by
  have grows := a.grows_push node span
  constructor
  · rintro ⟨n, hn, hx⟩
    rw [Arena.node?, cell?_push] at hn
    split at hn
    · rename_i hy
      obtain rfl := Option.some.inj hn
      exact .inr ⟨hy, hx⟩
    · exact .inl ⟨n, hn, hx⟩
  · rintro (⟨n, hn, hx⟩ | ⟨rfl, hx⟩)
    · exact ⟨n, grows.node? hn, hx⟩
    · exact ⟨node, a.node?_push node span, hx⟩

theorem Closed.push (h : a.Closed) {node : Node} (inside : ∀ x ∈ node.operands, x.index < a.size)
    (span : Option Span) : (a.push node span).2.Closed where
  within x y hx := by
    rw [size_push]
    rcases operandOf_push.mp hx with hx | ⟨-, hx⟩
    · exact Nat.lt_succ_of_lt (h.within x y hx)
    · exact Nat.lt_succ_of_lt (inside x hx)
  down id inner hn := by
    rw [Arena.node?, cell?_push] at hn
    split at hn
    · rename_i hid
      obtain rfl := Option.some.inj hn
      subst hid
      exact inside inner (by simp [Node.operands])
    · exact h.down id inner hn

/-- A new node is below none, and what is below an old one was so before. -/
theorem Closed.acyclic_push (h : a.Closed) {node : Node}
    (inside : ∀ x ∈ node.operands, x.index < a.size) (span : Option Span) (acyclic : a.Acyclic) :
    (a.push node span).2.Acyclic := by
  have old {x y : NodeId} (hx : (a.push node span).2.OperandOf x y) : x.index < a.size := by
    rcases operandOf_push.mp hx with hx | ⟨-, hx⟩
    · exact h.within x y hx
    · exact inside x hx
  have kept {x y : NodeId} (below : (a.push node span).2.Below x y) (hy : y.index < a.size) :
      a.Below x y := by
    have edge {x y : NodeId} (hx : (a.push node span).2.OperandOf x y) (hy : y.index < a.size) :
        a.OperandOf x y := by
      rcases operandOf_push.mp hx with hx | ⟨rfl, -⟩
      · exact hx
      · exact absurd hy (Nat.lt_irrefl _)
    induction below with
    | single step => exact .single (edge step hy)
    | tail _ step ih => exact .tail (ih (old step)) (edge step hy)
  intro x cycle
  obtain ⟨y, step, -⟩ := TransGen.head'_iff.mp cycle
  exact acyclic x (kept cycle (old step))

/-! ## Giving an operation another right operand -/

theorem node?_setNode (node : Node) :
    (a.setNode t node).node? x = if t = x then (a.node? x).map fun _ => node else a.node? x := by
  obtain ⟨i⟩ := t
  obtain ⟨j⟩ := x
  simp only [setNode, modify, node?, cell?, Array.getElem?_modify, NodeId.mk.injEq]
  split <;> simp [Function.comp_def]

theorem cell?_setNode (node : Node) : (a.setNode t node).cell? x =
    if t = x then (a.cell? x).map ({ · with node := node }) else a.cell? x := by
  obtain ⟨i⟩ := t
  obtain ⟨j⟩ := x
  simp [setNode, modify, cell?, Array.getElem?_modify]

theorem size_setNode (node : Node) : (a.setNode t node).size = a.size := by
  simp [size, setNode, modify]

section

variable {b : BinaryNode} {tag : OperandTag} (hb : a.binary? t = some b)

include hb

theorem replaceRight_eq (present : (a.node? n).isSome) : a.replaceRight t n = .ok
    (a.setNode t (.binary { b with right := n, rightTag := OperandTag.ofTy (a.egress n) })) := by
  rw [replaceRight, hb]
  exact if_neg (by simpa [Option.isSome_iff_ne_none] using present)

theorem operandOf_graft :
    (a.setNode t (.binary { b with right := n, rightTag := tag })).OperandOf x y ↔
      (y ≠ t ∧ a.OperandOf x y) ∨ (y = t ∧ (x = b.left ∨ x = n)) := by
  have ht := node?_of_binary? hb
  simp only [OperandOf, node?_setNode]
  by_cases hy : t = y
  · subst hy
    simp [ht, Node.operands]
  · simp [hy, Ne.symm hy]

/-- What is below a node after the graft was so before, or the way down takes the new operand. -/
theorem below_of_graft
    (below : (a.setNode t (.binary { b with right := n, rightTag := tag })).Below x y) :
    a.Below x y ∨ (ReflTransGen a.OperandOf x n ∧ ReflTransGen a.OperandOf t y) := by
  have edge {x y : NodeId}
      (step : (a.setNode t (.binary { b with right := n, rightTag := tag })).OperandOf x y) :
      a.OperandOf x y ∨ (x = n ∧ y = t) := by
    rcases (operandOf_graft hb).mp step with ⟨-, step⟩ | ⟨rfl, rfl | rfl⟩
    · exact .inl step
    · exact .inl ⟨_, node?_of_binary? hb, by simp [Node.operands]⟩
    · exact .inr ⟨rfl, rfl⟩
  induction below with
  | single step =>
    rcases edge step with step | ⟨rfl, rfl⟩
    · exact .inl (.single step)
    · exact .inr ⟨.refl, .refl⟩
  | tail _ step ih =>
    rcases edge step with step | ⟨rfl, rfl⟩
    · exact ih.imp (·.tail step) (·.imp_right (·.tail step))
    · exact .inr ⟨ih.elim (·.to_reflTransGen) (·.1), .refl⟩

/-- A graft makes a cycle just if the new operand leads to the operation that gets it. -/
theorem acyclic_graft_iff (acyclic : a.Acyclic) :
    (a.setNode t (.binary { b with right := n, rightTag := tag })).Acyclic ↔
      ¬ ReflTransGen a.OperandOf t n := by
  constructor
  · intro after leads
    -- The way down from `n` to `t` stays, up to where it first comes to `t`.
    have kept : ReflTransGen
        (a.setNode t (.binary { b with right := n, rightTag := tag })).OperandOf t n := by
      have stays {y : NodeId} (h : ReflTransGen a.OperandOf t y) : ReflTransGen
          (a.setNode t (.binary { b with right := n, rightTag := tag })).OperandOf t y := by
        induction h with
        | refl => exact .refl
        | @tail x y _ step ih =>
          by_cases hy : y = t
          · rw [hy]
          · exact ih.tail ((operandOf_graft hb).mpr (.inl ⟨hy, step⟩))
      exact stays leads
    exact after t (.tail' kept ((operandOf_graft hb).mpr (.inr ⟨rfl, .inr rfl⟩)))
  · intro apart x cycle
    rcases below_of_graft hb cycle with below | ⟨lower, upper⟩
    · exact acyclic x below
    · exact apart (upper.trans lower)

theorem Closed.graft (h : a.Closed) (hn : n.index < a.size) :
    (a.setNode t (.binary { b with right := n, rightTag := tag })).Closed where
  within x y hx := by
    rw [size_setNode]
    rcases (operandOf_graft hb).mp hx with ⟨-, hx⟩ | ⟨-, rfl | rfl⟩
    · exact h.within x y hx
    · exact h.within b.left t ⟨_, node?_of_binary? hb, by simp [Node.operands]⟩
    · exact hn
  down id inner hgroup := by
    rw [node?_setNode] at hgroup
    split at hgroup
    · obtain ⟨-, -, h⟩ := Option.map_eq_some_iff.mp hgroup
      cases h
    · exact h.down id inner hgroup

end

end Arena

/-! ## Operations -/

namespace Operation

open Arena Relation

variable {a : Arena} {o : Operation}

/-- Whatever an operation does, it fails, appends nodes over old ones and returns the last of
them, or grafts. -/
inductive Does (a : Arena) (o : Operation) : Option NodeId → Arena → Prop
  | fails : Does a o none a
  | pushes (node : Node) (span : Option Span) (old : ∀ x ∈ node.operands, x ∈ o.arguments) :
      Does a o (some ⟨a.size⟩) (a.push node span).2
  | converts {value : Value} {ty egress : Ty} {op : Operator} {left : NodeId}
      {leftTag rightTag : OperandTag} (span span' : Option Span) (old : left ∈ o.arguments) :
      Does a o (some ⟨(a.push (.literal value ty) span).2.size⟩)
        ((a.push (.literal value ty) span).2.push
          (.binary ⟨op, left, ⟨a.size⟩, egress, leftTag, rightTag⟩) span').2
  | grafts {t n : NodeId} {b : BinaryNode} {id : Option NodeId} (grafts : o.Grafts a t n)
      (node : a.binary? t = some b) (argument : n ∈ o.arguments)
      (returned : id = none ∨ id = some t) :
      Does a o id
        (a.setNode t (.binary { b with right := n, rightTag := OperandTag.ofTy (a.egress n) }))

theorem replaceRight_cases {t n : NodeId} {a' : Arena} (h : a.replaceRight t n = .ok a') :
    ∃ b, a.binary? t = some b ∧ (a.node? n).isSome ∧ a' =
      a.setNode t (.binary { b with right := n, rightTag := OperandTag.ofTy (a.egress n) }) := by
  unfold Arena.replaceRight at h
  split at h
  · contradiction
  · rename_i b hb
    split at h
    · contradiction
    · rename_i present
      exact ⟨b, hb, by simpa [Option.isSome_iff_ne_none] using present, (Except.ok.inj h).symm⟩

theorem setRightMost_cases {root n : NodeId} {r : NodeId × Arena}
    (h : a.setRightMost root n = .ok r) :
    a.rightMost root = .ok r.1 ∧ a.replaceRight r.1 n = .ok r.2 := by
  unfold Arena.setRightMost at h
  split at h
  · contradiction
  · rename_i t ht
    split at h
    · contradiction
    · rename_i a' ha
      obtain rfl := Except.ok.inj h
      exact ⟨ht, ha⟩

theorem does_outcome (a : Arena) (o : Operation) : o.Does a (o.outcome a).1 (o.outcome a).2 := by
  cases o with
  | literal | reference => exact .pushes _ _ (by simp [Node.operands])
  | group | unary | assign => exact .pushes _ _ (by simp [Node.operands, arguments])
  | binary ctx op left right =>
    simp only [outcome, perform]
    cases h : a.buildBinary ctx op left right with
    | error e => exact .fails
    | ok r =>
      have joined := joined_of_buildBinary h
      cases joined with
      | concat | plain => exact .pushes _ _ (by simp [Node.operands, arguments])
      | converted =>
        have old : left ∈ (Operation.binary ctx op left right).arguments := by simp [arguments]
        exact .converts _ _ old
  | replaceRight parent node =>
    simp only [outcome, perform]
    cases h : a.replaceRight parent node with
    | error e => exact .fails
    | ok a' =>
      obtain ⟨b, hb, present, rfl⟩ := replaceRight_cases h
      exact .grafts ⟨by simp [hb], present, .inl rfl⟩ hb (by simp [arguments]) (.inl rfl)
  | setRightMost root node =>
    simp only [outcome, perform]
    cases h : a.setRightMost root node with
    | error e => exact .fails
    | ok r =>
      obtain ⟨rightMost, replaced⟩ := setRightMost_cases h
      obtain ⟨b, hb, present, same⟩ := replaceRight_cases replaced
      have does : Does a (.setRightMost root node) (some r.1) _ :=
        .grafts ⟨by simp [hb], present, .inr ⟨root, rfl, rightMost⟩⟩ hb (by simp [arguments])
          (.inr rfl)
      rw [← same] at does
      exact does

theorem Grafts.unique {t t' n n' : NodeId} (h : o.Grafts a t n) (h' : o.Grafts a t' n') :
    t = t' ∧ n = n' := by
  obtain ⟨-, -, rfl | ⟨root, rfl, found⟩⟩ := h <;>
    obtain ⟨-, -, same | ⟨root', same, found'⟩⟩ := h'
  · cases same
    exact ⟨rfl, rfl⟩
  · cases same
  · cases same
  · cases same
    exact ⟨Except.ok.inj (found.symm.trans found'), rfl⟩

theorem outcome_of_grafts {t n : NodeId} (h : o.Grafts a t n) :
    ∃ b, a.binary? t = some b ∧ (o.outcome a).2 =
      a.setNode t (.binary { b with right := n, rightTag := OperandTag.ofTy (a.egress n) }) := by
  obtain ⟨isBinary, present, graft⟩ := h
  obtain ⟨b, hb⟩ := Option.isSome_iff_exists.mp isBinary
  have replaced := replaceRight_eq hb present
  refine ⟨b, hb, ?_⟩
  rcases graft with rfl | ⟨root, rfl, found⟩
  · rw [outcome, perform, replaced]
    rfl
  · rw [outcome, perform, Arena.setRightMost, found]
    simp only [replaced]
    rfl

section

variable {id : Option NodeId} {a' : Arena} (h : o.Does a id a')

include h

theorem Does.size_le : a.size ≤ a'.size := by
  cases h with
  | fails => exact Nat.le_refl _
  | pushes => simp [size_push]
  | converts => simp [size_push]; omega
  | grafts => exact Nat.le_of_eq (size_setNode _).symm

theorem Does.returned {x : NodeId} (hx : x ∈ id.toList) : x.index < a'.size := by
  cases h with
  | fails => cases hx
  | pushes =>
    obtain rfl := List.mem_singleton.mp hx
    simp [size_push]
  | converts =>
    obtain rfl := List.mem_singleton.mp hx
    simp [size_push]
  | grafts _ node _ returned =>
    rcases returned with rfl | rfl
    · cases hx
    · obtain rfl := List.mem_singleton.mp hx
      rw [size_setNode]
      exact index_lt_size (node?_of_binary? node)

theorem Does.closed (closed : a.Closed) (old : ∀ x ∈ o.arguments, x.index < a.size) :
    a'.Closed := by
  cases h with
  | fails => exact closed
  | pushes node span inside => exact closed.push (fun x hx => old x (inside x hx)) span
  | converts span span' left =>
    refine (closed.push (by simp [Node.operands]) span).push ?_ span'
    simp only [Node.operands, size_push, List.forall_mem_cons]
    exact ⟨Nat.lt_succ_of_lt (old _ left), Nat.lt_succ_self _, by simp⟩
  | grafts _ node argument => exact closed.graft node (old _ argument)

end

/-- On an arena without cycles an operation makes one just if it gives an operation a right
operand that leads to it. -/
theorem acyclic_outcome_iff (closed : a.Closed) (old : ∀ x ∈ o.arguments, x.index < a.size)
    (acyclic : a.Acyclic) : (o.outcome a).2.Acyclic ↔ ¬ o.Loops a := by
  constructor
  · rintro after ⟨t, n, grafts, leads⟩
    obtain ⟨b, hb, eq⟩ := outcome_of_grafts grafts
    rw [eq, acyclic_graft_iff hb acyclic] at after
    exact after leads
  · intro apart
    have does := o.does_outcome a
    generalize (o.outcome a).1 = id, (o.outcome a).2 = a' at does ⊢
    cases does with
    | fails => exact acyclic
    | pushes node span inside =>
      exact closed.acyclic_push (fun x hx => old x (inside x hx)) span acyclic
    | converts span span' left =>
      refine (closed.push (by simp [Node.operands]) span).acyclic_push ?_ span'
        (closed.acyclic_push (by simp [Node.operands]) span acyclic)
      simp only [Node.operands, size_push, List.forall_mem_cons]
      exact ⟨Nat.lt_succ_of_lt (old _ left), Nat.lt_succ_self _, by simp⟩
    | grafts grafts node =>
      exact (acyclic_graft_iff node acyclic).mpr fun leads => apart ⟨_, _, grafts, leads⟩

end Operation

/-! ## Histories -/

namespace Made

variable {allowed : Arena → Operation → Prop} {ids : List NodeId} {a : Arena}

theorem known (h : Made allowed ids a) : ∀ x ∈ ids, x.index < a.size := by
  induction h with
  | empty => simp
  | @perform ids a o _ _ _ ih =>
    have does := o.does_outcome a
    exact List.forall_mem_append.mpr
      ⟨fun x hx => Nat.lt_of_lt_of_le (ih x hx) does.size_le, fun _ => does.returned⟩

theorem closed (h : Made allowed ids a) : a.Closed := by
  induction h with
  | empty => exact .empty
  | @perform ids a o before known _ ih =>
    exact (o.does_outcome a).closed ih fun x hx => before.known x (known x hx)

theorem mono {allowed' : Arena → Operation → Prop} (wider : ∀ a o, allowed a o → allowed' a o)
    (h : Made allowed ids a) : Made allowed' ids a := by
  induction h with
  | empty => exact .empty
  | perform _ known permitted ih => exact ih.perform known (wider _ _ permitted)

theorem acyclic (h : Made (fun a o => ¬ o.Loops a) ids a) : a.Acyclic := by
  induction h with
  | empty =>
    intro x cycle
    obtain ⟨y, step, -⟩ := Relation.TransGen.head'_iff.mp cycle
    exact absurd (Arena.Closed.empty.within x y step) (Nat.not_lt_zero _)
  | @perform ids a o before known permitted ih =>
    exact (Operation.acyclic_outcome_iff before.closed
      (fun x hx => before.known x (known x hx)) ih).mpr permitted

end Made

/-! ## Termination -/

/-- The walks from a node that no bound cuts off come to an end: rendering it, and from an operation
the search along the right spine for the one that `setRightMost` changes. -/
structure Arena.Terminating (a : Arena) (id : NodeId) : Prop where
  renders : ∃ text, a.Renders id text ∧ (a.render id).toList = text
  spine : ∀ b, a.binary? id = some b → ∃ t, a.EndsIn id t ∧ a.rightMost id = .ok t ∧
    ∀ n, a.setRightMost id n = (a.replaceRight t n).map (t, ·)

namespace Arena

variable {a : Arena} {id t : NodeId}

theorem setRightMost_eq (h : a.rightMost id = .ok t) (n : NodeId) :
    a.setRightMost id n = (a.replaceRight t n).map (t, ·) := by
  rw [setRightMost, h]
  dsimp only
  cases a.replaceRight t n <;> rfl

theorem Grounded.terminating (h : a.Grounded id) : a.Terminating id where
  renders := by
    obtain ⟨text, renders⟩ := exists_renders_iff.mpr h
    exact ⟨text, renders, renders.render⟩
  spine b hb := by
    obtain ⟨t, ends, found⟩ := h.rightMost hb
    exact ⟨t, ends, found, setRightMost_eq found⟩

theorem Below.not_renders (h : a.Below id id) (text : List Char) : ¬ a.Renders id text :=
  fun renders => Grounded.of_acc renders.acc id .refl h

section

variable {b : BinaryNode} (hb : a.binary? id = some b) (self : b.right = id)

include hb self

theorem not_endsIn_of_right_self : ¬ a.EndsIn id t := by
  intro ends
  induction ends generalizing b with
  | here node last =>
    obtain rfl := Option.some.inj (node.symm.trans hb)
    rw [self, hb] at last
    contradiction
  | along node _ ih =>
    obtain rfl := Option.some.inj (node.symm.trans hb)
    exact ih (by rw [self, hb]) rfl

/-- An operation that is its own right operand has no text, and its right spine no end. -/
theorem endless_of_right_self :
    a.Below id id ∧ (∀ t, ¬ a.EndsIn id t) ∧ ∀ text, ¬ a.Renders id text := by
  have cycle : a.Below id id :=
    .single ⟨.binary b, node?_of_binary? hb, by simp [Node.operands, self]⟩
  exact ⟨cycle, fun _ => not_endsIn_of_right_self hb self, cycle.not_renders⟩

end

end Arena

/-- Types and evaluations come to an end on every arena that operations make, and all other walks
from every node that reaches no cycle. No operation makes the first cycle but one that gives an
operation a right operand that leads to it, and without these there is none. -/
theorem terminating_of_made {ids : List NodeId} {a : Arena} (made : Made (fun _ _ => True) ids a) :
    (∀ id : NodeId, id.index < a.size → a.HasType id (a.egress id)) ∧
      (∀ (s : Evaluation) id b, s.arena = a → s.Halts (.begin id b)) ∧
      (∀ id, a.Grounded id → a.Terminating id ∧ ∀ (s : Evaluation) b, s.arena = a →
        a.size < s.maxDepth → ¬ (s.valueAt id 0 b).Exceeds) ∧
      (∀ o : Operation, (∀ x ∈ o.arguments, x ∈ ids) → a.Acyclic →
        ((o.outcome a).2.Acyclic ↔ ¬ o.Loops a)) ∧
      (Made (fun a o => ¬ o.Loops a) ids a → a.Acyclic ∧ ∀ id, a.Terminating id) := by
  refine ⟨fun id hid => ?_, fun s id b _ => s.halts_begin id b, fun id grounded => ?_,
    fun o known => ?_, fun loopless => ?_⟩
  · exact Arena.hasType_egressWithin made.closed.down made.closed.within hid hid
  · refine ⟨grounded.terminating, ?_⟩
    rintro s b rfl room
    exact Evaluation.not_exceeds_of_shallow grounded.shallow (by omega)
  · exact Operation.acyclic_outcome_iff made.closed fun x hx => made.known x (known x hx)
  · exact ⟨loopless.acyclic, fun id => (loopless.acyclic.grounded id).terminating⟩

/-- The sum of two variables, with the first one in parentheses instead of the second. -/
theorem terminating_of_made_group :
    ∃ ids a, Made (fun a o => ¬ o.Loops a) ids a ∧ a.render ⟨2⟩ = "(x + x)" ∧
      a.HasType ⟨2⟩ (a.egress ⟨2⟩) ∧ ∀ id, a.Terminating id := by
  have loopless {o : Operation} {a : Arena}
      (h : ∀ t n, o ≠ .replaceRight t n ∧ ∀ root, o ≠ .setRightMost root n) : ¬ o.Loops a := by
    rintro ⟨t, n, ⟨-, -, graft⟩, -⟩
    exact graft.elim (h t n).1 fun ⟨root, found⟩ => (h t n).2 root found.1
  have none : Made (fun a o => ¬ o.Loops a) [] .empty := .empty
  have x := none.perform (o := .reference "x" (.primitive .int) .none) (by decide)
    (loopless (by simp))
  have y := x.perform (o := .reference "y" (.primitive .int) .none) (by decide)
    (loopless (by simp))
  have sum := y.perform (o := .binary (strict "") .add ⟨0⟩ ⟨1⟩) (by decide) (loopless (by simp))
  have group := sum.perform (o := .group ⟨0⟩ .none) (by decide) (loopless (by simp))
  have grafted := group.perform (o := .replaceRight ⟨2⟩ ⟨3⟩) (by decide) (by
    rintro ⟨t, n, ⟨-, -, same | ⟨_, same, -⟩⟩, leads⟩ <;> cases same
    rcases leads.cases_tail with same | ⟨u, leads, node, hn, hu⟩
    · cases same
    obtain rfl : Node.group ⟨0⟩ = node := Option.some.inj hn
    obtain rfl : u = ⟨0⟩ := List.mem_singleton.mp hu
    rcases leads.cases_tail with same | ⟨u, leads, node, hn, hu⟩
    · cases same
    obtain rfl : Node.variable "x" (.primitive .int) = node := Option.some.inj hn
    cases hu)
  have made := terminating_of_made (grafted.mono fun _ _ _ => trivial)
  exact ⟨_, _, grafted, by decide, made.1 ⟨2⟩ (by decide), (made.2.2.2.2 grafted).2⟩

/-- An operation may become its own right operand. -/
theorem exists_made_cycle :
    ∃ ids a, Made (fun _ _ => True) ids a ∧ ∃ id ∈ ids, a.Below id id ∧ (∀ t, ¬ a.EndsIn id t) ∧
      ∀ text, ¬ a.Renders id text := by
  have none : Made (fun _ _ => True) [] .empty := .empty
  have x := none.perform (o := .reference "x" (.primitive .int) .none) (by decide) trivial
  have y := x.perform (o := .reference "y" (.primitive .int) .none) (by decide) trivial
  have sum := y.perform (o := .binary (strict "") .add ⟨0⟩ ⟨1⟩) (by decide) trivial
  have ring := sum.perform (o := .replaceRight ⟨2⟩ ⟨2⟩) (by decide) trivial
  exact ⟨_, _, ring, ⟨2⟩, by decide, Arena.endless_of_right_self rfl rfl⟩

end Scriptlet
