import Scriptlet.Proofs.Eval.Recursive
import Scriptlet.Proofs.Node.Order

/-!
# The discipline of the stacks

At every state that a machine comes to, the next task finds the values it takes: `Balanced` says
so of a whole stack of tasks and is kept by every step. What can still be entered is `ahead`; a
step enters the first of it or drops operands, so the nodes entered on a path are a part of the
order of evaluation. `eval_refines` joins both with the recursion.
-/
namespace Scriptlet

namespace Task

/-- The number of values that a task reads. -/
def takes : Task → Nat
  | .eval .. => 0
  | .unary .. | .assign _ | .right .. => 1
  | .apply .. => 2

/-- The operands that a task can have evaluated. -/
def subjects : Task → List NodeId
  | .eval id _ => [id]
  | .right _ n _ => [n.right]
  | _ => []

end Task

/-- With so many values on the stack every task finds what it takes, and one value remains. -/
def Balanced : List Task → Nat → Prop
  | [], count => count = 1
  | t :: rest, count => t.takes ≤ count ∧ Balanced rest (count - t.takes + 1)

namespace Machine

/-- The next task finds the values it takes; without a task there is just the result. -/
def Supplied (m : Machine) : Prop :=
  match m.tasks with
  | [] => ∃ v, m.values = [v]
  | t :: _ => t.takes ≤ m.values.length

/-- The operands that the tasks can have evaluated, in order. -/
def subjects (m : Machine) : List NodeId := m.tasks.flatMap (·.subjects)

/-- The nodes that can still be entered, in order. -/
def ahead (a : Arena) (m : Machine) : List NodeId := m.subjects.flatMap a.order

theorem supplied_of_balanced {m : Machine} (h : Balanced m.tasks m.values.length) :
    m.Supplied := by
  unfold Supplied
  split <;> rename_i ht <;> rw [ht] at h
  · exact List.length_eq_one_iff.mp h
  · exact h.1

@[simp] theorem subjects_pushTask (m : Machine) (t : Task) :
    (m.pushTask t).subjects = t.subjects ++ m.subjects := rfl

@[simp] theorem subjects_pushValue (m : Machine) (v : Value) :
    (m.pushValue v).subjects = m.subjects := rfl

@[simp] theorem tasks_popValue (m : Machine) : m.popValue.2.tasks = m.tasks := by
  unfold popValue
  split <;> rfl

@[simp] theorem subjects_popValue (m : Machine) : m.popValue.2.subjects = m.subjects := by
  simp [subjects]

@[simp] theorem length_popValue (m : Machine) :
    m.popValue.2.values.length = m.values.length - 1 := by
  unfold popValue
  split <;> rename_i h <;> simp [h]

end Machine

namespace Evaluation

/-- What a step that succeeds does, task by task. -/
inductive Performed (s : Evaluation) (m : Machine) : Task → Machine → Prop
  | leaf {id : NodeId} {depth : Nat} (v : Value) :
      Performed s m (.eval id depth) (m.pushValue v)
  | group {id inner : NodeId} {depth : Nat} (node : s.arena.node? id = some (.group inner)) :
      Performed s m (.eval id depth) (m.pushTask (.eval inner (depth + 1)))
  | unary {id operand : NodeId} {depth : Nat} {op : UnaryOp} {ty : Ty}
      (node : s.arena.node? id = some (.unary op operand ty)) :
      Performed s m (.eval id depth)
        ((m.pushTask (.unary id op)).pushTask (.eval operand (depth + 1)))
  | assign {id value : NodeId} {depth : Nat} {name : String} {ty : Ty}
      (node : s.arena.node? id = some (.assign name value ty)) :
      Performed s m (.eval id depth)
        ((m.pushTask (.assign name)).pushTask (.eval value (depth + 1)))
  | binary {id : NodeId} {depth : Nat} {n : BinaryNode}
      (node : s.arena.node? id = some (.binary n)) :
      Performed s m (.eval id depth)
        ((m.pushTask (.right id n depth)).pushTask (.eval n.left (depth + 1)))
  | applyUnary {id : NodeId} {op : UnaryOp} (v : Value) :
      Performed s m (.unary id op) (m.popValue.2.pushValue v)
  | bind {name : String} (b : Bindings) :
      Performed s m (.assign name) ({ m.popValue.2 with bindings := b }.pushValue m.popValue.1)
  | decided {id : NodeId} {n : BinaryNode} {depth : Nat} : Performed s m (.right id n depth) m
  | undecided {id : NodeId} {n : BinaryNode} {depth : Nat} :
      Performed s m (.right id n depth)
        ((m.pushTask (.apply id n)).pushTask (.eval n.right (depth + 1)))
  | apply {id : NodeId} {n : BinaryNode} (v : Value) :
      Performed s m (.apply id n) (m.popValue.2.popValue.2.pushValue v)

theorem pushResult_ok {s : Evaluation} {id : NodeId} {r : Kernel.Result} {m next : Machine}
    (h : s.pushResult id r m = .ok next) : ∃ v, next = m.pushValue v := by
  cases r with
  | ok v => exact ⟨v, (Except.ok.inj h).symm⟩
  | error e => contradiction

theorem performed_of_enter {s : Evaluation} {id : NodeId} {depth : Nat} {m next : Machine}
    (h : s.enter id depth m = .ok next) : s.Performed m (.eval id depth) next := by
  unfold enter at h
  split at h
  · unfold enterNode at h
    split at h
    · cases h
      exact .leaf .null
    · cases h
      exact .leaf _
    · split at h
      · cases h
        exact .leaf _
      · contradiction
    · rename_i hn
      cases h
      exact .group hn
    · rename_i hn
      cases h
      exact .unary hn
    · rename_i hn
      cases h
      exact .assign hn
    · rename_i hn
      split at h
      · contradiction
      · cases h
        exact .binary hn
  · contradiction

theorem performed_of_perform {s : Evaluation} {t : Task} {m next : Machine}
    (h : s.perform t m = .ok next) : s.Performed m t next := by
  cases t with
  | eval id depth => exact performed_of_enter h
  | unary id op =>
    obtain ⟨v, rfl⟩ := pushResult_ok h
    exact .applyUnary v
  | assign name =>
    cases h
    exact .bind _
  | right id n depth =>
    simp only [perform] at h
    split at h <;> cases h
    · exact .decided
    · exact .undecided
  | apply id n =>
    obtain ⟨v, rfl⟩ := pushResult_ok h
    exact .apply v

/-- A step leaves one more value than its task takes. -/
theorem Performed.balanced {s : Evaluation} {m next : Machine} {t : Task}
    (h : s.Performed m t next) (hb : Balanced (t :: m.tasks) m.values.length) :
    Balanced next.tasks next.values.length := by
  obtain ⟨htakes, hrest⟩ := hb
  cases h with
  | leaf | group | unary | assign | binary =>
    simpa [Machine.pushValue, Machine.pushTask, Balanced, Task.takes] using hrest
  | applyUnary | bind =>
    rw [Task.takes] at hrest
    rwa [Machine.pushValue, List.length_cons, Machine.length_popValue, Machine.tasks_popValue]
  | decided =>
    simp only [Task.takes] at htakes hrest
    rwa [Nat.sub_add_cancel htakes] at hrest
  | undecided =>
    simp only [Task.takes] at htakes hrest
    rw [Nat.sub_add_cancel htakes] at hrest
    have count : m.values.length - 0 + 1 - 2 + 1 = m.values.length := by omega
    have two : 2 ≤ m.values.length - 0 + 1 := by omega
    exact ⟨Nat.zero_le _, two, count.symm ▸ hrest⟩
  | apply =>
    simp only [Task.takes] at htakes hrest
    simpa [Machine.pushValue, Nat.sub_sub] using hrest

theorem Performed.subjects_lt {s : Evaluation} (ha : s.arena.Ordered) {m next : Machine}
    {t : Task} (h : s.Performed m t next)
    (hm : ∀ x ∈ t.subjects ++ m.subjects, x.index < s.arena.size) :
    ∀ x ∈ next.subjects, x.index < s.arena.size := by
  have operand {id x : NodeId} {node : Node} (hn : s.arena.node? id = some node)
      (hx : x ∈ node.operands) : x.index < s.arena.size :=
    Nat.lt_trans (ha id node hn x hx) (Arena.index_lt_size hn)
  rw [List.forall_mem_append] at hm
  cases h with
  | leaf => exact hm.2
  | group hn | unary hn | assign hn =>
    simpa [Task.subjects, or_imp, forall_and] using
      And.intro (operand hn (by simp [Node.operands])) hm.2
  | @binary id depth n hn =>
    have left : n.left.index < s.arena.size := operand hn (by simp [Node.operands])
    have right : n.right.index < s.arena.size := operand hn (by simp [Node.operands])
    simpa [Task.subjects, or_imp, forall_and] using And.intro left (And.intro right hm.2)
  | applyUnary | bind | apply => simpa [Machine.subjects, Machine.pushValue] using hm.2
  | decided => exact hm.2
  | undecided => simpa [Task.subjects, or_imp, forall_and] using hm

/-- A step enters the first node ahead, or none; what is ahead after it was ahead before. -/
theorem Performed.ahead_sublist {s : Evaluation} (ha : s.arena.Ordered) {m next : Machine}
    {t : Task} (h : s.Performed m t next) (hm : ∀ x ∈ t.subjects, x.index < s.arena.size) :
    (t.entered ++ next.ahead s.arena).Sublist
      (t.subjects.flatMap s.arena.order ++ m.ahead s.arena) := by
  cases h with
  | @leaf id =>
    obtain ⟨node, hn⟩ := Arena.node?_isSome (hm id (by simp [Task.subjects]))
    simp [Task.entered, Task.subjects, Machine.ahead, Arena.order_eq ha hn]
  | group hn | unary hn | assign hn | binary hn =>
    simp [Task.entered, Task.subjects, Machine.ahead, Arena.order_eq ha hn, Node.operands]
  | applyUnary | bind | apply =>
    simp [Task.entered, Task.subjects, Machine.ahead, Machine.subjects, Machine.pushValue]
  | decided | undecided => simp [Task.entered, Task.subjects, Machine.ahead]

/-- What holds of every state that a machine comes to. -/
structure Sound (s : Evaluation) (m : Machine) : Prop where
  balanced : Balanced m.tasks m.values.length
  within : ∀ x ∈ m.subjects, x.index < s.arena.size

theorem sound_begin {s : Evaluation} {id : NodeId} (h : id.index < s.arena.size) (b : Bindings) :
    s.Sound (.begin id b) where
  balanced := ⟨Nat.zero_le _, rfl⟩
  within := by simpa [Machine.subjects, Machine.begin, Task.subjects] using h

theorem Sound.step {s : Evaluation} (ha : s.arena.Ordered) {t : Task} {rest : List Task}
    {vs : List Value} {b : Bindings} {next : Machine} (h : s.Sound ⟨t :: rest, vs, b⟩)
    (performed : s.perform t ⟨rest, vs, b⟩ = .ok next) : s.Sound next where
  balanced := (performed_of_perform performed).balanced h.balanced
  within := (performed_of_perform performed).subjects_lt ha (by
    simpa [Machine.subjects] using h.within)

theorem Sound.path {s : Evaluation} (ha : s.arena.Ordered) {m last : Machine} {ids : List NodeId}
    (h : s.Sound m) (k : s.Path m ids last) : s.Sound last := by
  induction k with
  | here => exact h
  | step performed _ ih => exact ih (h.step ha performed)

/-- The nodes entered on a path and those still ahead were ahead before, in that order. -/
theorem Path.ahead_sublist {s : Evaluation} (ha : s.arena.Ordered) {m last : Machine}
    {ids : List NodeId} (h : s.Path m ids last) (hm : s.Sound m) :
    (ids ++ last.ahead s.arena).Sublist (m.ahead s.arena) := by
  induction h with
  | here => exact List.Sublist.refl _
  | @step t rest vs b next last ids performed path ih =>
    have within : ∀ x ∈ t.subjects, x.index < s.arena.size := fun x hx =>
      hm.within x (by simp [Machine.subjects, hx])
    have first := (performed_of_perform performed).ahead_sublist ha within
    rw [List.append_assoc]
    refine ((ih (hm.step ha performed)).append_left t.entered).trans ?_
    simpa [Machine.ahead, Machine.subjects] using first

/-- The stack machine refines the recursion. At every state that it comes to, the next task finds
its values; the nodes entered by then stand in the order of evaluation of the tree, and so each of
them is entered once if the tree has it once. -/
theorem eval_refines {s : Evaluation} (ha : s.arena.Ordered) {id : NodeId}
    (hid : id.index < s.arena.size) (b : Bindings) :
    s.eval id b = s.valueAt id 0 b ∧
      ∀ ids m, s.Path (.begin id b) ids m →
        m.Supplied ∧ ids.Sublist (s.arena.order id) ∧ ((s.arena.order id).Nodup → ids.Nodup) := by
  refine ⟨s.eval_eq_valueAt id b, fun ids m path => ?_⟩
  have sound := sound_begin hid b
  have part : ids.Sublist (s.arena.order id) := by
    have h := path.ahead_sublist ha sound
    have start : (Machine.begin id b).ahead s.arena = s.arena.order id := by
      simp [Machine.ahead, Machine.subjects, Machine.begin, Task.subjects]
    rw [start] at h
    exact (List.sublist_append_left ids _).trans h
  exact ⟨Machine.supplied_of_balanced (sound.path ha path).balanced, part, part.nodup⟩

/-- The variable x and a literal, `x = x + 1`, and the sum of the assignment with itself. -/
def sharedAssignment : Evaluation where
  arena := ⟨#[
    ⟨.variable "x" (.primitive .int), none, none⟩,
    ⟨.literal (.int 1) (.primitive .int), none, none⟩,
    ⟨.binary ⟨.add, ⟨0⟩, ⟨1⟩, .primitive .int, some .int, some .int⟩, none, none⟩,
    ⟨.assign "x" ⟨2⟩ (.primitive .int), none, none⟩,
    ⟨.binary ⟨.add, ⟨3⟩, ⟨3⟩, .primitive .int, some .int, some .int⟩, none, none⟩]⟩
  conversions := .empty
  maxDepth := 16
  mode := .accelerated

theorem eval_refines_assignment :
    sharedAssignment.arena.Ordered ∧ 3 < sharedAssignment.arena.size ∧
      (sharedAssignment.arena.order ⟨3⟩).Nodup ∧
      sharedAssignment.eval ⟨3⟩ (.ofList [("x", .int 1)]) =
        sharedAssignment.valueAt ⟨3⟩ 0 (.ofList [("x", .int 1)]) ∧
      ∀ ids m, sharedAssignment.Path (.begin ⟨3⟩ (.ofList [("x", .int 1)])) ids m →
        m.Supplied ∧ ids.Nodup := by
  have ordered : sharedAssignment.arena.Ordered := by decide
  have within : 3 < sharedAssignment.arena.size := by decide
  have nodup : (sharedAssignment.arena.order ⟨3⟩).Nodup := by decide
  obtain ⟨value, states⟩ := eval_refines ordered within (.ofList [("x", .int 1)])
  refine ⟨ordered, within, nodup, value, fun ids m path => ?_⟩
  obtain ⟨supplied, -, once⟩ := states ids m path
  exact ⟨supplied, once nodup⟩

/-- An operand that two operations share, or one operation twice, is entered for each of them. -/
theorem shared_operand_entered_twice :
    ¬ ∀ (s : Evaluation) (id : NodeId) (b : Bindings), s.arena.Ordered →
      id.index < s.arena.size → ∀ ids m, s.Path (.begin id b) ids m → ids.Nodup := by
  intro once
  have path : sharedAssignment.Path (.begin ⟨4⟩ (.ofList [("x", .int 1)]))
      [⟨4⟩, ⟨3⟩, ⟨2⟩, ⟨0⟩, ⟨1⟩, ⟨3⟩] _ :=
    .step rfl <| .step rfl <| .step rfl <| .step rfl <| .step rfl <| .step rfl <| .step rfl <|
      .step rfl <| .step rfl <| .step rfl <| .here _
  have := once sharedAssignment ⟨4⟩ _ (by decide) (by decide) _ _ path
  exact absurd this (by decide)

end Evaluation

end Scriptlet
