import Scriptlet.Proofs.Debug.Transparency

/-!
# The nodes that a run comes to

What a run that stops has come to is the first part of what the same run comes to when it never
stops; going on where it stopped gives the rest. While a statement is under way its bindings are
those it began with, because only the last task of a statement binds.
-/
namespace Scriptlet

namespace Evaluation

/-- The nodes that a run comes to, in order, with the one it stops before or fails at. A run that
resumes has come to its first node already. -/
def reached (s : Evaluation) (stop : Stop) (resuming : Bool) (m : Machine) : List NodeId :=
  match _h : m.tasks with
  | [] => []
  | t :: rest =>
    (if resuming then [] else t.entered) ++
      match if resuming then none else s.stopBefore? stop t with
      | some _ => []
      | none =>
        match _hp : s.perform t { m with tasks := rest } with
        | .error _ => []
        | .ok next => s.reached stop false next
termination_by s.weight m
decreasing_by
  have hw := weight_perform _hp
  have hm : s.weight m = s.taskWeight t + s.weight { m with tasks := rest } := by
    simp [weight, _h]
  omega

theorem reached_nil (s : Evaluation) (stop : Stop) (resuming : Bool) (vs : List Value)
    (b : Bindings) : s.reached stop resuming ⟨[], vs, b⟩ = [] := by
  rw [reached]

theorem reached_cons (s : Evaluation) (stop : Stop) (resuming : Bool) (t : Task)
    (rest : List Task) (vs : List Value) (b : Bindings) :
    s.reached stop resuming ⟨t :: rest, vs, b⟩ =
      (if resuming then [] else t.entered) ++
        match if resuming then none else s.stopBefore? stop t with
        | some _ => []
        | none =>
          match s.perform t ⟨rest, vs, b⟩ with
          | .error _ => []
          | .ok next => s.reached stop false next := by
  rw [reached]
  split
  · contradiction
  · rename_i t' rest' h
    obtain ⟨rfl, rfl⟩ := List.cons.inj h
    congr 1
    cases if resuming = true then none else s.stopBefore? stop t with
    | some pause => rfl
    | none =>
      simp only
      split <;> rename_i hp <;> simp only [hp]

theorem reached_nowhere_cons (s : Evaluation) (resuming : Bool) (t : Task) (rest : List Task)
    (vs : List Value) (b : Bindings) :
    s.reached nowhere resuming ⟨t :: rest, vs, b⟩ =
      (if resuming then [] else t.entered) ++
        match s.perform t ⟨rest, vs, b⟩ with
        | .error _ => []
        | .ok next => s.reached nowhere false next := by
  rw [reached_cons, stopBefore?_nowhere, ite_self]

/-- What is left after a run: if it stopped, the nodes that it comes to when it goes on. -/
def Outcome.onward (s : Evaluation) : Outcome → List NodeId
  | .paused _ _ m => s.reached nowhere true m
  | _ => []

/-- A run that stops has come to the first nodes of the run that does not. -/
theorem reached_nowhere (s : Evaluation) (stop : Stop) (resuming : Bool) (m : Machine) :
    s.reached nowhere resuming m =
      s.reached stop resuming m ++ (s.run stop resuming m).onward s := by
  fun_induction run s stop resuming m with
  | case1 resuming m ht =>
    obtain ⟨tasks, vs, b⟩ := m
    subst ht
    simp only [reached_nil, Outcome.onward, List.append_nil]
  | case2 resuming m t rest ht id l hs =>
    obtain ⟨tasks, vs, b⟩ := m
    subst ht
    rw [dite_eq_ite] at hs
    rw [Outcome.onward, reached_nowhere_cons, reached_cons, reached_nowhere_cons, hs]
    cases resuming with
    | true => contradiction
    | false => simp
  | case3 resuming m t rest ht hs e hp =>
    obtain ⟨tasks, vs, b⟩ := m
    subst ht
    rw [dite_eq_ite] at hs
    rw [reached_nowhere_cons, reached_cons, hs]
    simp only [hp, Outcome.onward, List.append_nil]
  | case4 resuming m t rest ht hs next hp ih =>
    obtain ⟨tasks, vs, b⟩ := m
    subst ht
    rw [dite_eq_ite] at hs
    rw [reached_nowhere_cons, reached_cons, hs]
    simp only [hp, ih, List.append_assoc]

theorem entered_sublist {s : Evaluation} (ha : s.arena.Ordered) {t : Task} {rest : List Task}
    {vs : List Value} {b : Bindings} (sound : s.Sound ⟨t :: rest, vs, b⟩) :
    t.entered.Sublist (Machine.ahead s.arena ⟨t :: rest, vs, b⟩) := by
  cases t with
  | eval id depth =>
    rw [ahead_eq_cons ha sound rfl]
    exact List.singleton_sublist.mpr List.mem_cons_self
  | _ => exact List.nil_sublist _

/-- The nodes that a run comes to were ahead of it, in that order. -/
theorem reached_sublist {s : Evaluation} (ha : s.arena.Ordered) (stop : Stop) (resuming : Bool)
    {m : Machine} (sound : s.Sound m) :
    (s.reached stop resuming m).Sublist (m.ahead s.arena) := by
  fun_induction run s stop resuming m with
  | case1 resuming m ht =>
    obtain ⟨tasks, vs, b⟩ := m
    subst ht
    rw [reached_nil]
    exact List.nil_sublist _
  | case2 resuming m t rest ht id l hs =>
    obtain ⟨tasks, vs, b⟩ := m
    subst ht
    rw [dite_eq_ite] at hs
    rw [reached_cons, hs]
    have first := entered_sublist ha sound
    cases resuming with
    | true => exact List.nil_sublist _
    | false => simpa using first
  | case3 resuming m t rest ht hs e hp =>
    obtain ⟨tasks, vs, b⟩ := m
    subst ht
    rw [dite_eq_ite] at hs
    rw [reached_cons, hs]
    simp only [hp]
    have first := entered_sublist ha sound
    cases resuming with
    | true => exact List.nil_sublist _
    | false => simpa using first
  | case4 resuming m t rest ht hs next hp ih =>
    obtain ⟨tasks, vs, b⟩ := m
    subst ht
    rw [dite_eq_ite] at hs
    rw [reached_cons, hs]
    simp only [hp]
    have later := ih (sound.step ha hp)
    have path := (Path.step hp (.here next)).ahead_sublist ha sound
    rw [List.append_nil] at path
    refine List.Sublist.trans ?_ path
    cases resuming with
    | true => exact later.trans (List.sublist_append_right _ _)
    | false => exact later.append_left _

/-- The run does not stop before the node. -/
def Passes (s : Evaluation) (stop : Stop) (id : NodeId) : Prop :=
  ∀ l, s.arena.location? id = some l → stop l = false

/-- The nodes that a run came to and how it ended: it stopped before the last one, as asked, or
before none. -/
inductive Stops (s : Evaluation) (stop : Stop) : List NodeId → Outcome → Prop
  | done {ids : List NodeId} {v : Value} {b : Bindings} (passed : ∀ x ∈ ids, s.Passes stop x) :
      Stops s stop ids (.done v b)
  | failed {ids : List NodeId} {e : ExecutionError} {b : Bindings}
      (passed : ∀ x ∈ ids, s.Passes stop x) : Stops s stop ids (.failed e b)
  | paused {ids : List NodeId} {id : NodeId} {l : Location} {m : Machine} {depth : Nat}
      {rest : List Task} (passed : ∀ x ∈ ids, s.Passes stop x)
      (location : s.arena.location? id = some l) (asked : stop l = true)
      (before : m.tasks = .eval id depth :: rest) : Stops s stop (ids ++ [id]) (.paused id l m)

theorem Stops.append {s : Evaluation} {stop : Stop} {ids ids' : List NodeId} {o : Outcome}
    (h : s.Stops stop ids' o) (passed : ∀ x ∈ ids, s.Passes stop x) :
    s.Stops stop (ids ++ ids') o := by
  cases h with
  | done passed' => exact .done (List.forall_mem_append.mpr ⟨passed, passed'⟩)
  | failed passed' => exact .failed (List.forall_mem_append.mpr ⟨passed, passed'⟩)
  | paused passed' location asked before =>
    rw [← List.append_assoc]
    exact .paused (List.forall_mem_append.mpr ⟨passed, passed'⟩) location asked before

theorem passes_of_stopBefore? {s : Evaluation} {stop : Stop} {t : Task}
    (h : s.stopBefore? stop t = none) : ∀ x ∈ t.entered, s.Passes stop x := by
  intro x hx l hl
  cases t with
  | eval id depth =>
    obtain rfl := List.mem_singleton.mp hx
    by_contra asked
    rw [Bool.not_eq_false] at asked
    simp [stopBefore?, hl, Option.filter, asked] at h
  | _ => contradiction

theorem stops_run (s : Evaluation) (stop : Stop) (resuming : Bool) (m : Machine) :
    s.Stops stop (s.reached stop resuming m) (s.run stop resuming m) := by
  -- Nodes that are passed without a stop come before those of the next step.
  have passed {resuming : Bool} {t : Task}
      (h : (if resuming then none else s.stopBefore? stop t) = none) :
      ∀ x ∈ if resuming then [] else t.entered, s.Passes stop x := by
    cases resuming with
    | true => simp
    | false => exact passes_of_stopBefore? h
  fun_induction run s stop resuming m with
  | case1 resuming m ht =>
    obtain ⟨tasks, vs, b⟩ := m
    subst ht
    rw [reached_nil]
    exact .done (by simp)
  | case2 resuming m t rest ht id l hs =>
    obtain ⟨tasks, vs, b⟩ := m
    subst ht
    rw [dite_eq_ite] at hs
    cases resuming with
    | true => contradiction
    | false =>
      rw [reached_cons, hs]
      have hs : s.stopBefore? stop t = some (id, l) := hs
      obtain ⟨depth, rfl, location⟩ := before_of_stopBefore? hs
      have asked : stop l = true := by
        simp only [stopBefore?, Option.map_eq_some_iff, Option.filter_eq_some_iff] at hs
        obtain ⟨l', ⟨-, asked⟩, he⟩ := hs
        obtain ⟨-, rfl⟩ := Prod.mk.inj he
        exact asked
      simp only [Bool.false_eq_true, if_false, Task.entered, List.append_nil]
      have none : ∀ x ∈ ([] : List NodeId), s.Passes stop x := by simp
      exact .paused none location asked rfl
  | case3 resuming m t rest ht hs e hp =>
    obtain ⟨tasks, vs, b⟩ := m
    subst ht
    rw [dite_eq_ite] at hs
    rw [reached_cons, hs]
    simp only [hp]
    exact (Stops.failed (by simp)).append (passed hs)
  | case4 resuming m t rest ht hs next hp ih =>
    obtain ⟨tasks, vs, b⟩ := m
    subst ht
    rw [dite_eq_ite] at hs
    rw [reached_cons, hs]
    simp only [hp]
    exact ih.append (passed hs)

end Evaluation

/-! ## The bindings of a statement under way -/

namespace Arena

/-- The tree under a node has no assignment. -/
def Bindless (a : Arena) (id : NodeId) : Prop :=
  ∀ x ∈ a.order id, ∀ name value ty, a.node? x ≠ some (.assign name value ty)

/-- The tree under a node has no assignment but at its root. -/
def BindsLast (a : Arena) (root : NodeId) : Prop :=
  a.Bindless root ∨ ∃ name value ty, a.node? root = some (.assign name value ty) ∧ a.Bindless value

theorem Bindless.operand {a : Arena} (ha : a.Ordered) {id x : NodeId} {node : Node}
    (h : a.Bindless id) (hn : a.node? id = some node) (hx : x ∈ node.operands) :
    a.Bindless x := by
  intro y hy
  refine h y ?_
  rw [order_eq ha hn]
  exact List.mem_cons_of_mem _ (List.mem_flatMap_of_mem hx hy)

theorem Bindless.ne_assign {a : Arena} (ha : a.Ordered) {id : NodeId} (h : a.Bindless id)
    (name : String) (value : NodeId) (ty : Ty) : a.node? id ≠ some (.assign name value ty) := by
  intro hn
  have mem : id ∈ a.order id := by simp [order_eq ha hn]
  exact h id mem name value ty hn

end Arena

def Task.Bindless (a : Arena) (t : Task) : Prop :=
  (∀ name, t ≠ .assign name) ∧ ∀ x ∈ t.subjects, a.Bindless x

namespace Evaluation

open Machine

theorem Performed.bindless {s : Evaluation} (ha : s.arena.Ordered) {m next : Machine} {t : Task}
    (h : s.Performed m t next) (ht : t.Bindless s.arena) :
    next.bindings = m.bindings ∧
      ∃ ts, next.tasks = ts ++ m.tasks ∧ ∀ u ∈ ts, u.Bindless s.arena := by
  obtain ⟨other, subjects⟩ := ht
  have evaluates {x : NodeId} (depth : Nat) (hx : s.arena.Bindless x) :
      (Task.eval x depth).Bindless s.arena :=
    ⟨by simp, by simpa [Task.subjects] using hx⟩
  have popped (m : Machine) : m.popValue.2.bindings = m.bindings := by
    unfold popValue
    split <;> rfl
  cases h with
  | leaf v => exact ⟨rfl, [], rfl, by simp⟩
  | @group id inner depth node =>
    have inside := (subjects id (by simp [Task.subjects])).operand ha node
      (x := inner) (by simp [Node.operands])
    exact ⟨rfl, [.eval inner (depth + 1)], rfl, by simpa using evaluates _ inside⟩
  | @unary id operand depth op ty node =>
    have inside := (subjects id (by simp [Task.subjects])).operand ha node
      (x := operand) (by simp [Node.operands])
    refine ⟨rfl, [.eval operand (depth + 1), .unary id op], rfl, ?_⟩
    simpa using ⟨evaluates _ inside, by simp [Task.Bindless, Task.subjects]⟩
  | @assign id value depth name ty node =>
    exact absurd node ((subjects id (by simp [Task.subjects])).ne_assign ha name value ty)
  | @binary id depth n node =>
    have inside := fun x => (subjects id (by simp [Task.subjects])).operand ha node (x := x)
    refine ⟨rfl, [.eval n.left (depth + 1), .right id n depth], rfl, ?_⟩
    have left := inside n.left (by simp [Node.operands])
    have right := inside n.right (by simp [Node.operands])
    simpa using ⟨evaluates _ left, by simpa [Task.Bindless, Task.subjects] using right⟩
  | applyUnary v => exact ⟨popped m, [], by simp [pushValue], by simp⟩
  | @bind name b => exact absurd rfl (other name)
  | decided => exact ⟨rfl, [], rfl, by simp⟩
  | @undecided id n depth =>
    have right := subjects n.right (by simp [Task.subjects])
    refine ⟨rfl, [.eval n.right (depth + 1), .apply id n], rfl, ?_⟩
    simpa using ⟨evaluates _ right, by simp [Task.Bindless, Task.subjects]⟩
  | apply v =>
    exact ⟨(popped _).trans (popped m), [], by simp [pushValue], by simp⟩

/-- A statement that began with the bindings `b`: nothing binds before its last task. -/
inductive Quiet (a : Arena) (b : Bindings) : Machine → Prop
  | begin {root : NodeId} (last : a.BindsLast root) : Quiet a b (.begin root b)
  | inside {ts : List Task} {name : Option String} {vs : List Value}
      (bindless : ∀ t ∈ ts, t.Bindless a) :
      Quiet a b ⟨ts ++ (name.map Task.assign).toList, vs, b⟩
  | ended {vs : List Value} {b' : Bindings} : Quiet a b ⟨[], vs, b'⟩

theorem quiet_of_tasks {a : Arena} {b : Bindings} {m : Machine} (ts : List Task)
    (name : Option String) (tasks : m.tasks = ts ++ (name.map Task.assign).toList)
    (bindings : m.bindings = b) (bindless : ∀ t ∈ ts, t.Bindless a) : Quiet a b m := by
  obtain ⟨tasks', vs, b'⟩ := m
  obtain rfl : tasks' = _ := tasks
  obtain rfl : b' = b := bindings
  exact .inside bindless

theorem quiet_of_no_tasks {a : Arena} {b : Bindings} {m : Machine} (h : m.tasks = []) :
    Quiet a b m := by
  obtain ⟨tasks, vs, b'⟩ := m
  obtain rfl : tasks = [] := h
  exact .ended

theorem quiet_step_bindless {s : Evaluation} (ha : s.arena.Ordered) {b : Bindings} {t : Task}
    (ts : List Task) (name : Option String) {vs : List Value} {next : Machine}
    (ht : t.Bindless s.arena) (hts : ∀ u ∈ ts, u.Bindless s.arena)
    (h : s.Performed ⟨ts ++ (name.map Task.assign).toList, vs, b⟩ t next) :
    Quiet s.arena b next := by
  obtain ⟨bindings, new, tasks, bindless⟩ := h.bindless ha ht
  rw [← List.append_assoc] at tasks
  exact quiet_of_tasks _ name tasks bindings (List.forall_mem_append.mpr ⟨bindless, hts⟩)

theorem Quiet.step {s : Evaluation} (ha : s.arena.Ordered) {b b' : Bindings} {t : Task}
    {rest : List Task} {vs : List Value} {next : Machine}
    (h : Quiet s.arena b ⟨t :: rest, vs, b'⟩) (performed : s.perform t ⟨rest, vs, b'⟩ = .ok next) :
    Quiet s.arena b next := by
  have performed := performed_of_perform performed
  generalize hm : (⟨t :: rest, vs, b'⟩ : Machine) = m at h
  cases h with
  | @begin root last =>
    obtain ⟨tasks, rfl, rfl⟩ := Machine.mk.inj hm
    obtain ⟨rfl, rfl⟩ := List.cons.inj tasks
    rcases last with bindless | ⟨name, value, ty, node, bindless⟩
    · have ht : (Task.eval root 0).Bindless s.arena :=
        ⟨by simp, by simpa [Task.subjects] using bindless⟩
      exact quiet_step_bindless ha [] none ht (by simp) performed
    · cases performed with
      | leaf v => exact .ended
      | group node' | unary node' | binary node' =>
        rw [node] at node'
        cases node'
      | assign node' =>
        rw [node] at node'
        cases node'
        have inside : (Task.eval value 1).Bindless s.arena :=
          ⟨by simp, by simpa [Task.subjects] using bindless⟩
        exact quiet_of_tasks [.eval value 1] (some name) rfl rfl (by simpa using inside)
  | @inside ts name vs' bindless =>
    obtain ⟨tasks, rfl, rfl⟩ := Machine.mk.inj hm
    cases ts with
    | nil =>
      cases name with
      | none => contradiction
      | some name =>
        obtain ⟨rfl, rfl⟩ := List.cons.inj tasks
        cases performed with
        | bind b'' => exact quiet_of_no_tasks (Machine.tasks_popValue ⟨[], vs, b'⟩)
    | cons t' ts =>
      obtain ⟨rfl, rfl⟩ := List.cons.inj tasks
      rw [List.forall_mem_cons] at bindless
      exact quiet_step_bindless ha ts name bindless.1 bindless.2 performed
  | ended =>
    obtain ⟨tasks, -, -⟩ := Machine.mk.inj hm
    contradiction

theorem Quiet.path {s : Evaluation} (ha : s.arena.Ordered) {b : Bindings} {m last : Machine}
    {ids : List NodeId} (h : Quiet s.arena b m) (path : s.Path m ids last) :
    Quiet s.arena b last := by
  induction path with
  | here => exact h
  | step performed _ ih => exact ih (h.step ha performed)

theorem Quiet.bindings_eq {a : Arena} {b : Bindings} {m : Machine} (h : Quiet a b m)
    {t : Task} {rest : List Task} (ht : m.tasks = t :: rest) : m.bindings = b := by
  cases h with
  | begin | inside => rfl
  | ended => contradiction

end Evaluation

end Scriptlet
