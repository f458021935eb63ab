import Scriptlet.Eval.Bindings
import Scriptlet.Eval.Error
import Scriptlet.Kernel.Apply
import Scriptlet.Node.Arena

/-!
# The evaluation machine

Trees are evaluated by a machine with a stack of tasks and a stack of values, so the height of a
tree is bounded by a limit and never by the native stack. The machine can stop before a node and
go on later.

`weight` bounds the number of steps that are left: it shrinks with every step, so every run
ends.
-/
namespace Scriptlet

/-- How binary operations are evaluated. -/
inductive EvaluationMode where
  | accelerated
  /-- Binary operations are refused. -/
  | interpreted
  deriving DecidableEq, Repr, Inhabited

/-- What an evaluation reads and never changes. -/
structure Evaluation where
  arena : Arena
  conversions : ConversionRegistry
  /-- Nodes at this depth are not evaluated. -/
  maxDepth : Nat
  mode : EvaluationMode

/-- Work that is left. Every task leaves one more value than it takes. -/
inductive Task where
  | eval (id : NodeId) (depth : Nat)
  /-- Apply a prefix operator to the last value. -/
  | unary (id : NodeId) (op : UnaryOp)
  /-- Bind the last value. -/
  | assign (name : String)
  /-- The left operand is the last value. -/
  | right (id : NodeId) (b : BinaryNode) (depth : Nat)
  /-- Both operands are the last values. -/
  | apply (id : NodeId) (b : BinaryNode)

/-- The state of an evaluation. -/
structure Machine where
  tasks : List Task
  /-- Values of finished tasks, the last one first. -/
  values : List Value
  bindings : Bindings
  deriving Inhabited

namespace Machine

/-- Before the evaluation of a node. -/
def begin (id : NodeId) (bindings : Bindings) : Machine := ⟨[.eval id 0], [], bindings⟩

def pushTask (m : Machine) (t : Task) : Machine := { m with tasks := t :: m.tasks }

def pushValue (m : Machine) (v : Value) : Machine := { m with values := v :: m.values }

/-- The last value and the others. -/
def popValue (m : Machine) : Value × Machine :=
  match m.values with
  | v :: rest => (v, { m with values := rest })
  | [] => (.null, m)

end Machine

namespace Evaluation

/-- A step succeeds or fails at a node. -/
abbrev Stepped := Except ExecutionError Machine

def failAt (s : Evaluation) (id : NodeId) (kind : ExecutionErrorKind) : ExecutionError :=
  ⟨kind, s.arena.span? id⟩

/-- Leaves push their value, other nodes schedule their operands. -/
def enterNode (s : Evaluation) (id : NodeId) (depth : Nat) (m : Machine) : Stepped :=
  match s.arena.node? id with
  | none => .ok (m.pushValue .null)
  | some (.literal value _) => .ok (m.pushValue value)
  | some (.variable name _) =>
    match m.bindings.get? name with
    | some value => .ok (m.pushValue value)
    | none => .error (s.failAt id (.runtime (.unboundVariable name)))
  | some (.group inner) => .ok (m.pushTask (.eval inner (depth + 1)))
  | some (.unary op operand _) =>
    .ok ((m.pushTask (.unary id op)).pushTask (.eval operand (depth + 1)))
  | some (.assign name value _) =>
    .ok ((m.pushTask (.assign name)).pushTask (.eval value (depth + 1)))
  | some (.binary b) =>
    match s.mode with
    | .interpreted => .error (s.failAt id (.unsupported "binary operation"))
    | .accelerated => .ok ((m.pushTask (.right id b depth)).pushTask (.eval b.left (depth + 1)))

/-- Starts the evaluation of a node, if it is not too deep. -/
def enter (s : Evaluation) (id : NodeId) (depth : Nat) (m : Machine) : Stepped :=
  if depth < s.maxDepth then s.enterNode id depth m
  else .error (s.failAt id (.tooDeep depth s.maxDepth))

/-- The result of the kernel, or its error at a node. -/
def pushResult (s : Evaluation) (id : NodeId) (r : Kernel.Result) (m : Machine) : Stepped :=
  match r with
  | .ok v => .ok (m.pushValue v)
  | .error e => .error (s.failAt id (.runtime e))

/-- The left operand decides a conjunction or disjunction alone. -/
def decided (op : Operator) : Option Value → Bool
  | some (.boolean b) => (op == .and && !b) || (op == .or && b)
  | _ => false

/-- A binary operation on two values under the tags of its node. -/
def applyBinary (s : Evaluation) (b : BinaryNode) (left right : Value) : Kernel.Result :=
  Kernel.apply s.conversions b.op (b.leftTag.resolve left) left (b.rightTag.resolve right) right

/-- Performs a task that was taken from the stack. -/
def perform (s : Evaluation) (t : Task) (m : Machine) : Stepped :=
  match t with
  | .eval id depth => s.enter id depth m
  | .unary id op =>
    s.pushResult id (Kernel.applyUnary op m.popValue.1) m.popValue.2
  | .assign name =>
    let rest := { m.popValue.2 with bindings := m.bindings.set name m.popValue.1 }
    .ok (rest.pushValue m.popValue.1)
  | .right id b depth =>
    if decided b.op m.values.head? then .ok m
    else .ok ((m.pushTask (.apply id b)).pushTask (.eval b.right (depth + 1)))
  | .apply id b =>
    let left := m.popValue.2.popValue
    s.pushResult id (s.applyBinary b left.1 m.popValue.1) left.2

/-- A bound on the steps that a task leads to. -/
def taskWeight (s : Evaluation) : Task → Nat
  | .eval _ depth => 4 * 2 ^ (s.maxDepth - depth) - 3
  | .right _ _ depth => 4 * 2 ^ (s.maxDepth - (depth + 1)) - 1
  | .unary .. | .assign _ | .apply .. => 1

/-- A bound on the steps that are left. -/
def weight (s : Evaluation) (m : Machine) : Nat := m.tasks.foldr (s.taskWeight · + ·) 0

theorem taskWeight_pos (s : Evaluation) (t : Task) : 0 < s.taskWeight t := by
  cases t with
  | eval id depth =>
    have := Nat.two_pow_pos (s.maxDepth - depth)
    simp only [taskWeight]
    omega
  | right id b depth =>
    have := Nat.two_pow_pos (s.maxDepth - (depth + 1))
    simp only [taskWeight]
    omega
  | _ => simp [taskWeight]

/-- The power of two at a depth is twice the one below. -/
theorem two_pow_depth {limit depth : Nat} (h : depth < limit) :
    2 ^ (limit - depth) = 2 * 2 ^ (limit - (depth + 1)) := by
  rw [show limit - depth = limit - (depth + 1) + 1 by omega, Nat.pow_succ, Nat.mul_comm]

theorem weight_pushTask (s : Evaluation) (m : Machine) (t : Task) :
    s.weight (m.pushTask t) = s.taskWeight t + s.weight m := by
  simp [weight, Machine.pushTask]

@[simp] theorem weight_pushValue (s : Evaluation) (m : Machine) (v : Value) :
    s.weight (m.pushValue v) = s.weight m := rfl

@[simp] theorem weight_popValue (s : Evaluation) (m : Machine) :
    s.weight m.popValue.2 = s.weight m := by
  unfold Machine.popValue
  split <;> rfl

theorem weight_enter {s : Evaluation} {id : NodeId} {depth : Nat} {m next : Machine}
    (h : s.enter id depth m = .ok next) :
    s.weight next < s.taskWeight (.eval id depth) + s.weight m := by
  unfold enter at h
  split at h
  · rename_i hd
    have hp := two_pow_depth hd
    have hpos := Nat.two_pow_pos (s.maxDepth - (depth + 1))
    unfold enterNode at h
    split at h
    all_goals try split at h
    all_goals try contradiction
    all_goals
      simp only [Except.ok.injEq] at h
      subst h
      simp only [weight_pushTask, weight_pushValue, taskWeight, hp]
      omega
  · contradiction

theorem weight_pushResult {s : Evaluation} {id : NodeId} {r : Kernel.Result} {m next : Machine}
    (h : s.pushResult id r m = .ok next) : s.weight next = s.weight m := by
  unfold pushResult at h
  split at h
  · simp only [Except.ok.injEq] at h
    subst h
    rfl
  · contradiction

/-- Every step brings the end nearer. -/
theorem weight_perform {s : Evaluation} {t : Task} {m next : Machine}
    (h : s.perform t m = .ok next) : s.weight next < s.taskWeight t + s.weight m := by
  cases t with
  | eval id depth => exact weight_enter h
  | unary id op =>
    have hw : s.weight next = s.weight m.popValue.2 := weight_pushResult h
    rw [hw, weight_popValue]
    simp only [taskWeight]
    omega
  | assign name =>
    simp only [perform, Except.ok.injEq] at h
    subst h
    have := s.weight_popValue m
    simp only [weight_pushValue, taskWeight]
    simp only [weight] at this ⊢
    omega
  | right id b depth =>
    simp only [perform] at h
    split at h
    · simp only [Except.ok.injEq] at h
      subst h
      have := s.taskWeight_pos (.right id b depth)
      omega
    · simp only [Except.ok.injEq] at h
      subst h
      simp only [weight_pushTask, taskWeight]
      have hpos := Nat.two_pow_pos (s.maxDepth - (depth + 1))
      omega
  | apply id b =>
    have hw : s.weight next = s.weight m.popValue.2.popValue.2 := weight_pushResult h
    rw [hw, weight_popValue, weight_popValue]
    simp only [taskWeight]
    omega

/-- How a run of the machine ends. -/
inductive Outcome where
  | done (value : Value) (bindings : Bindings)
  | failed (e : ExecutionError) (bindings : Bindings)
  /-- Stopped before a located node, which the next run evaluates. -/
  | paused (id : NodeId) (l : Location) (m : Machine)

/-- Where the machine is asked to stop: at the locations that pass a test. -/
abbrev Stop := Location → Bool

/-- The place to stop before a task, if it is the evaluation of a node at such a location. -/
def stopBefore? (s : Evaluation) (stop : Stop) : Task → Option (NodeId × Location)
  | .eval id _ => ((s.arena.location? id).filter stop).map fun l => (id, l)
  | _ => none

/-- Runs the machine until it has no task left, fails, or is asked to stop; `resuming` lets it
pass the first task. -/
def run (s : Evaluation) (stop : Stop) (resuming : Bool) (m : Machine) : Outcome :=
  match _h : m.tasks with
  | [] => .done m.popValue.1 m.bindings
  | t :: rest =>
    match if resuming then none else s.stopBefore? stop t with
    | some (id, l) => .paused id l m
    | none =>
      match _hp : s.perform t { m with tasks := rest } with
      | .error e => .failed e m.bindings
      | .ok next => s.run stop false next
termination_by s.weight m
decreasing_by
  have hw := weight_perform _hp
  have hm : s.weight m = s.taskWeight t + s.weight { m with tasks := rest } := by
    simp [weight, _h]
  omega

/-- Never stop. -/
def nowhere : Stop := fun _ => false

/-- The value of a node or the error, and the bindings afterwards. -/
def eval (s : Evaluation) (id : NodeId) (bindings : Bindings) :
    Except ExecutionError Value × Bindings :=
  match s.run nowhere false (.begin id bindings) with
  | .done v b => (.ok v, b)
  | .failed e b => (.error e, b)
  | .paused _ _ m => (.ok .null, m.bindings)

/-- Evaluates statements in order, after the value `last`. -/
def evalFrom (s : Evaluation) (last : Value) : List NodeId → Bindings →
    Except ExecutionError Value × Bindings
  | [], b => (.ok last, b)
  | id :: rest, b =>
    match s.eval id b with
    | (.ok v, b) => s.evalFrom v rest b
    | (.error e, b) => (.error e, b)

/-- Evaluates statements in order. The result is the value of the last one, or null if there is
none. -/
def evalAll (s : Evaluation) (roots : List NodeId) (b : Bindings) :
    Except ExecutionError Value × Bindings :=
  s.evalFrom .null roots b

end Evaluation

end Scriptlet
