import Scriptlet.Eval.Machine

/-!
# Evaluation by recursion

`valueAt` evaluates a node by recursion on its operands, without a stack. A machine that is about
to evaluate a node follows a `Path` to where the recursion ends: with the value on its stack, or
stopped by the error, and with the same bindings. Hence `eval_eq_valueAt`.
-/
namespace Scriptlet

namespace Task

/-- The node that a task begins to evaluate. -/
def entered : Task → List NodeId
  | .eval id _ => [id]
  | _ => []

end Task

namespace Evaluation

/-- A value or an error, and the bindings afterwards. -/
abbrev Answer := Except ExecutionError Value × Bindings

/-- Goes on with a value; an error stays. -/
def Answer.andThen (r : Answer) (next : Value → Bindings → Answer) : Answer :=
  match r with
  | (.ok v, b) => next v b
  | (.error e, b) => (.error e, b)

/-- A result of the kernel, its error at a node. -/
def located (s : Evaluation) (id : NodeId) (r : Kernel.Result) : Except ExecutionError Value :=
  r.mapError fun e => s.failAt id (.runtime e)

/-- The value of a node at a depth. The depth is checked first, the left operand comes before the
right one, and a left operand that decides a conjunction or disjunction is its value. -/
def valueAt (s : Evaluation) (id : NodeId) (depth : Nat) (b : Bindings) : Answer :=
  if _h : depth < s.maxDepth then
    match s.arena.node? id with
    | none => (.ok .null, b)
    | some (.literal value _) => (.ok value, b)
    | some (.variable name _) =>
      match b.get? name with
      | some value => (.ok value, b)
      | none => (.error (s.failAt id (.runtime (.unboundVariable name))), b)
    | some (.group inner) => s.valueAt inner (depth + 1) b
    | some (.unary op operand _) =>
      (s.valueAt operand (depth + 1) b).andThen fun v b =>
        (s.located id (Kernel.applyUnary op v), b)
    | some (.assign name value _) =>
      (s.valueAt value (depth + 1) b).andThen fun v b => (.ok v, b.set name v)
    | some (.binary n) =>
      match s.mode with
      | .interpreted => (.error (s.failAt id (.unsupported "binary operation")), b)
      | .accelerated =>
        (s.valueAt n.left (depth + 1) b).andThen fun left b =>
          if decided n.op (some left) then (.ok left, b)
          else
            (s.valueAt n.right (depth + 1) b).andThen fun right b =>
              (s.located id (s.applyBinary n left right), b)
  else (.error (s.failAt id (.tooDeep depth s.maxDepth)), b)
termination_by s.maxDepth - depth

section Equations

variable {s : Evaluation} {id : NodeId} {depth : Nat} {b : Bindings}

theorem valueAt_deep (hd : ¬ depth < s.maxDepth) :
    s.valueAt id depth b = (.error (s.failAt id (.tooDeep depth s.maxDepth)), b) := by
  rw [valueAt, dif_neg hd]

theorem valueAt_literal {v : Value} {ty : Ty} (hd : depth < s.maxDepth)
    (hn : s.arena.node? id = some (.literal v ty)) : s.valueAt id depth b = (.ok v, b) := by
  rw [valueAt, dif_pos hd, hn]

theorem valueAt_variable {name : String} {ty : Ty} (hd : depth < s.maxDepth)
    (hn : s.arena.node? id = some (.variable name ty)) :
    s.valueAt id depth b =
      match b.get? name with
      | some v => (.ok v, b)
      | none => (.error (s.failAt id (.runtime (.unboundVariable name))), b) := by
  rw [valueAt, dif_pos hd, hn]

theorem valueAt_group {inner : NodeId} (hd : depth < s.maxDepth)
    (hn : s.arena.node? id = some (.group inner)) :
    s.valueAt id depth b = s.valueAt inner (depth + 1) b := by
  rw [valueAt, dif_pos hd, hn]

theorem valueAt_unary {op : UnaryOp} {operand : NodeId} {ty : Ty} (hd : depth < s.maxDepth)
    (hn : s.arena.node? id = some (.unary op operand ty)) :
    s.valueAt id depth b =
      (s.valueAt operand (depth + 1) b).andThen fun v b =>
        (s.located id (Kernel.applyUnary op v), b) := by
  rw [valueAt, dif_pos hd, hn]

theorem valueAt_assign {name : String} {value : NodeId} {ty : Ty} (hd : depth < s.maxDepth)
    (hn : s.arena.node? id = some (.assign name value ty)) :
    s.valueAt id depth b =
      (s.valueAt value (depth + 1) b).andThen fun v b => (.ok v, b.set name v) := by
  rw [valueAt, dif_pos hd, hn]

theorem valueAt_interpreted {n : BinaryNode} (hd : depth < s.maxDepth)
    (hn : s.arena.node? id = some (.binary n)) (hm : s.mode = .interpreted) :
    s.valueAt id depth b = (.error (s.failAt id (.unsupported "binary operation")), b) := by
  rw [valueAt, dif_pos hd, hn]
  simp only [hm]

theorem valueAt_binary {n : BinaryNode} (hd : depth < s.maxDepth)
    (hn : s.arena.node? id = some (.binary n)) (hm : s.mode = .accelerated) :
    s.valueAt id depth b =
      (s.valueAt n.left (depth + 1) b).andThen fun left b =>
        if decided n.op (some left) then (.ok left, b)
        else
          (s.valueAt n.right (depth + 1) b).andThen fun right b =>
            (s.located id (s.applyBinary n left right), b) := by
  rw [valueAt, dif_pos hd, hn]
  simp only [hm]

end Equations

/-! ## Paths of the machine -/

/-- The machine gets from one state to another; the nodes it enters on the way, in order. -/
inductive Path (s : Evaluation) : Machine → List NodeId → Machine → Prop
  | here (m : Machine) : Path s m [] m
  | step {t : Task} {rest : List Task} {vs : List Value} {b : Bindings} {next last : Machine}
      {ids : List NodeId} (performed : s.perform t ⟨rest, vs, b⟩ = .ok next)
      (path : Path s next ids last) : Path s ⟨t :: rest, vs, b⟩ (t.entered ++ ids) last

/-- The next step of the machine fails. -/
def Stuck (s : Evaluation) (m : Machine) (e : ExecutionError) : Prop :=
  ∃ t rest, m.tasks = t :: rest ∧ s.perform t { m with tasks := rest } = .error e

theorem Path.trans {s : Evaluation} {m m' last : Machine} {ids ids' : List NodeId}
    (h : s.Path m ids m') (k : s.Path m' ids' last) : s.Path m (ids ++ ids') last := by
  induction h with
  | here => exact k
  | step performed _ ih =>
    rw [List.append_assoc]
    exact .step performed (ih k)

/-- The machine comes to the answer: to its value on top of the values, or to its error. -/
def Ends (s : Evaluation) (m : Machine) (ts : List Task) (vs : List Value) : Answer → Prop
  | (.ok v, b) => ∃ ids, s.Path m ids ⟨ts, v :: vs, b⟩
  | (.error e, b) => ∃ ids last, s.Path m ids last ∧ s.Stuck last e ∧ last.bindings = b

theorem Ends.of_path {s : Evaluation} {m m' : Machine} {ids : List NodeId} {ts : List Task}
    {vs : List Value} {r : Answer} (h : s.Path m ids m') (k : s.Ends m' ts vs r) :
    s.Ends m ts vs r := by
  obtain ⟨v | e, b⟩ := r
  · obtain ⟨ids', last, hp, hs, hb⟩ := k
    exact ⟨_, last, h.trans hp, hs, hb⟩
  · obtain ⟨ids', hp⟩ := k
    exact ⟨_, h.trans hp⟩

theorem Ends.step {s : Evaluation} {t : Task} {rest : List Task} {vs : List Value} {b : Bindings}
    {next : Machine} {ts : List Task} {us : List Value} {r : Answer}
    (h : s.perform t ⟨rest, vs, b⟩ = .ok next) (k : s.Ends next ts us r) :
    s.Ends ⟨t :: rest, vs, b⟩ ts us r :=
  .of_path (.step h (.here next)) k

theorem Ends.failure {s : Evaluation} {t : Task} {rest : List Task} {vs : List Value}
    {b : Bindings} {e : ExecutionError} {ts : List Task} {us : List Value}
    (h : s.perform t ⟨rest, vs, b⟩ = .error e) :
    s.Ends ⟨t :: rest, vs, b⟩ ts us (.error e, b) :=
  ⟨[], _, .here _, ⟨t, rest, rfl, h⟩, rfl⟩

/-- Two evaluations in a row: the first one leaves its value for the second one. -/
theorem Ends.andThen {s : Evaluation} {m : Machine} {ts ts' : List Task} {vs vs' : List Value}
    {r : Answer} {next : Value → Bindings → Answer} (h : s.Ends m ts vs r)
    (k : ∀ v b, s.Ends ⟨ts, v :: vs, b⟩ ts' vs' (next v b)) :
    s.Ends m ts' vs' (r.andThen next) := by
  obtain ⟨e | v, b⟩ := r
  · exact h
  · obtain ⟨ids, hp⟩ := h
    exact .of_path hp (k v b)

theorem Ends.pushResult {s : Evaluation} {t : Task} {id : NodeId} {ts : List Task}
    {vs us : List Value} {b : Bindings} {r : Kernel.Result}
    (h : s.perform t ⟨ts, vs, b⟩ = s.pushResult id r ⟨ts, us, b⟩) :
    s.Ends ⟨t :: ts, vs, b⟩ ts us (s.located id r, b) := by
  cases r with
  | ok v => exact .step h ⟨[], .here _⟩
  | error e => exact .failure h

/-- The machine evaluates a node as the recursion does. -/
theorem ends_valueAt (s : Evaluation) (id : NodeId) (depth : Nat) (b : Bindings) (ts : List Task)
    (vs : List Value) :
    s.Ends ⟨.eval id depth :: ts, vs, b⟩ ts vs (s.valueAt id depth b) := by
  -- Along the recursion of `valueAt`, whose measure is the room that the limit leaves.
  induction hk : s.maxDepth - depth using Nat.strongRecOn generalizing id depth b ts vs with
  | ind k ih =>
    subst hk
    have enter (h : depth < s.maxDepth) :
        s.perform (.eval id depth) ⟨ts, vs, b⟩ = s.enterNode id depth ⟨ts, vs, b⟩ := if_pos h
    rw [valueAt]
    split
    · rename_i hd
      have operand (x : NodeId) (b : Bindings) (ts : List Task) (vs : List Value) :
          s.Ends ⟨.eval x (depth + 1) :: ts, vs, b⟩ ts vs (s.valueAt x (depth + 1) b) :=
        ih (s.maxDepth - (depth + 1)) (by omega) x (depth + 1) b ts vs rfl
      have enter := enter hd
      simp only [enterNode] at enter
      split <;> rename_i hn <;> simp only [hn] at enter
      · exact .step enter ⟨[], .here _⟩
      · exact .step enter ⟨[], .here _⟩
      · split <;> rename_i hv <;> simp only [hv] at enter
        · exact .step enter ⟨[], .here _⟩
        · exact .failure enter
      · exact .step enter (operand _ _ _ _)
      · exact .step enter ((operand _ _ _ _).andThen fun v b => .pushResult rfl)
      · exact .step enter ((operand _ _ _ _).andThen fun v b => .step rfl ⟨[], .here _⟩)
      · split <;> rename_i hm <;> simp only [hm] at enter
        · exact .failure enter
        · refine .step enter ((operand _ _ _ _).andThen fun left b => ?_)
          split
          · rename_i hdec
            exact .step (if_pos hdec) ⟨[], .here _⟩
          · rename_i hdec
            exact .step (if_neg hdec) ((operand _ _ _ _).andThen fun right b => .pushResult rfl)
    · rename_i hd
      exact .failure (if_neg hd)

/-! ## Runs to the end -/

theorem run_nil (s : Evaluation) (stop : Stop) (resuming : Bool) (v : Value) (vs : List Value)
    (b : Bindings) : s.run stop resuming ⟨[], v :: vs, b⟩ = .done v b := by
  rw [run]
  rfl

theorem run_cons (s : Evaluation) (stop : Stop) (resuming : Bool) (t : Task) (rest : List Task)
    (vs : List Value) (b : Bindings) :
    s.run stop resuming ⟨t :: rest, vs, b⟩ =
      match if resuming then none else s.stopBefore? stop t with
      | some (id, l) => .paused id l ⟨t :: rest, vs, b⟩
      | none =>
        match s.perform t ⟨rest, vs, b⟩ with
        | .error e => .failed e b
        | .ok next => s.run stop false next := by
  rw [run]
  split
  · contradiction
  · rename_i t' rest' h
    obtain ⟨rfl, rfl⟩ := List.cons.inj h
    cases if resuming = true then none else s.stopBefore? stop t with
    | some pause => rfl
    | none =>
      simp only
      split <;> rename_i hp <;> simp only [hp]

theorem stopBefore?_nowhere (s : Evaluation) (t : Task) : s.stopBefore? nowhere t = none := by
  cases t with
  | eval id depth => cases h : s.arena.location? id <;> simp [stopBefore?, h, nowhere]
  | _ => rfl

theorem run_nowhere_cons (s : Evaluation) (resuming : Bool) (t : Task) (rest : List Task)
    (vs : List Value) (b : Bindings) :
    s.run nowhere resuming ⟨t :: rest, vs, b⟩ =
      match s.perform t ⟨rest, vs, b⟩ with
      | .error e => .failed e b
      | .ok next => s.run nowhere false next := by
  rw [run_cons, stopBefore?_nowhere, ite_self]

theorem run_path {s : Evaluation} {m last : Machine} {ids : List NodeId} (h : s.Path m ids last) :
    s.run nowhere false m = s.run nowhere false last := by
  induction h with
  | here => rfl
  | step performed _ ih => rw [run_nowhere_cons, performed, ← ih]

theorem run_stuck {s : Evaluation} {m : Machine} {e : ExecutionError} (h : s.Stuck m e) :
    s.run nowhere false m = .failed e m.bindings := by
  obtain ⟨tasks, vs, b⟩ := m
  obtain ⟨t, rest, rfl, hp⟩ := h
  rw [run_nowhere_cons]
  exact hp ▸ rfl

/-- How a run ends, as an answer. -/
def Outcome.answer : Outcome → Answer
  | .done v b => (.ok v, b)
  | .failed e b => (.error e, b)
  | .paused _ _ m => (.ok .null, m.bindings)

theorem Ends.run_answer {s : Evaluation} {m : Machine} {vs : List Value} {r : Answer}
    (h : s.Ends m [] vs r) : (s.run nowhere false m).answer = r := by
  obtain ⟨e | v, b⟩ := r
  · obtain ⟨ids, last, hp, hs, rfl⟩ := h
    rw [run_path hp, run_stuck hs]
    rfl
  · obtain ⟨ids, hp⟩ := h
    rw [run_path hp, run_nil]
    rfl

/-- The machine with its stacks evaluates a node as the recursion does. -/
theorem eval_eq_valueAt (s : Evaluation) (id : NodeId) (b : Bindings) :
    s.eval id b = s.valueAt id 0 b := by
  rw [← (s.ends_valueAt id 0 b [] []).run_answer]
  simp only [eval, Machine.begin]
  split <;> rename_i h <;> rw [h] <;> rfl

/-! ## Statements that are begun -/

/-- Running statements begins the statement `root` with the bindings given last. -/
inductive Comes (s : Evaluation) : List NodeId → Bindings → NodeId → Bindings → Prop
  | here {root : NodeId} {rest : List NodeId} {b : Bindings} : Comes s (root :: rest) b root b
  | later {id root : NodeId} {rest : List NodeId} {b b' b'' : Bindings} {v : Value}
      (done : s.eval id b = (.ok v, b')) (comes : Comes s rest b' root b'') :
      Comes s (id :: rest) b root b''

theorem Comes.mem {s : Evaluation} {roots : List NodeId} {b b' : Bindings} {root : NodeId}
    (h : s.Comes roots b root b') : root ∈ roots := by
  induction h with
  | here => exact List.mem_cons_self
  | later _ _ ih => exact List.mem_cons_of_mem _ ih

end Evaluation

end Scriptlet
