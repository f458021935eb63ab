import Scriptlet.Proofs.Debug.Visits
import Scriptlet.Proofs.Eval.Exact

/-!
# Statements are atomic

An expression never binds, however it ends, and an assignment binds its name when its value is
known, as the last thing it does. So a statement that fails leaves the bindings as they were, and
a run that fails leaves those that the statements before the failing one made.
-/
namespace Scriptlet

/-- The bindings after a statement whose value is `v`. -/
def Grammar.Statement.effect (v : Value) (b : Bindings) : Statement → Bindings
  | .expression _ => b
  | .assignment name _ _ => b.set (String.ofList name) v

namespace Evaluation

/-- The statement under a root has its whole effect or none. -/
structure Atomic (s : Evaluation) (root : NodeId) (statement : Grammar.Statement) : Prop where
  completes : ∀ b v b', s.eval root b = (.ok v, b') → b' = statement.effect v b
  fails : ∀ b e b', s.eval root b = (.error e, b') → b' = b

variable {s : Evaluation} {roots rest : List NodeId} {root : NodeId} {b b' b'' : Bindings}
  {last v : Value} {e : ExecutionError}

theorem Answer.bindings_andThen {r : Answer} {next : Value → Bindings → Answer} (h : r.2 = b)
    (k : ∀ v, (next v b).2 = b) : (r.andThen next).2 = b := by
  obtain ⟨e | v, b'⟩ := r
  · exact h
  · obtain rfl : b' = b := h
    exact k v

/-- A tree without assignments leaves the bindings, whether it has a value or fails. -/
theorem bindings_valueAt (ha : s.arena.Ordered) {id : NodeId} (h : s.arena.Bindless id)
    (depth : Nat) (b : Bindings) : (s.valueAt id depth b).2 = b := by
  -- Along the recursion of `valueAt`, whose measure is the room that the limit leaves.
  induction hk : s.maxDepth - depth using Nat.strongRecOn generalizing id depth with
  | ind k ih =>
    subst hk
    by_cases hd : depth < s.maxDepth
    · cases hn : s.arena.node? id with
      | none => rw [valueAt, dif_pos hd, hn]
      | some node =>
        have below (x : NodeId) (hx : x ∈ node.operands) :
            (s.valueAt x (depth + 1) b).2 = b :=
          ih (s.maxDepth - (depth + 1)) (by omega) (h.operand ha hn hx) (depth + 1) rfl
        cases node with
        | literal v ty => rw [valueAt_literal hd hn]
        | «variable» name ty =>
          rw [valueAt_variable hd hn]
          cases b.get? name <;> rfl
        | group inner =>
          rw [valueAt_group hd hn]
          exact below inner (by simp [Node.operands])
        | unary op operand ty =>
          rw [valueAt_unary hd hn]
          exact Answer.bindings_andThen (below operand (by simp [Node.operands])) fun _ => rfl
        | assign name value ty => exact absurd hn (h.ne_assign ha name value ty)
        | binary n =>
          have left := below n.left (by simp [Node.operands])
          have right := below n.right (by simp [Node.operands])
          cases hm : s.mode with
          | interpreted => rw [valueAt_interpreted hd hn hm]
          | accelerated =>
            rw [valueAt_binary hd hn hm]
            refine Answer.bindings_andThen left fun l => ?_
            by_cases hdec : decided n.op (some l) = true
            · rw [if_pos hdec]
            · rw [if_neg hdec]
              exact Answer.bindings_andThen right fun _ => rfl
    · rw [valueAt_deep hd]

theorem bindings_of_eval (ha : s.arena.Ordered) (h : s.arena.Bindless root)
    {r : Except ExecutionError Value} (ended : s.eval root b = (r, b')) : b' = b := by
  have kept := bindings_valueAt ha h 0 b
  rwa [← eval_eq_valueAt, ended] at kept

/-- An assignment that has its value binds its own name. -/
theorem bindings_of_assigned (ha : s.arena.Ordered) {name : String} {value : NodeId} {ty : Ty}
    (node : s.arena.node? root = some (.assign name value ty)) (h : s.arena.Bindless value)
    (completed : s.eval root b = (.ok v, b')) : b' = b.set name v := by
  rw [eval_eq_valueAt] at completed
  obtain ⟨b₁, hv, rfl⟩ := valueAt_assign_ok node completed
  have kept := bindings_valueAt ha h 1 b
  rw [hv] at kept
  obtain rfl : b₁ = b := kept
  rfl

/-- A statement that fails leaves the bindings. -/
theorem bindings_of_failed (ha : s.arena.Ordered) (h : s.arena.BindsLast root)
    (failed : s.eval root b = (.error e, b')) : b' = b := by
  rcases h with bindless | ⟨name, value, ty, node, bindless⟩
  · exact bindings_of_eval ha bindless failed
  · rw [eval_eq_valueAt] at failed
    by_cases hd : 0 < s.maxDepth
    · have kept := bindings_valueAt ha bindless 1 b
      rw [valueAt_assign hd node] at failed
      generalize s.valueAt value (0 + 1) b = r at failed kept
      obtain ⟨e' | v, b₁⟩ := r
      · obtain ⟨-, rfl⟩ := Prod.mk.inj failed
        exact kept
      · have value := (Prod.mk.inj failed).1
        contradiction
    · rw [valueAt_deep hd] at failed
      exact (Prod.mk.inj failed).2.symm

theorem atomic_of_shows {ctx : BuildContext} {statement : Grammar.Statement}
    (ha : s.arena.Ordered) (h : s.arena.ShowsStatement ctx root statement) :
    s.Atomic root statement := by
  refine ⟨fun b v b' completed => ?_, fun b e b' => bindings_of_failed ha (h.bindsLast ha)⟩
  cases h with
  | expression shows => exact bindings_of_eval ha (shows.bindless ha) completed
  | assignment node shows => exact bindings_of_assigned ha node (shows.bindless ha) completed

/-! ## Runs of statements -/

/-- A run of `roots` from the bindings `b` has `rest` left: the statements before gave the value
`last` and made the bindings `b'`. -/
def Leaves (s : Evaluation) (roots : List NodeId) (b : Bindings) (rest : List NodeId)
    (last : Value) (b' : Bindings) : Prop :=
  ∃ done, roots = done ++ rest ∧ s.evalAll done b = (.ok last, b')

/-- Nothing is left, or a statement fails on the bindings that those before it made, and leaves
them. -/
inductive Settles (s : Evaluation) (roots : List NodeId) (b : Bindings) : Answer → Prop
  | value {v : Value} {b' : Bindings} (all : s.Leaves roots b [] v b') :
      Settles s roots b (.ok v, b')
  | failure {root : NodeId} {rest : List NodeId} {last : Value} {b' : Bindings}
      {e : ExecutionError} (leaves : s.Leaves roots b (root :: rest) last b')
      (fails : s.eval root b' = (.error e, b')) : Settles s roots b (.error e, b')

theorem evalFrom_append (s : Evaluation) (last : Value) (done rest : List NodeId) (b : Bindings) :
    s.evalFrom last (done ++ rest) b =
      Answer.andThen (s.evalFrom last done b) fun v b => s.evalFrom v rest b := by
  induction done generalizing last b with
  | nil => rfl
  | cons id done ih =>
    rw [List.cons_append, evalFrom_cons, evalFrom_cons]
    obtain ⟨e | v, b'⟩ := s.valueAt id 0 b
    · rfl
    · exact ih v b'

theorem Leaves.start (s : Evaluation) (roots : List NodeId) (b : Bindings) :
    s.Leaves roots b roots .null b :=
  ⟨[], rfl, rfl⟩

theorem Leaves.next (h : s.Leaves roots b (root :: rest) last b')
    (completed : s.eval root b' = (.ok v, b'')) : s.Leaves roots b rest v b'' := by
  obtain ⟨done, rfl, before⟩ := h
  refine ⟨done ++ [root], by rw [List.append_assoc]; rfl, ?_⟩
  have single : s.evalFrom last [root] b' = (.ok v, b'') := by
    rw [evalFrom, completed]
    rfl
  rw [evalAll] at before ⊢
  rw [evalFrom_append, before]
  exact single

/-- Statements that are left settle the run. -/
theorem settles_evalFrom (ha : s.arena.Ordered) (binds : ∀ r ∈ rest, s.arena.BindsLast r)
    (h : s.Leaves roots b rest last b') : s.Settles roots b (s.evalFrom last rest b') := by
  induction rest generalizing last b' with
  | nil => exact .value h
  | cons root rest ih =>
    rw [List.forall_mem_cons] at binds
    rw [evalFrom]
    split
    · rename_i v b'' completed
      exact ih binds.2 (h.next completed)
    · rename_i e b'' failed
      obtain rfl := bindings_of_failed ha binds.1 failed
      exact .failure h failed

theorem settles_evalAll (ha : s.arena.Ordered) (binds : ∀ r ∈ roots, s.arena.BindsLast r)
    (b : Bindings) : s.Settles roots b (s.evalAll roots b) :=
  settles_evalFrom ha binds (.start s roots b)

end Evaluation

end Scriptlet
