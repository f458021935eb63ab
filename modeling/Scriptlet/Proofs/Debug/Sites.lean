import Scriptlet.Proofs.Debug.Visits

/-!
# Sites of execution errors

An evaluation fails at a node, and its error has the span of that node: in one run, statement by
statement, and at every call of a session.
-/
namespace Scriptlet

/-- The span of the error is that of a node, if that one has any. -/
def ExecutionError.Sited (a : Arena) (e : ExecutionError) : Prop := ∃ id, e.span = a.span? id

variable {s : Evaluation} {e : ExecutionError}

/-! ## Runs -/

namespace Evaluation

theorem sited_failAt (s : Evaluation) (id : NodeId) (kind : ExecutionErrorKind) :
    (s.failAt id kind).Sited s.arena := ⟨id, rfl⟩

theorem sited_of_enter {id : NodeId} {depth : Nat} {m : Machine}
    (h : s.enter id depth m = .error e) : e.Sited s.arena := by
  unfold enter at h
  split at h
  · unfold enterNode at h
    split at h
    case h_3 =>
      split at h
      · contradiction
      · obtain rfl := Except.error.inj h
        exact s.sited_failAt id _
    case h_7 =>
      split at h
      · obtain rfl := Except.error.inj h
        exact s.sited_failAt id _
      · contradiction
    all_goals contradiction
  · obtain rfl := Except.error.inj h
    exact s.sited_failAt id _

theorem sited_of_pushResult {id : NodeId} {r : Kernel.Result} {m : Machine}
    (h : s.pushResult id r m = .error e) : e.Sited s.arena := by
  unfold pushResult at h
  split at h
  · contradiction
  · obtain rfl := Except.error.inj h
    exact s.sited_failAt id _

theorem sited_of_perform {t : Task} {m : Machine} (h : s.perform t m = .error e) :
    e.Sited s.arena := by
  cases t with
  | eval id depth => exact sited_of_enter h
  | unary id op => exact sited_of_pushResult h
  | assign name => contradiction
  | right id b depth =>
    rw [perform] at h
    split at h <;> contradiction
  | apply id b => exact sited_of_pushResult h

theorem sited_of_run {stop : Stop} {resuming : Bool} {m : Machine} {b : Bindings}
    (h : s.run stop resuming m = .failed e b) : e.Sited s.arena := by
  fun_induction run s stop resuming m with
  | case1 => contradiction
  | case2 => contradiction
  | case3 resuming m t rest ht hs e' hp =>
    obtain ⟨rfl, -⟩ := Outcome.failed.inj h
    exact sited_of_perform hp
  | case4 resuming m t rest ht hs next hp ih => exact ih h

theorem sited_of_eval {id : NodeId} {b : Bindings} (h : (s.eval id b).1 = .error e) :
    e.Sited s.arena := by
  rw [eval] at h
  split at h
  · contradiction
  · rename_i failed
    obtain rfl := Except.error.inj h
    exact sited_of_run failed
  · contradiction

theorem sited_of_evalFrom {roots : List NodeId} {last : Value} {b : Bindings}
    (h : (s.evalFrom last roots b).1 = .error e) : e.Sited s.arena := by
  induction roots generalizing last b with
  | nil => contradiction
  | cons id rest ih =>
    rw [evalFrom] at h
    split at h
    · exact ih h
    · rename_i e' b' failed
      obtain rfl := Except.error.inj h
      exact sited_of_eval (congrArg Prod.fst failed)

end Evaluation

/-! ## Sessions -/

namespace Session

theorem sited_of_advance {stop : Evaluation.Stop} {roots : List NodeId} {last : Value}
    {b : Bindings} (h : (advance s stop last roots b).1 = .failed e) : e.Sited s.arena := by
  induction roots generalizing last b with
  | nil => contradiction
  | cons id rest ih =>
    rw [advance] at h
    split at h
    · exact ih h
    · rename_i failed
      obtain rfl := DebugStep.failed.inj h
      exact Evaluation.sited_of_run failed
    · contradiction

variable {session : Session}

theorem sited_of_resume {breakpoints : Breakpoints} {d : Directive}
    (h : (session.resume breakpoints d).1 = .failed e) : e.Sited session.evaluation.arena := by
  simp only [resume] at h
  split at h
  · rw [resumeAt] at h
    split at h
    · exact sited_of_advance h
    · rename_i failed
      obtain rfl := DebugStep.failed.inj h
      exact Evaluation.sited_of_run failed
    · contradiction
  · exact sited_of_advance h

theorem evaluation_after (calls : Nat → Breakpoints × Call) (n : Nat) :
    (session.after calls n).evaluation = session.evaluation := by
  induction n with
  | zero => rfl
  | succ n ih =>
    rw [after, call_eq_resume, resume_evaluation, ih]

theorem sited_of_answerAt {calls : Nat → Breakpoints × Call} {n : Nat}
    (h : session.answerAt calls n = .failed e) : e.Sited session.evaluation.arena := by
  rw [answerAt, call_eq_resume] at h
  exact evaluation_after calls n ▸ sited_of_resume h

theorem sited_of_runFrom {σ : Type} {onBreak : σ → Frame → Directive × σ}
    {registry : σ → Breakpoints} {state : σ} {d : Directive}
    (h : (session.runFrom onBreak registry state d).1 = .error e) :
    e.Sited session.evaluation.arena := by
  fun_induction runFrom onBreak registry state d session with
  | case1 => contradiction
  | case2 state d session e' after hr =>
    obtain rfl := Except.error.inj h
    exact sited_of_resume (congrArg Prod.fst hr)
  | case3 => contradiction
  | case4 state d session source line after hr frame hf ih =>
    have evaluation : after.evaluation = session.evaluation := by
      rw [← resume_evaluation session (registry state) d, hr]
    exact evaluation ▸ ih h

end Session

end Scriptlet
