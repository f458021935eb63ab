import Scriptlet.Proofs.Debug.Hits
import Scriptlet.Proofs.Eval.Atomic

/-!
# Where a session stands

Between two calls a session has some statements behind it, and its bindings are the ones that
these made: a statement under way has not bound yet, and one that failed never will. So debugging
shows the effects of whole statements only.
-/
namespace Scriptlet.Session

open Evaluation

/-- A session of the statements `roots` that began with the bindings `b`. Its bindings are those
that the finished statements made, and a statement under way has begun with them. -/
structure Standing (next : Session) (s : Evaluation) (roots : List NodeId) (b : Bindings) :
    Prop where
  evaluation : next.evaluation = s
  leaves : s.Leaves roots b next.statements next.last next.settled
  bindings : next.bindings = next.settled
  underWay : ∀ l m, next.suspension = some (l, m) → ∃ root rest ids,
    next.statements = root :: rest ∧ s.Path (.begin root next.bindings) ids m

/-- A call ends after all statements, at one that fails, or inside of one. -/
inductive Halts (s : Evaluation) (roots : List NodeId) (b : Bindings) :
    DebugStep × Session → Prop
  | completed {next : Session} (standing : next.Standing s roots b)
      (all : next.statements = []) : Halts s roots b (.completed next.last, next)
  | failed {e : ExecutionError} {next : Session} {root : NodeId} {rest : List NodeId}
      (standing : next.Standing s roots b) (ended : next.suspension = none)
      (under : next.statements = root :: rest)
      (fails : s.eval root next.bindings = (.error e, next.bindings)) :
      Halts s roots b (.failed e, next)
  | suspended {l : Location} {m : Machine} {next : Session} (standing : next.Standing s roots b)
      (suspension : next.suspension = some (l, m)) :
      Halts s roots b (.suspended l.file l.line, next)

variable {s : Evaluation} {roots rest : List NodeId} {root : NodeId} {b b' : Bindings}
  {last : Value} {next : Session}

theorem Halts.standing {r : DebugStep × Session} (h : Halts s roots b r) :
    r.2.Standing s roots b := by
  cases h <;> assumption

theorem standing_begin (s : Evaluation) (roots : List NodeId) (b : Bindings) :
    (begin s roots b).Standing s roots b :=
  ⟨rfl, .start s roots b, rfl, by simp [begin]⟩

theorem standing_settled (leaves : s.Leaves roots b rest last b') :
    Standing ⟨s, rest, none, last, b'⟩ s roots b :=
  ⟨rfl, leaves, rfl, by simp⟩

theorem Halts.settles {d : DebugStep} (h : Halts s roots b (d, next)) :
    (∀ v, d = .completed v → s.Settles roots b (.ok v, next.bindings)) ∧
      ∀ e, d = .failed e → s.Settles roots b (.error e, next.bindings) := by
  have leaves := h.standing.leaves
  rw [← h.standing.bindings] at leaves
  cases h with
  | completed standing all =>
    rw [all] at leaves
    refine ⟨fun v hv => ?_, by simp⟩
    obtain rfl := DebugStep.completed.inj hv
    exact .value leaves
  | failed standing ended under fails =>
    rw [under] at leaves
    refine ⟨by simp, fun e he => ?_⟩
    obtain rfl := DebugStep.failed.inj he
    exact .failure leaves fails
  | suspended => simp

section Calls

variable (ha : s.arena.Ordered) (binds : ∀ r ∈ roots, s.arena.BindsLast r)

include ha binds

/-- A call that goes on with a statement, given what comes after each way that the statement can
end. -/
theorem halts_statement (leaves : s.Leaves roots b (root :: rest) last b') {m : Machine}
    {ids : List NodeId} (path : s.Path (.begin root b') ids m) (stop : Stop) (resuming : Bool)
    {r : DebugStep × Session}
    (done : ∀ v b'', s.run stop resuming m = .done v b'' → s.Leaves roots b rest v b'' →
      Halts s roots b r)
    (failed : ∀ e b'', s.run stop resuming m = .failed e b'' →
      r = (.failed e, ⟨s, root :: rest, none, last, b''⟩))
    (paused : ∀ id l m', s.run stop resuming m = .paused id l m' →
      r = (.suspended l.file l.line, ⟨s, root :: rest, some (l, m'), last, b'⟩)) :
    Halts s roots b r := by
  have bindsLast : s.arena.BindsLast root := by
    obtain ⟨before, rfl, -⟩ := leaves
    exact binds root (by simp)
  cases hr : s.run stop resuming m with
  | done v b'' =>
    have ended : s.eval root b' = (.ok v, b'') := by
      rw [eval, run_path path, run_nowhere_of_done hr]
    exact done v b'' hr (leaves.next ended)
  | failed e b'' =>
    have ended : s.eval root b' = (.error e, b'') := by
      rw [eval, run_path path, run_nowhere_of_failed hr]
    obtain rfl := bindings_of_failed ha bindsLast ended
    rw [failed e _ hr]
    exact .failed (standing_settled leaves) rfl rfl ended
  | paused id l m' =>
    obtain ⟨ids', onward, id', depth, later, before, -⟩ := path_of_paused hr
    have whole := path.trans onward
    have quiet : Quiet s.arena b' m' := Quiet.path ha (.begin bindsLast) whole
    have kept : m'.bindings = b' := quiet.bindings_eq before
    rw [paused id l m' hr]
    refine .suspended ⟨rfl, leaves, kept, fun l' m'' h => ?_⟩ rfl
    obtain ⟨-, rfl⟩ := Prod.mk.inj (Option.some.inj h)
    refine ⟨root, rest, ids ++ ids', rfl, ?_⟩
    have current : Session.bindings ⟨s, root :: rest, some (l, m'), last, b'⟩ = b' := kept
    rw [current]
    exact whole

theorem halts_advance (stop : Stop) (leaves : s.Leaves roots b rest last b') :
    Halts s roots b (advance s stop last rest b') := by
  induction rest generalizing last b' with
  | nil => exact .completed (standing_settled leaves) rfl
  | cons root rest ih =>
    refine halts_statement ha binds leaves (.here _) stop false ?_ ?_ ?_
    · intro v b'' hr left
      rw [advance, hr]
      exact ih left
    · intro e b'' hr
      rw [advance, hr]
    · intro id l m hr
      rw [advance, hr]

theorem halts_resume (standing : next.Standing s roots b) (breakpoints : Breakpoints)
    (d : Directive) : Halts s roots b (next.resume breakpoints d) := by
  obtain ⟨ev, left, suspension, last, settled⟩ := next
  obtain ⟨rfl, leaves, kept, underWay⟩ := standing
  cases suspension with
  | none => exact halts_advance ha binds _ leaves
  | some suspended =>
    obtain ⟨l, m⟩ := suspended
    obtain ⟨root, rest, ids, rfl, path⟩ := underWay l m rfl
    rw [kept] at path
    refine halts_statement ha binds leaves path (stopAt breakpoints d) true ?_ ?_ ?_
    · intro v b'' hr left
      simp only [resume, resumeAt, hr]
      exact halts_advance ha binds _ left
    · intro e b'' hr
      simp only [resume, resumeAt, hr]
    · intro id l' m' hr
      simp only [resume, resumeAt, hr]

theorem standing_after (calls : Nat → Breakpoints × Call) (n : Nat) :
    ((begin s roots b).after calls n).Standing s roots b := by
  induction n with
  | zero => exact standing_begin s roots b
  | succ n ih =>
    rw [after, call_eq_resume]
    exact (halts_resume ha binds ih _ _).standing

theorem halts_call (calls : Nat → Breakpoints × Call) (n : Nat) :
    Halts s roots b
      ((begin s roots b).answerAt calls n, (begin s roots b).after calls (n + 1)) := by
  have halts := halts_resume ha binds (standing_after ha binds calls n (b := b)) (calls n).1
    (calls n).2.directive
  rw [← call_eq_resume] at halts
  exact halts

/-- A debugger that is asked at every suspension sees bindings that whole statements made. -/
theorem settles_runFrom {σ : Type} (onBreak : σ → Frame → Directive × σ)
    (registry : σ → Breakpoints) (state : σ) (d : Directive) (standing : next.Standing s roots b) :
    ∃ frames : List Frame,
      (∀ f ∈ frames, ∃ root rest last, s.Leaves roots b (root :: rest) last f.bindings) ∧
      (next.runFrom onBreak registry state d).2.2 =
        frames.foldl (fun state frame => (onBreak state frame).2) state ∧
      s.Settles roots b ((next.runFrom onBreak registry state d).1,
        (next.runFrom onBreak registry state d).2.1) := by
  fun_induction runFrom onBreak registry state d next with
  | case1 state d next v after hr =>
    have halts := halts_resume ha binds standing (registry state) d
    rw [hr] at halts
    exact ⟨[], by simp, rfl, halts.settles.1 v rfl⟩
  | case2 state d next e after hr =>
    have halts := halts_resume ha binds standing (registry state) d
    rw [hr] at halts
    exact ⟨[], by simp, rfl, halts.settles.2 e rfl⟩
  | case3 state d next source line after hr hf =>
    have halts := halts_resume ha binds standing (registry state) d
    rw [hr] at halts
    cases halts with
    | suspended standing suspension => simp [frame?, suspension] at hf
  | case4 state d next source line after hr frame hf ih =>
    have halts := halts_resume ha binds standing (registry state) d
    rw [hr] at halts
    have later := halts.standing
    obtain ⟨frames, seen, folded, settles⟩ := ih later
    obtain ⟨⟨l, m⟩, suspension, rfl⟩ := Option.map_eq_some_iff.mp hf
    obtain ⟨root, rest, ids, under, -⟩ := later.underWay l m suspension
    have leaves := later.leaves
    have shown : m.bindings = after.settled := by
      rw [← later.bindings, bindings, suspension]
    rw [under, ← shown] at leaves
    exact ⟨_ :: frames, List.forall_mem_cons.mpr ⟨⟨root, rest, _, leaves⟩, seen⟩, folded, settles⟩

end Calls

/-- Statements are atomic. Every statement of a program that completes has the effect that the
source says: an assignment binds its name to its value, an expression binds nothing. A run that
fails does so at a statement on the bindings that the statements before it made, and leaves these.
A session has such bindings after every call, and under a debugger at every suspension. -/
theorem statements_atomic {ctx : BuildContext} {inputs : List (String × Ty)}
    {debugSymbols : Bool} {limit : Nat} {p : Program}
    (hp : compile ctx inputs debugSymbols limit = .ok p) {s : Evaluation}
    (hs : s.arena = p.arena) (b : Bindings) :
    (∃ script, Grammar.parse limit ctx.source = .ok script ∧
      List.Forall₂ s.Atomic p.statements script.statements) ∧
    s.Settles p.statements b (s.evalAll p.statements b) ∧
    (∀ (calls : Nat → Breakpoints × Call) (n : Nat),
      Halts s p.statements b ((begin s p.statements b).answerAt calls n,
        (begin s p.statements b).after calls (n + 1))) ∧
    ∀ (σ : Type) (onBreak : σ → Frame → Directive × σ) (registry : σ → Breakpoints) (state : σ),
      let r := (begin s p.statements b).runToCompletion onBreak registry state
      s.Settles p.statements b (r.1, r.2.1) ∧ ∃ frames : List Frame,
        (∀ f ∈ frames, ∃ root rest last,
          s.Leaves p.statements b (root :: rest) last f.bindings) ∧
        r.2.2 = frames.foldl (fun state frame => (onBreak state frame).2) state := by
  obtain ⟨script, parsed, h⟩ := compile_ok hp
  have ordered : s.arena.Ordered := hs ▸ (compile_layout hp).1
  have binds : ∀ r ∈ p.statements, s.arena.BindsLast r := hs ▸ compile_bindsLast hp
  have shows := Compile.compileStatements_shows .empty h
  rw [← hs] at shows
  have atomic := shows.imp fun root statement => atomic_of_shows ordered
  refine ⟨⟨script, parsed, atomic⟩, settles_evalAll ordered binds b,
    halts_call ordered binds, fun σ onBreak registry state => ?_⟩
  obtain ⟨frames, seen, folded, settles⟩ := settles_runFrom ordered binds onBreak registry state
    .continue (standing_begin s p.statements b)
  exact ⟨settles, frames, seen, folded⟩

/-- A run fails and leaves the first name bound to an `int` and the second one to nothing. -/
def failsLeaving (s : Evaluation) (roots : List NodeId) (b : Bindings) (name : String) (k : Int32)
    (other : String) : Bool :=
  match s.evalAll roots b with
  | (.error _, b) =>
    match b.get? name, b.get? other with
    | some (.int i), none => i = k
    | _, _ => false
  | _ => false

theorem of_failsLeaving {roots : List NodeId} {name other : String} {k : Int32}
    (h : failsLeaving s roots b name k other = true) :
    ∃ e b', s.evalAll roots b = (.error e, b') ∧ b'.get? name = some (.int k) ∧
      b'.get? other = none := by
  unfold failsLeaving at h
  split at h
  · rename_i e b' failed
    split at h
    · rename_i i bound free
      obtain rfl : i = k := of_decide_eq_true h
      exact ⟨e, b', failed, bound, free⟩
    · contradiction
  · contradiction

/-- The second of three statements fails. -/
theorem statements_atomic_division :
    ∃ p e b' root rest last,
      compile (strict "x = a + 1;\ny = x / 0;\nx = 5") [("a", .primitive .int)] true 128 = .ok p ∧
      (plainly p.arena).evalAll p.statements (.ofList [("a", .int 3)]) = (.error e, b') ∧
      b'.get? "x" = some (.int 4) ∧ b'.get? "y" = none ∧
      (plainly p.arena).Leaves p.statements (.ofList [("a", .int 3)]) (root :: rest) last b' ∧
      (plainly p.arena).eval root b' = (.error e, b') ∧
      ∀ calls n, Halts (plainly p.arena) p.statements (.ofList [("a", .int 3)])
        ((begin (plainly p.arena) p.statements (.ofList [("a", .int 3)])).answerAt calls n,
          (begin (plainly p.arena) p.statements (.ofList [("a", .int 3)])).after calls (n + 1)) := by
  have computed : (compile (strict "x = a + 1;\ny = x / 0;\nx = 5") [("a", .primitive .int)] true
      128).map (fun p => failsLeaving (plainly p.arena) p.statements (.ofList [("a", .int 3)]) "x"
        4 "y") = .ok true := by
    decide +kernel
  obtain ⟨p, hp, computed⟩ := Kernel.map_eq_ok computed
  obtain ⟨e, b', failed, bound, free⟩ := of_failsLeaving computed
  obtain ⟨-, settles, halts, -⟩ := statements_atomic hp (s := plainly p.arena) rfl
    (.ofList [("a", .int 3)])
  rw [failed] at settles
  cases settles with
  | @failure root rest last _ _ leaves fails =>
    exact ⟨p, e, b', root, rest, last, hp, failed, bound, free, leaves, fails, halts⟩

end Scriptlet.Session
