import Scriptlet.Debug.Breakpoints
import Scriptlet.Eval.Machine

/-!
# Debug sessions

A session evaluates statements and suspends before located nodes: before every one while
stepping, otherwise before those on a registered line. A suspension can fall in the middle of a
statement; the next call goes on exactly there.
-/
namespace Scriptlet

namespace Evaluation

/-- A machine that stops has no more steps left than before. -/
theorem weight_paused_le {s : Evaluation} {stop : Stop} {resuming : Bool} {m next : Machine}
    {id : NodeId} {l : Location} (h : s.run stop resuming m = .paused id l next) :
    s.weight next ≤ s.weight m := by
  fun_induction run s stop resuming m with
  | case1 => contradiction
  | case2 => simp_all
  | case3 => contradiction
  | case4 resuming m t rest ht hs after hp ih =>
    have hw := weight_perform hp
    have hm : s.weight m = s.taskWeight t + s.weight { m with tasks := rest } := by
      simp [weight, ht]
    have := ih h
    omega

/-- A machine that passes its first task and stops again has made a step. -/
theorem weight_paused_lt {s : Evaluation} {stop : Stop} {m next : Machine} {id : NodeId}
    {l : Location} (h : s.run stop true m = .paused id l next) : s.weight next < s.weight m := by
  unfold run at h
  split at h
  · contradiction
  · rename_i t rest ht
    simp only [if_true] at h
    split at h
    · contradiction
    · rename_i after hp
      have hw := weight_perform hp
      have hm : s.weight m = s.taskWeight t + s.weight { m with tasks := rest } := by
        simp [weight, ht]
      have := weight_paused_le h
      omega

end Evaluation

/-- How a suspended session goes on. -/
inductive Directive where
  /-- To the next registered line. -/
  | continue
  /-- To the next located node. -/
  | step
  deriving DecidableEq, Repr

/-- What a debugger sees of a suspended session. -/
structure Frame where
  source : String
  line : Nat
  bindings : Bindings

/-- Where a call of a session ends. -/
inductive DebugStep where
  | completed (v : Value)
  | suspended (source : String) (line : Nat)
  | failed (e : ExecutionError)

/-- A session between two calls. -/
structure Session where
  evaluation : Evaluation
  /-- The statements that are not finished, the one under way first. -/
  statements : List NodeId
  /-- The machine of the statement under way, and the location it is suspended at. -/
  suspension : Option (Location × Machine)
  /-- The value of the last finished statement. -/
  last : Value
  /-- The bindings outside a suspension. -/
  settled : Bindings

namespace Session

/-- A session that has not started. -/
def begin (s : Evaluation) (roots : List NodeId) (b : Bindings) : Session :=
  ⟨s, roots, none, .null, b⟩

def isSuspended (s : Session) : Bool := s.suspension.isSome

/-- The bindings as they are now. -/
def bindings (s : Session) : Bindings :=
  match s.suspension with
  | some (_, m) => m.bindings
  | none => s.settled

/-- The frame of a location and its bindings. -/
def frameAt (l : Location) (b : Bindings) : Frame := ⟨l.file, l.line, b⟩

/-- The frame of the node that the session is suspended before. -/
def frame? (s : Session) : Option Frame :=
  s.suspension.map fun (l, m) => frameAt l m.bindings

/-- Evaluates statements from the start of the first one. -/
def advance (s : Evaluation) (stop : Evaluation.Stop) (last : Value) :
    List NodeId → Bindings → DebugStep × Session
  | [], b => (.completed last, ⟨s, [], none, last, b⟩)
  | id :: rest, b =>
    match s.run stop false (.begin id b) with
    | .done v b => advance s stop v rest b
    | .failed e b => (.failed e, ⟨s, id :: rest, none, last, b⟩)
    | .paused _ l m => (.suspended l.file l.line, ⟨s, id :: rest, some (l, m), last, b⟩)

/-- Where a session stops under a directive. -/
def stopAt (breakpoints : Breakpoints) (d : Directive) : Evaluation.Stop :=
  fun l => d == .step || breakpoints.isRegistered l.file l.line

/-- Goes on in a suspended statement, and then with the ones after it. -/
def resumeAt (s : Session) (stop : Evaluation.Stop) (m : Machine) : DebugStep × Session :=
  match s.evaluation.run stop true m with
  | .done v b => advance s.evaluation stop v s.statements.tail b
  | .failed e b => (.failed e, { s with suspension := none, settled := b })
  | .paused _ l m => (.suspended l.file l.line, { s with suspension := some (l, m) })

/-- Goes on to the next suspension or to the end. After an error the failed statement is tried
again. -/
def resume (s : Session) (breakpoints : Breakpoints) (d : Directive) : DebugStep × Session :=
  let stop := stopAt breakpoints d
  match s.suspension with
  | some (_, m) => s.resumeAt stop m
  | none => advance s.evaluation stop s.last s.statements s.settled

/-- Runs to the first registered line or to the end. -/
def start (s : Session) (breakpoints : Breakpoints) : DebugStep × Session :=
  s.resume breakpoints .continue

theorem advance_evaluation (s : Evaluation) (stop : Evaluation.Stop) (last : Value)
    (roots : List NodeId) (b : Bindings) :
    (advance s stop last roots b).2.evaluation = s := by
  induction roots generalizing last b with
  | nil => rfl
  | cons id rest ih =>
    unfold advance
    split
    · exact ih ..
    · rfl
    · rfl

theorem length_advance_le (s : Evaluation) (stop : Evaluation.Stop) (last : Value)
    (roots : List NodeId) (b : Bindings) :
    (advance s stop last roots b).2.statements.length ≤ roots.length := by
  induction roots generalizing last b with
  | nil => simp [advance]
  | cons id rest ih =>
    unfold advance
    split
    · exact Nat.le_succ_of_le (ih ..)
    · simp
    · simp

/-- A bound on the steps left in the statement under way. -/
def stepsLeft (s : Session) : Nat :=
  match s.suspension with
  | some (_, m) => s.evaluation.weight m
  | none => 4 * 2 ^ s.evaluation.maxDepth

/-- The session `next` is nearer to the end: it has fewer statements left, or fewer steps. -/
def Nearer (next s : Session) : Prop :=
  next.statements.length < s.statements.length ∨
    (next.statements.length = s.statements.length ∧ next.stepsLeft < s.stepsLeft)

theorem weight_begin_lt (s : Evaluation) (id : NodeId) (b : Bindings) :
    s.weight (.begin id b) < 4 * 2 ^ s.maxDepth := by
  have := Nat.two_pow_pos s.maxDepth
  simp only [Evaluation.weight, Machine.begin, List.foldr_cons, List.foldr_nil,
    Evaluation.taskWeight, Nat.sub_zero]
  omega

/-- The first suspension of fresh statements. -/
theorem advance_nearer {s : Evaluation} {stop : Evaluation.Stop} {last : Value}
    {roots : List NodeId} {b : Bindings} (h : (advance s stop last roots b).2.isSuspended) :
    (advance s stop last roots b).2.statements.length < roots.length ∨
      ((advance s stop last roots b).2.statements.length = roots.length ∧
        (advance s stop last roots b).2.stepsLeft < 4 * 2 ^ s.maxDepth) := by
  cases roots with
  | nil => simp [advance, isSuspended] at h
  | cons id rest =>
    unfold advance at h ⊢
    split
    · rename_i v b' hr
      left
      exact Nat.lt_succ_of_le (length_advance_le ..)
    · rename_i e b' hr
      simp [hr, isSuspended] at h
    · rename_i id' l m hr
      right
      refine ⟨rfl, ?_⟩
      have := Evaluation.weight_paused_le hr
      have := weight_begin_lt s id b
      simp only [stepsLeft]
      omega

theorem resume_evaluation (s : Session) (breakpoints : Breakpoints) (d : Directive) :
    (s.resume breakpoints d).2.evaluation = s.evaluation := by
  simp only [resume]
  split
  · simp only [resumeAt]
    split
    · exact advance_evaluation ..
    · rfl
    · rfl
  · exact advance_evaluation ..

/-- Every suspension brings the end nearer. -/
theorem resume_nearer {s : Session} {breakpoints : Breakpoints} {d : Directive}
    (h : (s.resume breakpoints d).2.isSuspended) : (s.resume breakpoints d).2.Nearer s := by
  unfold Nearer
  unfold resume at h ⊢
  split at h
  · rename_i l m hs
    simp only [resumeAt] at h ⊢
    split at h
    · rename_i v b hr
      rcases hroots : s.statements with _ | ⟨id, rest⟩
      · simp [hroots, advance, isSuspended] at h
      · left
        exact Nat.lt_succ_of_le (length_advance_le ..)
    · simp [isSuspended] at h
    · rename_i id l' m' hr
      right
      refine ⟨rfl, ?_⟩
      simpa [stepsLeft, hs] using Evaluation.weight_paused_lt hr
  · rename_i hs
    have := advance_nearer h
    simpa [stepsLeft, hs] using this

/-- Runs to the end. At every suspension the debugger, which has a state of its own, sees the
frame and answers how to go on. Its state tells the lines that are registered, so it can change
them. -/
def runFrom {σ : Type} (onBreak : σ → Frame → Directive × σ) (registry : σ → Breakpoints)
    (state : σ) (d : Directive) (s : Session) : Except ExecutionError Value × Bindings × σ :=
  match _hr : s.resume (registry state) d with
  | (.completed v, next) => (.ok v, next.bindings, state)
  | (.failed e, next) => (.error e, next.bindings, state)
  | (.suspended _ _, next) =>
    match _hf : next.frame? with
    | none => (.ok next.last, next.bindings, state)
    | some frame => next.runFrom onBreak registry (onBreak state frame).2 (onBreak state frame).1
termination_by (s.statements.length, s.stepsLeft)
decreasing_by
  have hs : (s.resume (registry state) d).2.isSuspended := by
    rw [_hr]
    unfold frame? at _hf
    unfold isSuspended
    cases h : next.suspension <;> simp [h] at _hf ⊢
  have hn := resume_nearer hs
  rw [_hr] at hn
  rcases hn with hn | ⟨he, hn⟩
  · exact Prod.Lex.left _ _ hn
  · rw [he]
    exact Prod.Lex.right _ hn

/-- Runs a session to the end under a debugger. -/
def runToCompletion {σ : Type} (onBreak : σ → Frame → Directive × σ) (registry : σ → Breakpoints)
    (state : σ) (s : Session) : Except ExecutionError Value × Bindings × σ :=
  s.runFrom onBreak registry state .continue

end Session

end Scriptlet
