import Scriptlet.Proofs.Compile.Chains
import Scriptlet.Proofs.Eval.Reached

/-!
# Suspensions

The visits of a run are the located nodes that it comes to. The calls of a session share out the
visits of the undebugged run among them, in order, and a call suspends before the first of its
visits that it is asked to stop at.
-/
namespace Scriptlet

/-- A located node that a run comes to, and the bindings that its statement began with. -/
structure Visit where
  node : NodeId
  location : Location
  bindings : Bindings

namespace Evaluation

/-- The located ones of some nodes. -/
def visitsOf (s : Evaluation) (b : Bindings) (ids : List NodeId) : List Visit :=
  ids.filterMap fun id => (s.arena.location? id).map fun l => ⟨id, l, b⟩

/-- The visits of statements up to where a run of them stops or ends. -/
def visits (s : Evaluation) (stop : Stop) : List NodeId → Bindings → List Visit
  | [], _ => []
  | id :: rest, b =>
    s.visitsOf b (s.reached stop false (.begin id b)) ++
      match s.run stop false (.begin id b) with
      | .done _ b => s.visits stop rest b
      | _ => []

/-- The visits of a statement under way, which began with the bindings `b`, and of the ones after
it. -/
def visitsFrom (s : Evaluation) (stop : Stop) (resuming : Bool) (m : Machine) (b : Bindings)
    (rest : List NodeId) : List Visit :=
  s.visitsOf b (s.reached stop resuming m) ++
    match s.run stop resuming m with
    | .done _ b => s.visits stop rest b
    | _ => []

theorem mem_visitsOf {s : Evaluation} {b : Bindings} {ids : List NodeId} {v : Visit}
    (h : v ∈ s.visitsOf b ids) :
    v.node ∈ ids ∧ s.arena.location? v.node = some v.location ∧ v.bindings = b := by
  obtain ⟨id, hid, h⟩ := List.mem_filterMap.mp h
  obtain ⟨l, hl, rfl⟩ := Option.map_eq_some_iff.mp h
  exact ⟨hid, hl, rfl⟩

theorem visitsOf_append (s : Evaluation) (b : Bindings) (ids ids' : List NodeId) :
    s.visitsOf b (ids ++ ids') = s.visitsOf b ids ++ s.visitsOf b ids' :=
  List.filterMap_append

theorem visitsOf_singleton {s : Evaluation} {id : NodeId} {l : Location}
    (h : s.arena.location? id = some l) (b : Bindings) : s.visitsOf b [id] = [⟨id, l, b⟩] := by
  simp [visitsOf, h]

theorem passed_of_mem_visitsOf {s : Evaluation} {stop : Stop} {b : Bindings} {ids : List NodeId}
    (passed : ∀ x ∈ ids, s.Passes stop x) : ∀ v ∈ s.visitsOf b ids, stop v.location = false := by
  intro v hv
  obtain ⟨hmem, hl, -⟩ := mem_visitsOf hv
  exact passed v.node hmem v.location hl

theorem location?_of_mem_visits {s : Evaluation} {stop : Stop} {roots : List NodeId}
    {b : Bindings} {v : Visit} (h : v ∈ s.visits stop roots b) :
    s.arena.location? v.node = some v.location := by
  induction roots generalizing b with
  | nil => contradiction
  | cons id rest ih =>
    rw [visits] at h
    rcases List.mem_append.mp h with h | h
    · exact (mem_visitsOf h).2.1
    · split at h
      · exact ih h
      · contradiction

theorem run_nowhere_resuming (s : Evaluation) (resuming : Bool) (m : Machine) :
    s.run nowhere resuming m = s.run nowhere false m := by
  obtain ⟨tasks, vs, b⟩ := m
  cases tasks with
  | nil => rw [run, run]
  | cons t rest => rw [run_nowhere_cons, run_nowhere_cons]

theorem run_nowhere_of_paused {s : Evaluation} {stop : Stop} {resuming : Bool}
    {m m' : Machine} {id : NodeId} {l : Location}
    (h : s.run stop resuming m = .paused id l m') :
    s.run nowhere resuming m = s.run nowhere true m' := by
  obtain ⟨ids, path, -⟩ := path_of_paused h
  rw [run_nowhere_resuming, run_path path, ← run_nowhere_resuming]

end Evaluation

namespace Session

open Evaluation

/-- The visits of a session up to where it stops or ends. -/
def visits (s : Session) (stop : Stop) : List Visit :=
  match s.suspension with
  | none => s.evaluation.visits stop s.statements s.settled
  | some (_, m) => s.evaluation.visitsFrom stop true m s.settled s.statements.tail

/-- The visits of the undebugged run that are still to come for a suspended session. -/
def coming (s : Session) : List Visit := if s.isSuspended then s.visits nowhere else []

/-- The node that the session is suspended before. -/
def pausedBefore? (s : Session) : Option NodeId :=
  s.suspension.bind fun (_, m) => m.tasks.head?.bind (·.entered.head?)

/-- The visits of a call and where it ends: suspended before the last one, as asked, or before
none. -/
inductive Stops (stop : Stop) : List Visit → DebugStep × Session → Prop
  | completed {vs : List Visit} {v : Value} {next : Session}
      (passed : ∀ u ∈ vs, stop u.location = false) (ended : next.suspension = none) :
      Stops stop vs (.completed v, next)
  | failed {vs : List Visit} {e : ExecutionError} {next : Session}
      (passed : ∀ u ∈ vs, stop u.location = false) (ended : next.suspension = none) :
      Stops stop vs (.failed e, next)
  | suspended {vs : List Visit} {v : Visit} {m : Machine} {next : Session}
      (passed : ∀ u ∈ vs, stop u.location = false) (asked : stop v.location = true)
      (suspension : next.suspension = some (v.location, m))
      (before : next.pausedBefore? = some v.node) (bindings : m.bindings = v.bindings) :
      Stops stop (vs ++ [v]) (.suspended v.location.file v.location.line, next)

theorem Stops.append {stop : Stop} {vs vs' : List Visit} {r : DebugStep × Session}
    (h : Stops stop vs' r) (passed : ∀ u ∈ vs, stop u.location = false) :
    Stops stop (vs ++ vs') r := by
  cases h with
  | completed passed' ended => exact .completed (List.forall_mem_append.mpr ⟨passed, passed'⟩) ended
  | failed passed' ended => exact .failed (List.forall_mem_append.mpr ⟨passed, passed'⟩) ended
  | suspended passed' asked suspension before bindings =>
    rw [← List.append_assoc]
    exact .suspended (List.forall_mem_append.mpr ⟨passed, passed'⟩) asked suspension before
      bindings

/-- A call has the visits `vs`, of the visits `all` of the undebugged run. -/
structure Shares (stop : Stop) (vs all : List Visit) (r : DebugStep × Session) : Prop where
  stops : Stops stop vs r
  all_eq : all = vs ++ r.2.coming

theorem shares_statement {s : Evaluation} (ha : s.arena.Ordered) {stop : Stop} (resuming : Bool)
    {m : Machine} {b : Bindings} (rest : List NodeId) (quiet : Quiet s.arena b m)
    {r : DebugStep × Session}
    (done : ∀ v b', s.run stop resuming m = .done v b' →
      Shares stop (s.visits stop rest b') (s.visits nowhere rest b') r)
    (failed : ∀ e b', s.run stop resuming m = .failed e b' →
      ∃ next, r = (.failed e, next) ∧ next.suspension = none)
    (paused : ∀ id l m', s.run stop resuming m = .paused id l m' →
      ∃ roots last, r = (.suspended l.file l.line, ⟨s, roots, some (l, m'), last, b⟩) ∧
        roots.tail = rest) :
    Shares stop (s.visitsFrom stop resuming m b rest) (s.visitsFrom nowhere resuming m b rest)
      r := by
  have stops := s.stops_run stop resuming m
  rw [visitsFrom, visitsFrom, s.reached_nowhere stop resuming m]
  generalize s.reached stop resuming m = ids at stops
  cases hr : s.run stop resuming m with
  | done v b' =>
    obtain ⟨stops', all⟩ := done v b' hr
    rw [hr] at stops
    cases stops with
    | done passed =>
      rw [run_nowhere_resuming, run_nowhere_of_done hr]
      simp only [Outcome.onward, List.append_nil]
      exact ⟨stops'.append (passed_of_mem_visitsOf passed), by rw [all, List.append_assoc]⟩
  | failed e b' =>
    obtain ⟨next, rfl, ended⟩ := failed e b' hr
    rw [hr] at stops
    cases stops with
    | failed passed =>
      rw [run_nowhere_resuming, run_nowhere_of_failed hr]
      simp only [Outcome.onward, List.append_nil]
      exact ⟨.failed (passed_of_mem_visitsOf passed) ended, by simp [coming, isSuspended, ended]⟩
  | paused id l m' =>
    obtain ⟨roots, last, rfl, tail⟩ := paused id l m' hr
    rw [hr] at stops
    obtain ⟨path, hpath, -⟩ := path_of_paused hr
    cases stops with
    | @paused ids id l m' depth rest' passed location asked before =>
      have bindings : m'.bindings = b := (quiet.path ha hpath).bindings_eq before
      rw [run_nowhere_of_paused hr]
      simp only [Outcome.onward, List.append_nil, visitsOf_append, visitsOf_singleton location]
      constructor
      · exact .suspended (v := ⟨id, l, b⟩) (passed_of_mem_visitsOf passed) asked rfl
          (by simp [pausedBefore?, before, Task.entered]) bindings
      · simp only [coming, isSuspended, Option.isSome_some, if_true, visits, visitsFrom, tail,
          List.append_assoc]

theorem shares_advance {s : Evaluation} (ha : s.arena.Ordered) (stop : Stop)
    {roots : List NodeId} (last : ∀ r ∈ roots, s.arena.BindsLast r) (v : Value) (b : Bindings) :
    Shares stop (s.visits stop roots b) (s.visits nowhere roots b)
      (advance s stop v roots b) := by
  induction roots generalizing v b with
  | nil => exact ⟨.completed (by simp [Evaluation.visits]) rfl, rfl⟩
  | cons id rest ih =>
    rw [List.forall_mem_cons] at last
    refine shares_statement ha false (m := .begin id b) rest (.begin last.1) ?_ ?_ ?_
    · intro w b' hr
      rw [advance, hr]
      exact ih last.2 w b'
    · intro e b' hr
      rw [advance, hr]
      exact ⟨_, rfl, rfl⟩
    · intro id' l m hr
      rw [advance, hr]
      exact ⟨_, _, rfl, rfl⟩

/-- What holds of a session at all times. -/
structure Tidy (s : Session) : Prop where
  ordered : s.evaluation.arena.Ordered
  last : ∀ r ∈ s.statements, s.evaluation.arena.BindsLast r
  quiet : ∀ l m, s.suspension = some (l, m) → Quiet s.evaluation.arena s.settled m

theorem tidy_advance {s : Evaluation} (ha : s.arena.Ordered) (stop : Stop)
    {roots : List NodeId} (last : ∀ r ∈ roots, s.arena.BindsLast r) (v : Value) (b : Bindings) :
    (advance s stop v roots b).2.Tidy := by
  induction roots generalizing v b with
  | nil => exact ⟨ha, last, by simp [advance]⟩
  | cons id rest ih =>
    rw [advance]
    split
    · exact ih (fun r hr => last r (List.mem_cons_of_mem _ hr)) _ _
    · exact ⟨ha, last, by simp⟩
    · rename_i id' l m hr
      obtain ⟨ids, path, -⟩ := path_of_paused hr
      have quiet : Quiet s.arena b m := Quiet.path ha (.begin (last id (by simp))) path
      refine ⟨ha, last, fun l' m' h => ?_⟩
      obtain ⟨-, rfl⟩ := Prod.mk.inj (Option.some.inj h)
      exact quiet

theorem tidy_resume {s : Session} (h : s.Tidy) (breakpoints : Breakpoints) (d : Directive) :
    (s.resume breakpoints d).2.Tidy := by
  obtain ⟨ev, roots, suspension, last, settled⟩ := s
  obtain ⟨ordered, binds, quiet⟩ := h
  cases suspension with
  | none => exact tidy_advance ordered _ binds last settled
  | some suspended =>
    obtain ⟨l, m⟩ := suspended
    simp only [resume, resumeAt]
    split
    · exact tidy_advance ordered _ (fun r hr => binds r (List.mem_of_mem_tail hr)) _ _
    · exact ⟨ordered, binds, by simp⟩
    · rename_i id' l' m' hr
      obtain ⟨ids, path, -⟩ := path_of_paused hr
      refine ⟨ordered, binds, fun l'' m'' h => ?_⟩
      obtain ⟨-, rfl⟩ := Prod.mk.inj (Option.some.inj h)
      exact (quiet l m rfl).path ordered path

theorem shares_resume {s : Session} (h : s.Tidy) (breakpoints : Breakpoints) (d : Directive) :
    Shares (stopAt breakpoints d) (s.visits (stopAt breakpoints d)) (s.visits nowhere)
      (s.resume breakpoints d) := by
  obtain ⟨ev, roots, suspension, last, settled⟩ := s
  obtain ⟨ordered, binds, quiet⟩ := h
  cases suspension with
  | none => exact shares_advance ordered _ binds last settled
  | some suspended =>
    obtain ⟨l, m⟩ := suspended
    refine shares_statement ordered true roots.tail (quiet l m rfl) ?_ ?_ ?_
    · intro w b' hr
      simp only [resume, resumeAt, hr]
      exact shares_advance ordered _ (fun r hr => binds r (List.mem_of_mem_tail hr)) _ _
    · intro e b' hr
      simp only [resume, resumeAt, hr]
      exact ⟨_, rfl, rfl⟩
    · intro id' l' m' hr
      simp only [resume, resumeAt, hr]
      exact ⟨_, _, rfl, rfl⟩

/-! ## Sequences of calls -/

/-- The directive of a call; a start continues. -/
def Call.directive : Call → Directive
  | .start => .continue
  | .resume d => d

/-- Where a call under registered lines stops. -/
def stopOf (c : Breakpoints × Call) : Stop := stopAt c.1 c.2.directive

/-- A call asks to stop at a location: it steps, or the line is registered. -/
def Asks (c : Breakpoints × Call) (l : Location) : Prop :=
  c.2 = .resume .step ∨ c.1.isRegistered l.file l.line = true

theorem asks_iff (c : Breakpoints × Call) (l : Location) : Asks c l ↔ stopOf c l = true := by
  obtain ⟨breakpoints, c⟩ := c
  cases c with
  | start => simp [Asks, stopOf, stopAt, Call.directive]
  | resume d => cases d <;> simp [Asks, stopOf, stopAt, Call.directive]

theorem call_eq_resume (s : Session) (breakpoints : Breakpoints) (c : Call) :
    s.call breakpoints c = s.resume breakpoints c.directive := by
  cases c <;> rfl

def visitsAt (s : Session) (calls : Nat → Breakpoints × Call) (n : Nat) : List Visit :=
  (s.after calls n).visits (stopOf (calls n))

theorem Stops.isSuspended_iff {stop : Stop} {vs : List Visit} {r : DebugStep × Session}
    (h : Stops stop vs r) :
    r.2.isSuspended = true ↔ ∃ source line, r.1 = .suspended source line := by
  cases h with
  | completed passed ended | failed passed ended => simp [isSuspended, ended]
  | suspended passed asked suspension => simp [isSuspended, suspension]

theorem Stops.pausedBefore_iff {stop : Stop} {vs : List Visit} {r : DebugStep × Session}
    (h : Stops stop vs r)
    (same : ∀ u ∈ vs, ∀ v ∈ vs, u.node = v.node → u.location = v.location) :
    ∀ v ∈ vs, r.2.pausedBefore? = some v.node ↔ stop v.location = true := by
  intro v hv
  cases h with
  | completed passed ended | failed passed ended => simp [pausedBefore?, ended, passed v hv]
  | @suspended vs last m next passed asked suspension before bindings =>
    rw [before, Option.some.injEq]
    constructor
    · intro hnode
      rw [same v hv last (by simp) hnode.symm]
      exact asked
    · intro hstop
      rcases List.mem_append.mp hv with hv | hv
      · rw [passed v hv] at hstop
        contradiction
      · rw [List.mem_singleton.mp hv]

theorem Stops.exists_visit {stop : Stop} {vs : List Visit} {next : Session} {source : String}
    {line : Nat} (h : Stops stop vs (.suspended source line, next)) :
    ∃ v ∈ vs, next.pausedBefore? = some v.node ∧ source = v.location.file ∧
      line = v.location.line ∧ next.frame? = some (frameAt v.location v.bindings) := by
  cases h with
  | @suspended vs v m next passed asked suspension before bindings =>
    exact ⟨v, by simp, before, rfl, rfl, by simp [frame?, suspension, bindings]⟩

section Calls

variable {s : Session} (calls : Nat → Breakpoints × Call)

theorem tidy_after (h : s.Tidy) (n : Nat) : (s.after calls n).Tidy := by
  induction n with
  | zero => exact h
  | succ n ih =>
    rw [after, call_eq_resume]
    exact tidy_resume ih _ _

theorem shares_call (h : s.Tidy) (n : Nat) :
    Shares (stopOf (calls n)) (s.visitsAt calls n) ((s.after calls n).visits nowhere)
      (s.answerAt calls n, s.after calls (n + 1)) := by
  have shares := shares_resume (tidy_after calls h n) (calls n).1 (calls n).2.directive
  rw [← call_eq_resume] at shares
  exact shares

/-- As long as the calls suspend, they share out the visits in order. -/
theorem visits_eq_flatMap (h : s.Tidy) (n : Nat)
    (suspends : ∀ k < n, ∃ source line, s.answerAt calls k = .suspended source line) :
    s.visits nowhere =
      (List.range n).flatMap (s.visitsAt calls) ++ (s.after calls n).visits nowhere := by
  induction n with
  | zero => simp [after]
  | succ n ih =>
    obtain ⟨stops, all⟩ := shares_call calls h n
    have suspended : (s.after calls (n + 1)).isSuspended = true :=
      stops.isSuspended_iff.mpr (suspends n (Nat.lt_succ_self n))
    have coming : (s.after calls (n + 1)).coming = (s.after calls (n + 1)).visits nowhere := by
      rw [coming, if_pos suspended]
    rw [ih fun k hk => suspends k (Nat.lt_succ_of_lt hk), all, coming, List.range_succ]
    simp only [List.flatMap_append, List.flatMap_cons, List.flatMap_nil, List.append_nil,
      List.append_assoc]

end Calls

/-- The calls up to the one numbered `n`, which comes to the end, follow a run with the visits
`vs`: they reach the visits in order, and a call suspends before a visit that it reaches just when
it asks to stop there. -/
structure Follows (s : Session) (calls : Nat → Breakpoints × Call) (n : Nat) (vs : List Visit) :
    Prop where
  reaches : vs = (List.range (n + 1)).flatMap (s.visitsAt calls)
  suspends_iff : ∀ k ≤ n, ∀ v ∈ s.visitsAt calls k,
    (s.after calls (k + 1)).pausedBefore? = some v.node ↔ Asks (calls k) v.location
  frame : ∀ k < n, ∃ v ∈ s.visitsAt calls k,
    (s.after calls (k + 1)).pausedBefore? = some v.node ∧
      s.answerAt calls k = .suspended v.location.file v.location.line ∧
      (s.after calls (k + 1)).frame? = some (frameAt v.location v.bindings)
  once : ∀ k ≤ n, ∀ k' ≤ n, ∀ id, (s.after calls (k + 1)).pausedBefore? = some id →
    (s.after calls (k' + 1)).pausedBefore? = some id → k = k'
  ends : (s.after calls (n + 1)).pausedBefore? = none

theorem eq_of_mem_flatMap_range {α : Type} {f : Nat → List α} {n : Nat}
    (h : ((List.range n).flatMap f).Nodup) {k k' : Nat} (hk : k < n) (hk' : k' < n) {x : α}
    (hx : x ∈ f k) (hx' : x ∈ f k') : k = k' := by
  induction n with
  | zero => omega
  | succ n ih =>
    rw [List.range_succ, List.flatMap_append, List.nodup_append] at h
    obtain ⟨before, -, apart⟩ := h
    -- Only the last list and those before it can be told apart at this step.
    have outside {i : Nat} (hi : i < n) (hxi : x ∈ f i) (hxn : x ∈ f n) : False := by
      refine apart x (List.mem_flatMap_of_mem (List.mem_range.mpr hi) hxi) x ?_ rfl
      simpa using hxn
    rcases Nat.lt_or_eq_of_le (Nat.le_of_lt_succ hk) with hk | rfl
    · rcases Nat.lt_or_eq_of_le (Nat.le_of_lt_succ hk') with hk' | rfl
      · exact ih before hk hk'
      · exact (outside hk hx hx').elim
    · rcases Nat.lt_or_eq_of_le (Nat.le_of_lt_succ hk') with hk' | rfl
      · exact (outside hk' hx' hx).elim
      · rfl

theorem follows_of_completes {s : Session} (h : s.Tidy) {calls : Nat → Breakpoints × Call}
    {n : Nat} {r : Answer} (completes : s.Completes calls n r)
    (nodup : ((s.visits nowhere).map (·.node)).Nodup)
    (located : ∀ v ∈ s.visits nowhere, s.evaluation.arena.location? v.node = some v.location) :
    s.Follows calls n (s.visits nowhere) := by
  have all := visits_eq_flatMap calls h n completes.suspends
  obtain ⟨stops, last⟩ := shares_call calls h n
  have ended : (s.after calls (n + 1)).isSuspended = false := by
    rw [← Bool.not_eq_true, stops.isSuspended_iff]
    rintro ⟨source, line, hstep⟩
    obtain ⟨e | v, b⟩ := r <;> simp [completes.answers, stepOf] at hstep
  have ends : (s.after calls (n + 1)).pausedBefore? = none := by
    simp only [isSuspended, Option.isSome_eq_false_iff, Option.isNone_iff_eq_none] at ended
    simp [pausedBefore?, ended]
  have reaches : s.visits nowhere = (List.range (n + 1)).flatMap (s.visitsAt calls) := by
    rw [all, last, coming, ended, List.range_succ]
    simp
  have mem {k : Nat} (hk : k ≤ n) {v : Visit} (hv : v ∈ s.visitsAt calls k) :
      v ∈ s.visits nowhere := by
    rw [reaches]
    exact List.mem_flatMap_of_mem (List.mem_range.mpr (Nat.lt_succ_of_le hk)) hv
  have frame : ∀ k < n, ∃ v ∈ s.visitsAt calls k,
      (s.after calls (k + 1)).pausedBefore? = some v.node ∧
        s.answerAt calls k = .suspended v.location.file v.location.line ∧
        (s.after calls (k + 1)).frame? = some (frameAt v.location v.bindings) := by
    intro k hk
    obtain ⟨source, line, hstep⟩ := completes.suspends k hk
    have stops := (shares_call calls h k).stops
    rw [hstep] at stops
    obtain ⟨v, hv, paused, rfl, rfl, frame⟩ := stops.exists_visit
    exact ⟨v, hv, paused, hstep, frame⟩
  refine ⟨reaches, fun k hk v hv => ?_, frame, fun k hk k' hk' id hid hid' => ?_, ends⟩
  · rw [asks_iff]
    refine (shares_call calls h k).stops.pausedBefore_iff (fun u hu w hw hnode => ?_) v hv
    have hu := located u (mem hk hu)
    rw [hnode, located w (mem hk hw)] at hu
    exact (Option.some.inj hu).symm
  · rcases Nat.lt_or_eq_of_le hk with hk | rfl
    · rcases Nat.lt_or_eq_of_le hk' with hk' | rfl
      · obtain ⟨v, hv, paused, -⟩ := frame k hk
        obtain ⟨v', hv', paused', -⟩ := frame k' hk'
        rw [hid, Option.some.injEq] at paused
        rw [hid', Option.some.injEq] at paused'
        rw [reaches, List.map_flatMap] at nodup
        refine eq_of_mem_flatMap_range nodup (Nat.lt_succ_of_lt hk) (Nat.lt_succ_of_lt hk')
          (x := id) ?_ ?_
        · exact paused ▸ List.mem_map_of_mem hv
        · exact paused' ▸ List.mem_map_of_mem hv'
      · rw [ends] at hid'
        contradiction
    · rw [ends] at hid
      contradiction

end Session

/-! ## Compiled programs -/

namespace Arena

variable {ctx : BuildContext} {a : Arena} {id : NodeId}

theorem bindless_of_operands (ha : a.Ordered) {node : Node} (hn : a.node? id = some node)
    (other : ∀ name value ty, node ≠ .assign name value ty)
    (operands : ∀ x ∈ node.operands, a.Bindless x) : a.Bindless id := by
  intro y hy name value ty hassign
  rw [order_eq ha hn, List.mem_cons, List.mem_flatMap] at hy
  rcases hy with rfl | ⟨x, hx, hy⟩
  · rw [hn] at hassign
    exact other name value ty (Option.some.inj hassign)
  · exact operands x hx y hy name value ty hassign

theorem Shows.bindless (ha : a.Ordered) {f : Compile.Formula} (h : a.Shows ctx id f) :
    a.Bindless id := by
  induction h with
  | @leaf id l node span stands place shows =>
    cases shows <;> exact bindless_of_operands ha stands (by simp) (by simp [Node.operands])
  | group node place shows ih =>
    exact bindless_of_operands ha node (by simp) (by simpa [Node.operands] using ih)
  | unary node place shows ih =>
    exact bindless_of_operands ha node (by simp) (by simpa [Node.operands] using ih)
  | folded literal negative node place shows ih =>
    exact bindless_of_operands ha node (by simp) (by simp [Node.operands])
  | @binary id right n f g node left shows stands ihl ihr =>
    have bindlessRight : a.Bindless n.right := by
      rcases stands with same | ⟨-, v, ty, target, w, place, -, -, new, -⟩
      · rwa [same]
      · exact bindless_of_operands ha new (by simp) (by simp [Node.operands])
    exact bindless_of_operands ha node (by simp)
      (by simpa [Node.operands] using ⟨ihl, bindlessRight⟩)

theorem ShowsStatement.bindsLast (ha : a.Ordered) {s : Grammar.Statement}
    (h : a.ShowsStatement ctx id s) : a.BindsLast id := by
  cases h with
  | expression shows => exact .inl (shows.bindless ha)
  | assignment node shows => exact .inr ⟨_, _, _, node, shows.bindless ha⟩

end Arena

theorem compile_bindsLast {ctx : BuildContext} {inputs : List (String × Ty)}
    {debugSymbols : Bool} {limit : Nat} {p : Program}
    (hp : compile ctx inputs debugSymbols limit = .ok p) :
    ∀ r ∈ p.statements, p.arena.BindsLast r := by
  obtain ⟨script, -, h⟩ := compile_ok hp
  have shows := Compile.compileStatements_shows .empty h
  intro r hr
  obtain ⟨i, hi, rfl⟩ := List.getElem_of_mem hr
  have ordered := (compile_layout hp).1
  exact (shows.get hi (shows.length_eq ▸ hi)).bindsLast ordered

namespace Evaluation

theorem visits_sublist {s : Evaluation} (ha : s.arena.Ordered) (stop : Stop)
    {roots : List NodeId} (within : ∀ r ∈ roots, r.index < s.arena.size) (b : Bindings) :
    ((s.visits stop roots b).map (·.node)).Sublist (roots.flatMap s.arena.order) := by
  induction roots generalizing b with
  | nil => exact List.Sublist.refl _
  | cons id rest ih =>
    rw [List.forall_mem_cons] at within
    rw [visits, List.map_append, List.flatMap_cons]
    have order : (Machine.begin id b).ahead s.arena = s.arena.order id := by
      simp [Machine.ahead, Machine.subjects, Machine.begin, Task.subjects]
    have reached := reached_sublist ha stop false (sound_begin within.1 b)
    rw [order] at reached
    have nodes (ids : List NodeId) : ((s.visitsOf b ids).map (·.node)).Sublist ids := by
      induction ids with
      | nil => exact List.Sublist.refl _
      | cons x ids ih =>
        rw [visitsOf, List.filterMap_cons]
        split
        · exact ih.cons x
        · rename_i v hv
          obtain ⟨l, -, rfl⟩ := Option.map_eq_some_iff.mp hv
          exact ih.cons_cons x
    refine ((nodes _).trans reached).append ?_
    split
    · exact ih within.2 _
    · exact List.nil_sublist _

end Evaluation

namespace Session

open Evaluation

/-- The calls on a session of a program follow the undebugged run. -/
theorem follows_compiled {ctx : BuildContext} {inputs : List (String × Ty)}
    {debugSymbols : Bool} {limit : Nat} {p : Program}
    (hp : compile ctx inputs debugSymbols limit = .ok p) {s : Evaluation}
    (hs : s.arena = p.arena) (b : Bindings) (calls : Nat → Breakpoints × Call) :
    (begin s p.statements b).Tidy ∧ ((s.visits nowhere p.statements b).map (·.node)).Nodup ∧
      ∃ n, (begin s p.statements b).Completes calls n (s.evalAll p.statements b) ∧
        (begin s p.statements b).Follows calls n (s.visits nowhere p.statements b) := by
  obtain ⟨ordered, within, nodup⟩ := compile_layout hp
  have bindsLast := compile_bindsLast hp
  rw [← hs] at ordered within nodup bindsLast
  have tidy : (begin s p.statements b).Tidy := ⟨ordered, bindsLast, by simp [begin]⟩
  have nodes : ((s.visits nowhere p.statements b).map (·.node)).Nodup :=
    (visits_sublist ordered nowhere within b).nodup nodup
  obtain ⟨n, -, completes⟩ := completes_of_steady (steady_begin ordered within b) calls
  exact ⟨tidy, nodes, n, completes,
    follows_of_completes tidy completes nodes fun v hv => location?_of_mem_visits hv⟩

/-- The suspensions of a session are those that its calls ask for. Whatever calls are made on a
session of a program, and whichever lines are registered at each of them, up to the first answer
the session comes to the located nodes of an undebugged run in their order, and it suspends before
one just if the call that comes to it steps or its line is registered, with the bindings that the
statements before have left. -/
theorem suspensions_exact {ctx : BuildContext} {inputs : List (String × Ty)}
    {debugSymbols : Bool} {limit : Nat} {p : Program}
    (hp : compile ctx inputs debugSymbols limit = .ok p) {s : Evaluation}
    (hs : s.arena = p.arena) (b : Bindings) (calls : Nat → Breakpoints × Call) :
    ((s.visits nowhere p.statements b).map (·.node)).Nodup ∧
    (∃ n, (begin s p.statements b).Completes calls n (s.evalAll p.statements b) ∧
      (begin s p.statements b).Follows calls n (s.visits nowhere p.statements b)) ∧
    ∀ k,
      (((begin s p.statements b).after calls (k + 1)).isSuspended = true ↔
        ∃ source line, (begin s p.statements b).answerAt calls k = .suspended source line) ∧
      (((begin s p.statements b).after calls (k + 1)).frame?.isSome = true ↔
        ∃ source line, (begin s p.statements b).answerAt calls k = .suspended source line) := by
  obtain ⟨tidy, nodes, follows⟩ := follows_compiled hp hs b calls
  refine ⟨nodes, follows, fun k => ?_⟩
  have stops := (shares_call calls tidy k).stops
  refine ⟨stops.isSuspended_iff, ?_⟩
  rw [← stops.isSuspended_iff, frame?, Option.isSome_map, isSuspended]

theorem suspensions_exact_two_lines :
    ∃ p, compile twoLines [("a", .primitive .int)] true 128 = .ok p ∧
      p.arena.located.length = 2 ∧
      ∀ calls : Nat → Breakpoints × Call, ∃ n,
        (begin ⟨p.arena, .empty, 64, .accelerated⟩ p.statements (.ofList [("a", .int 3)])).Follows
          calls n (Evaluation.visits ⟨p.arena, .empty, 64, .accelerated⟩ nowhere p.statements
            (.ofList [("a", .int 3)])) := by
  have count : (compile twoLines [("a", .primitive .int)] true 128).map
      (·.arena.located.length) = .ok 2 := by
    decide +kernel
  obtain ⟨p, hp, two⟩ := Kernel.map_eq_ok count
  refine ⟨p, hp, two, fun calls => ?_⟩
  obtain ⟨-, ⟨n, -, follows⟩, -⟩ := suspensions_exact hp
    (s := ⟨p.arena, .empty, 64, .accelerated⟩) rfl (.ofList [("a", .int 3)]) calls
  exact ⟨n, follows⟩

end Session

end Scriptlet
