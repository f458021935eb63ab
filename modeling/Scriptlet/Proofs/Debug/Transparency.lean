import Mathlib.Data.List.Perm.Subperm
import Scriptlet.Debug.Session
import Scriptlet.Proofs.Compile.Layout
import Scriptlet.Proofs.Eval.Discipline

/-!
# Debugging changes nothing

A suspended session still has the answer of an undebugged run to come: `outlook`. A call of the
session either comes to that answer or suspends again, with the same outlook and with fewer
located nodes `remaining`. As a program has every node once, its located nodes bound the
suspensions.
-/
namespace Scriptlet

namespace Arena

/-- The nodes that carry a location. -/
def located (a : Arena) : List NodeId :=
  ((List.range a.size).map NodeId.mk).filter fun id => (a.location? id).isSome

/-- How many of the nodes carry a location. -/
def countLocated (a : Arena) (ids : List NodeId) : Nat :=
  ids.countP fun id => (a.location? id).isSome

@[simp] theorem countLocated_append (a : Arena) (ids ids' : List NodeId) :
    a.countLocated (ids ++ ids') = a.countLocated ids + a.countLocated ids' :=
  List.countP_append

theorem countLocated_cons {a : Arena} {id : NodeId} {l : Location} (h : a.location? id = some l)
    (ids : List NodeId) : a.countLocated (id :: ids) = a.countLocated ids + 1 := by
  simp [countLocated, h]

theorem countLocated_le_of_sublist {a : Arena} {ids ids' : List NodeId} (h : ids.Sublist ids') :
    a.countLocated ids ≤ a.countLocated ids' :=
  h.countP_le

theorem countLocated_le {a : Arena} {ids : List NodeId} (hd : ids.Nodup)
    (h : ∀ id ∈ ids, id.index < a.size) : a.countLocated ids ≤ a.located.length := by
  rw [countLocated, List.countP_eq_length_filter]
  refine (List.Nodup.subperm (hd.filter _) fun id hid => ?_).length_le
  obtain ⟨hmem, hloc⟩ := List.mem_filter.mp hid
  refine List.mem_filter.mpr ⟨?_, hloc⟩
  exact List.mem_map.mpr ⟨id.index, List.mem_range.mpr (h id hmem), rfl⟩

end Arena

namespace Evaluation

theorem run_nowhere_of_done {s : Evaluation} {stop : Stop} {resuming : Bool} {m : Machine}
    {v : Value} {b : Bindings} (h : s.run stop resuming m = .done v b) :
    s.run nowhere false m = .done v b := by
  fun_induction run s stop resuming m with
  | case1 resuming m ht =>
    obtain ⟨tasks, vs, b'⟩ := m
    subst ht
    rw [run]
    exact h
  | case2 => contradiction
  | case3 => contradiction
  | case4 resuming m t rest ht hs next hp ih =>
    obtain ⟨tasks, vs, b'⟩ := m
    subst ht
    rw [run_nowhere_cons, hp]
    exact ih h

theorem run_nowhere_of_failed {s : Evaluation} {stop : Stop} {resuming : Bool} {m : Machine}
    {e : ExecutionError} {b : Bindings} (h : s.run stop resuming m = .failed e b) :
    s.run nowhere false m = .failed e b := by
  fun_induction run s stop resuming m with
  | case1 => contradiction
  | case2 => contradiction
  | case3 resuming m t rest ht hs e' hp =>
    obtain ⟨tasks, vs, b'⟩ := m
    subst ht
    rw [run_nowhere_cons, hp]
    exact h
  | case4 resuming m t rest ht hs next hp ih =>
    obtain ⟨tasks, vs, b'⟩ := m
    subst ht
    rw [run_nowhere_cons, hp]
    exact ih h

/-- The machine is about to evaluate a node at a location. -/
def Before (s : Evaluation) (l : Location) (m : Machine) : Prop :=
  ∃ id depth rest, m.tasks = .eval id depth :: rest ∧ s.arena.location? id = some l

theorem before_of_stopBefore? {s : Evaluation} {stop : Stop} {t : Task} {id : NodeId}
    {l : Location} (h : s.stopBefore? stop t = some (id, l)) :
    ∃ depth, t = .eval id depth ∧ s.arena.location? id = some l := by
  cases t with
  | eval id' depth =>
    simp only [stopBefore?, Option.map_eq_some_iff, Option.filter_eq_some_iff] at h
    obtain ⟨l', ⟨hl, -⟩, he⟩ := h
    obtain ⟨rfl, rfl⟩ := Prod.mk.inj he
    exact ⟨depth, rfl, hl⟩
  | _ => contradiction

/-- A machine that stops has only made steps. -/
theorem path_of_paused {s : Evaluation} {stop : Stop} {m m' : Machine} {id : NodeId}
    {l : Location} {resuming : Bool} (h : s.run stop resuming m = .paused id l m') :
    ∃ ids, s.Path m ids m' ∧ s.Before l m' := by
  fun_induction run s stop resuming m with
  | case1 => contradiction
  | case2 resuming m t rest ht id' l' hs =>
    cases h
    cases resuming with
    | true => contradiction
    | false =>
      obtain ⟨depth, rfl, hl⟩ := before_of_stopBefore? hs
      exact ⟨[], .here _, id, depth, rest, ht, hl⟩
  | case3 => contradiction
  | case4 resuming m t rest ht hs next hp ih =>
    obtain ⟨ids, path, before⟩ := ih h
    obtain ⟨tasks, vs, b⟩ := m
    subst ht
    exact ⟨_, .step hp path, before⟩

/-- A machine that goes on where it stopped enters that node before it stops again. -/
theorem path_of_paused_again {s : Evaluation} {stop : Stop} {m m' : Machine} {id id' : NodeId}
    {l : Location} {depth : Nat} {rest : List Task} (ht : m.tasks = .eval id depth :: rest)
    (h : s.run stop true m = .paused id' l m') :
    ∃ ids, s.Path m (id :: ids) m' ∧ s.Before l m' := by
  obtain ⟨tasks, vs, b⟩ := m
  subst ht
  rw [run_cons] at h
  simp only [if_true] at h
  split at h
  · contradiction
  · rename_i next hp
    obtain ⟨ids, path, before⟩ := path_of_paused h
    exact ⟨ids, .step hp path, before⟩

/-- A node about to be evaluated is the first one ahead. -/
theorem ahead_eq_cons {s : Evaluation} (ha : s.arena.Ordered) {m : Machine} (sound : s.Sound m)
    {id : NodeId} {depth : Nat} {rest : List Task} (ht : m.tasks = .eval id depth :: rest) :
    m.ahead s.arena = id :: (m.ahead s.arena).tail := by
  have hid : id ∈ m.subjects := by simp [Machine.subjects, ht, Task.subjects]
  obtain ⟨node, hn⟩ := Arena.node?_isSome (sound.within id hid)
  simp [Machine.ahead, Machine.subjects, ht, Task.subjects, Arena.order_eq ha hn]

end Evaluation

namespace Session

open Evaluation

/-- What an undebugged run would answer from here. -/
def outlook (s : Session) : Answer :=
  match s.suspension with
  | none => s.evaluation.evalFrom s.last s.statements s.settled
  | some (_, m) =>
    (s.evaluation.run nowhere false m).answer.andThen fun v b =>
      s.evaluation.evalFrom v s.statements.tail b

/-- The located nodes that the session can still suspend before. -/
def remaining (s : Session) : Nat :=
  let a := s.evaluation.arena
  match s.suspension with
  | none => a.countLocated (s.statements.flatMap a.order)
  | some (_, m) =>
    a.countLocated (m.ahead a).tail + a.countLocated (s.statements.tail.flatMap a.order)

/-- What holds of a session between calls that have not come to an end. -/
structure Steady (s : Session) : Prop where
  ordered : s.evaluation.arena.Ordered
  within : ∀ r ∈ s.statements, r.index < s.evaluation.arena.size
  suspended : ∀ l m, s.suspension = some (l, m) → s.evaluation.Sound m ∧ s.evaluation.Before l m

/-- A call comes to the answer, or suspends with the answer to come and less than `bound` located
nodes ahead. -/
inductive Called (s : Evaluation) (answer : Answer) (bound : Nat) : DebugStep × Session → Prop
  | completed {v : Value} {next : Session} (ends : answer = (.ok v, next.bindings)) :
      Called s answer bound (.completed v, next)
  | failed {e : ExecutionError} {next : Session} (ends : answer = (.error e, next.bindings)) :
      Called s answer bound (.failed e, next)
  | suspended {source : String} {line : Nat} {next : Session} (evaluation : next.evaluation = s)
      (steady : next.Steady) (isSuspended : next.isSuspended = true)
      (outlook : next.outlook = answer) (fewer : next.remaining < bound) :
      Called s answer bound (.suspended source line, next)

/-- A suspension inside of the first statement. -/
theorem called_of_paused {s : Evaluation} (ha : s.arena.Ordered) {roots : List NodeId}
    (within : ∀ r ∈ roots, r.index < s.arena.size) {last : Value} {settled : Bindings}
    {start m : Machine} {ids : List NodeId} {l : Location} {bound : Nat} (sound : s.Sound start)
    (path : s.Path start ids m) (before : s.Before l m)
    (fewer : s.arena.countLocated (m.ahead s.arena) +
      s.arena.countLocated (roots.tail.flatMap s.arena.order) ≤ bound) :
    Called s ((s.run nowhere false start).answer.andThen fun v b =>
        s.evalFrom v roots.tail b) bound
      (.suspended l.file l.line, ⟨s, roots, some (l, m), last, settled⟩) := by
  have soundAfter := sound.path ha path
  refine .suspended rfl ⟨ha, within, ?_⟩ rfl ?_ ?_
  · intro l' m' h
    cases h
    exact ⟨soundAfter, before⟩
  · simp only [outlook, run_path path]
  · obtain ⟨id, depth, rest, ht, hl⟩ := before
    rw [ahead_eq_cons ha soundAfter ht, Arena.countLocated_cons hl] at fewer
    simp only [remaining]
    omega

theorem called_advance {s : Evaluation} (ha : s.arena.Ordered) (stop : Stop) {roots : List NodeId}
    (within : ∀ r ∈ roots, r.index < s.arena.size) (last : Value) (b : Bindings) {bound : Nat}
    (hbound : s.arena.countLocated (roots.flatMap s.arena.order) ≤ bound) :
    Called s (s.evalFrom last roots b) bound (advance s stop last roots b) := by
  induction roots generalizing last b bound with
  | nil => exact .completed rfl
  | cons id rest ih =>
    rw [List.forall_mem_cons] at within
    rw [List.flatMap_cons, Arena.countLocated_append] at hbound
    have answer : s.evalFrom last (id :: rest) b =
        (s.run nowhere false (.begin id b)).answer.andThen fun v b => s.evalFrom v rest b := by
      rw [Evaluation.evalFrom, s.eval_eq_valueAt, ← (s.ends_valueAt id 0 b [] []).run_answer]
      rfl
    rw [answer, advance]
    split
    · rename_i v b' hr
      rw [run_nowhere_of_done hr]
      exact ih within.2 v b' (by omega)
    · rename_i e b' hr
      rw [run_nowhere_of_failed hr]
      exact .failed rfl
    · rename_i id' l m hr
      obtain ⟨ids, path, before⟩ := path_of_paused hr
      have sound := sound_begin within.1 b
      refine called_of_paused ha (List.forall_mem_cons.mpr within) sound path before ?_
      have order : (Machine.begin id b).ahead s.arena = s.arena.order id := by
        simp [Machine.ahead, Machine.subjects, Machine.begin, Task.subjects]
      have part := Arena.countLocated_le_of_sublist (a := s.arena) (path.ahead_sublist ha sound)
      rw [order, Arena.countLocated_append] at part
      simp only [List.tail_cons]
      omega

theorem called_resume {s : Session} (h : s.Steady) (breakpoints : Breakpoints) (d : Directive) :
    Called s.evaluation s.outlook s.remaining (s.resume breakpoints d) := by
  obtain ⟨ev, roots, suspension, last, settled⟩ := s
  cases suspension with
  | none => exact called_advance h.ordered _ h.within last settled (Nat.le_refl _)
  | some suspended =>
    obtain ⟨l, m⟩ := suspended
    obtain ⟨sound, id, depth, rest, ht, hl⟩ := h.suspended l m rfl
    simp only [resume, resumeAt, outlook]
    split
    · rename_i v b hr
      rw [run_nowhere_of_done hr]
      have within : ∀ r ∈ roots.tail, r.index < ev.arena.size := fun r hr =>
        h.within r (List.mem_of_mem_tail hr)
      exact called_advance h.ordered _ within v b (Nat.le_add_left _ _)
    · rename_i e b hr
      rw [run_nowhere_of_failed hr]
      exact .failed rfl
    · rename_i id' l' m' hr
      obtain ⟨ids, path, before⟩ := path_of_paused_again ht hr
      refine called_of_paused h.ordered h.within sound path before ?_
      have part : (ids ++ m'.ahead ev.arena).Sublist (m.ahead ev.arena).tail := by
        have part := path.ahead_sublist h.ordered sound
        rwa [ahead_eq_cons h.ordered sound ht, List.cons_append, List.cons_sublist_cons] at part
      have := Arena.countLocated_le_of_sublist (a := ev.arena) part
      rw [Arena.countLocated_append] at this
      simp only [remaining]
      omega

/-! ## Sequences of calls -/

/-- A call of a session: its start, or its resumption. -/
inductive Call where
  | start
  | resume (d : Directive)

/-- Makes a call under the lines registered by then. -/
def call (s : Session) (breakpoints : Breakpoints) : Call → DebugStep × Session
  | .start => s.start breakpoints
  | .resume d => s.resume breakpoints d

/-- The session after some calls, each with its own registered lines. -/
def after (s : Session) (calls : Nat → Breakpoints × Call) : Nat → Session
  | 0 => s
  | n + 1 => ((s.after calls n).call (calls n).1 (calls n).2).2

/-- The answer to a call of the sequence. -/
def answerAt (s : Session) (calls : Nat → Breakpoints × Call) (n : Nat) : DebugStep :=
  ((s.after calls n).call (calls n).1 (calls n).2).1

theorem called_call {s : Session} (h : s.Steady) (breakpoints : Breakpoints) (c : Call) :
    Called s.evaluation s.outlook s.remaining (s.call breakpoints c) := by
  cases c with
  | start => exact called_resume h breakpoints .continue
  | resume d => exact called_resume h breakpoints d

theorem after_succ (s : Session) (calls : Nat → Breakpoints × Call) (n : Nat) :
    s.after calls (n + 1) =
      ((s.call (calls 0).1 (calls 0).2).2).after (fun k => calls (k + 1)) n := by
  induction n with
  | zero => rfl
  | succ n ih => rw [after, ih, after]

/-- The step that an answer is seen as. -/
def stepOf : Except ExecutionError Value → DebugStep
  | .ok v => .completed v
  | .error e => .failed e

/-- So many calls suspend, and the next one comes to the answer. -/
structure Completes (s : Session) (calls : Nat → Breakpoints × Call) (n : Nat) (r : Answer) :
    Prop where
  suspends : ∀ k < n, ∃ source line, s.answerAt calls k = .suspended source line
  answers : s.answerAt calls n = stepOf r.1
  bindings : (s.after calls (n + 1)).bindings = r.2

theorem completes_of_steady {s : Session} (h : s.Steady)
    (calls : Nat → Breakpoints × Call) :
    ∃ n ≤ s.remaining, s.Completes calls n s.outlook := by
  -- A suspension leaves fewer located nodes, and the other calls for what is ahead.
  induction hk : s.remaining using Nat.strongRecOn generalizing s calls with
  | ind k ih =>
    subst hk
    have called := called_call h (calls 0).1 (calls 0).2
    generalize hc : s.call (calls 0).1 (calls 0).2 = r at called
    cases called with
    | completed ends =>
      exact ⟨0, Nat.zero_le _, by simp, by simp [answerAt, after, hc, ends, stepOf],
        by simp [after, hc, ends]⟩
    | failed ends =>
      exact ⟨0, Nat.zero_le _, by simp, by simp [answerAt, after, hc, ends, stepOf],
        by simp [after, hc, ends]⟩
    | @suspended source line next evaluation steady isSuspended outlook fewer =>
      obtain ⟨n, hn, completes⟩ := ih next.remaining fewer steady (fun k => calls (k + 1)) rfl
      have later (k : Nat) : s.after calls (k + 1) = next.after (fun k => calls (k + 1)) k := by
        rw [after_succ, hc]
      refine ⟨n + 1, by omega, ?_, ?_, ?_⟩
      · intro k hk
        cases k with
        | zero => exact ⟨source, line, by simp [answerAt, after, hc]⟩
        | succ k =>
          obtain ⟨source, line, h⟩ := completes.suspends k (by omega)
          exact ⟨source, line, by rw [answerAt, later]; exact h⟩
      · rw [answerAt, later, ← outlook]
        exact completes.answers
      · rw [later, ← outlook]
        exact completes.bindings

/-! ## Runs under a debugger -/

/-- A debugger that saw some frames gets the outlook of the session. -/
theorem runFrom_eq_outlook {σ : Type} (onBreak : σ → Frame → Directive × σ)
    (registry : σ → Breakpoints) (state : σ) (d : Directive) {s : Session} (h : s.Steady) :
    ∃ frames : List Frame, frames.length ≤ s.remaining ∧
      s.runFrom onBreak registry state d = (s.outlook.1, s.outlook.2,
        frames.foldl (fun state frame => (onBreak state frame).2) state) := by
  induction hk : s.remaining using Nat.strongRecOn generalizing s state d with
  | ind k ih =>
    subst hk
    have called := called_resume h (registry state) d
    rw [runFrom]
    split
    · rename_i v next hr
      rw [hr] at called
      cases called with
      | completed ends => exact ⟨[], Nat.zero_le _, by rw [ends]; rfl⟩
    · rename_i e next hr
      rw [hr] at called
      cases called with
      | failed ends => exact ⟨[], Nat.zero_le _, by rw [ends]; rfl⟩
    · rename_i source line next hr
      rw [hr] at called
      cases called with
      | suspended evaluation steady isSuspended outlook fewer =>
        split
        · rename_i hf
          simp [frame?] at hf
          simp [Session.isSuspended, hf] at isSuspended
        · rename_i frame hf
          obtain ⟨frames, hlen, hrun⟩ := ih next.remaining fewer (onBreak state frame).2
            (onBreak state frame).1 steady rfl
          refine ⟨frame :: frames, ?_, ?_⟩
          · rw [List.length_cons]
            omega
          · rw [hrun, outlook, List.foldl_cons]

theorem steady_begin {s : Evaluation} (ha : s.arena.Ordered) {roots : List NodeId}
    (within : ∀ r ∈ roots, r.index < s.arena.size) (b : Bindings) :
    (begin s roots b).Steady :=
  ⟨ha, within, by simp [begin]⟩

/-- Debugging a program changes nothing. Whatever calls are made on a session of it, and whichever
lines are registered at each of them, so many suspend as the program has located nodes at most,
and the next one comes to the answer of an undebugged run, with its bindings. The same answer is
what a debugger gets that is asked at every suspension. -/
theorem debugging_transparent {ctx : BuildContext} {inputs : List (String × Ty)}
    {debugSymbols : Bool} {limit : Nat} {p : Program}
    (hp : compile ctx inputs debugSymbols limit = .ok p) {s : Evaluation}
    (hs : s.arena = p.arena) (b : Bindings) :
    (∀ calls : Nat → Breakpoints × Call, ∃ n ≤ p.arena.located.length,
      (begin s p.statements b).Completes calls n (s.evalAll p.statements b)) ∧
    ∀ (σ : Type) (onBreak : σ → Frame → Directive × σ) (registry : σ → Breakpoints) (state : σ),
      ∃ frames : List Frame, frames.length ≤ p.arena.located.length ∧
        (begin s p.statements b).runToCompletion onBreak registry state =
          ((s.evalAll p.statements b).1, (s.evalAll p.statements b).2,
            frames.foldl (fun state frame => (onBreak state frame).2) state) := by
  obtain ⟨ordered, within, nodup⟩ := compile_layout hp
  rw [← hs] at ordered within nodup ⊢
  have steady := steady_begin ordered within b
  have bound : (begin s p.statements b).remaining ≤ s.arena.located.length := by
    refine Arena.countLocated_le nodup fun x hx => ?_
    obtain ⟨r, hr, hx⟩ := List.mem_flatMap.mp hx
    exact Nat.lt_of_le_of_lt (Arena.le_of_mem_order ordered hx) (within r hr)
  constructor
  · intro calls
    obtain ⟨n, hn, completes⟩ := completes_of_steady steady calls
    exact ⟨n, Nat.le_trans hn bound, completes⟩
  · intro σ onBreak registry state
    obtain ⟨frames, hlen, hrun⟩ := runFrom_eq_outlook onBreak registry state .continue steady
    exact ⟨frames, Nat.le_trans hlen bound, hrun⟩

/-- Two statements on two lines. -/
def twoLines : BuildContext where
  strongTyping := true
  conversions := .empty
  equality := .rejectAll
  source := "x = a + 1;\nx * 2".toList
  file := none

theorem debugging_transparent_two_lines :
    ∃ p, compile twoLines [("a", .primitive .int)] true 128 = .ok p ∧
      p.arena.located.length = 2 ∧
      ∀ calls : Nat → Breakpoints × Call, ∃ n ≤ 2,
        (begin ⟨p.arena, .empty, 64, .accelerated⟩ p.statements (.ofList [("a", .int 3)])).Completes
          calls n (Evaluation.evalAll ⟨p.arena, .empty, 64, .accelerated⟩ p.statements
            (.ofList [("a", .int 3)])) := by
  have count : (compile twoLines [("a", .primitive .int)] true 128).map
      (·.arena.located.length) = .ok 2 := by decide +kernel
  cases h : compile twoLines [("a", .primitive .int)] true 128 with
  | error e =>
    rw [h] at count
    contradiction
  | ok p =>
    rw [h] at count
    have two : p.arena.located.length = 2 := Except.ok.inj count
    obtain ⟨calls, -⟩ := debugging_transparent h
      (s := ⟨p.arena, .empty, 64, .accelerated⟩) rfl (.ofList [("a", .int 3)])
    refine ⟨p, rfl, two, ?_⟩
    rwa [two] at calls

end Session

end Scriptlet
