import Scriptlet.Proofs.Compile.Lines
import Scriptlet.Proofs.Debug.Visits

/-!
# Lines that are hit

A breakpoint is hit where evaluation comes to a node with which the order of its statement turns
to the line. Of the nodes before one that evaluation comes to, only those in operands that a
conjunction or disjunction drops are passed over. So a line that executes is hit, unless the first
of its nodes is dropped.
-/
namespace Scriptlet

namespace Evaluation

/-- On its way the machine drops the right operand of a conjunction or disjunction, and the node
in it. -/
def Dropped (s : Evaluation) (m : Machine) (x : NodeId) : Prop :=
  ∃ ids id n depth rest vs b, s.Path m ids ⟨.right id n depth :: rest, vs, b⟩ ∧
    decided n.op vs.head? = true ∧ x ∈ s.arena.order n.right

theorem Dropped.step {s : Evaluation} {t : Task} {rest : List Task} {vs : List Value}
    {b : Bindings} {next : Machine} {x : NodeId} (h : s.Dropped next x)
    (performed : s.perform t ⟨rest, vs, b⟩ = .ok next) : s.Dropped ⟨t :: rest, vs, b⟩ x := by
  obtain ⟨ids, id, n, depth, rest', vs', b', path, rest⟩ := h
  exact ⟨_, id, n, depth, rest', vs', b', .step performed path, rest⟩

/-- A step enters the first node ahead, or drops a right operand, or leaves what is ahead. -/
theorem ahead_of_perform {s : Evaluation} (ha : s.arena.Ordered) {t : Task} {rest : List Task}
    {vs : List Value} {b : Bindings} {next : Machine} (sound : s.Sound ⟨t :: rest, vs, b⟩)
    (performed : s.perform t ⟨rest, vs, b⟩ = .ok next) :
    Machine.ahead s.arena ⟨t :: rest, vs, b⟩ = t.entered ++ next.ahead s.arena ∨
      ∃ id n depth, t = .right id n depth ∧ decided n.op vs.head? = true ∧
        Machine.ahead s.arena ⟨t :: rest, vs, b⟩ = s.arena.order n.right ++ next.ahead s.arena := by
  cases t with
  | eval id depth =>
    left
    have within : id.index < s.arena.size :=
      sound.within id (by simp [Machine.subjects, Task.subjects])
    obtain ⟨node, hn⟩ := Arena.node?_isSome within
    have order := Arena.order_eq ha hn
    simp only [perform, enter] at performed
    split at performed
    · simp only [enterNode, hn] at performed
      cases node with
      | literal v ty =>
        obtain rfl := Except.ok.inj performed
        simp [Machine.ahead, Machine.subjects, Task.subjects, Task.entered, order, Node.operands,
          Machine.pushValue]
      | «variable» name ty =>
        simp only at performed
        split at performed
        · obtain rfl := Except.ok.inj performed
          simp [Machine.ahead, Machine.subjects, Task.subjects, Task.entered, order,
            Node.operands, Machine.pushValue]
        · contradiction
      | group inner | unary op operand ty | assign name value ty =>
        obtain rfl := Except.ok.inj performed
        simp [Machine.ahead, Machine.subjects, Task.subjects, Task.entered, order, Node.operands,
          Machine.pushTask]
      | binary n =>
        simp only at performed
        split at performed
        · contradiction
        · obtain rfl := Except.ok.inj performed
          simp [Machine.ahead, Machine.subjects, Task.subjects, Task.entered, order,
            Node.operands, Machine.pushTask]
    · contradiction
  | right id n depth =>
    simp only [perform] at performed
    split at performed
    · rename_i hdec
      obtain rfl := Except.ok.inj performed
      exact .inr ⟨id, n, depth, rfl, hdec, by
        simp [Machine.ahead, Machine.subjects, Task.subjects]⟩
    · obtain rfl := Except.ok.inj performed
      exact .inl (by simp [Machine.ahead, Machine.subjects, Task.subjects, Task.entered,
        Machine.pushTask])
  | unary id op | assign name | apply id n =>
    left
    cases performed_of_perform performed
    simp [Machine.ahead, Machine.subjects, Task.subjects, Task.entered, Machine.pushValue]

theorem split_after {α : Type} {taken later front back : List α} {n : α}
    (h : taken ++ later = front ++ n :: back) (hn : n ∉ taken) :
    ∃ front', front = taken ++ front' ∧ later = front' ++ n :: back := by
  rcases List.append_eq_append_iff.mp h with ⟨front', hfront, hlater⟩ | ⟨between, htaken, hn'⟩
  · exact ⟨front', hfront, hlater⟩
  · cases between with
    | nil => exact ⟨[], by simpa using htaken.symm, by simpa using hn'.symm⟩
    | cons y between =>
      obtain ⟨rfl, -⟩ := List.cons.inj hn'
      exact absurd (by simp [htaken]) hn

theorem eq_nil_of_head {α : Type} {n : α} {rest front back : List α}
    (h : n :: rest = front ++ n :: back) (nodup : (n :: rest).Nodup) : front = [] := by
  cases front with
  | nil => rfl
  | cons y front =>
    obtain ⟨rfl, htail⟩ := List.cons.inj h
    rw [htail] at nodup
    simp at nodup

theorem eval_of_mem_entered {t : Task} {x : NodeId} (h : x ∈ t.entered) :
    ∃ id depth, t = .eval id depth := by
  cases t with
  | eval id depth => exact ⟨id, depth, rfl⟩
  | _ => contradiction

/-- The nodes before one that a run comes to are come to as well, or dropped. -/
theorem reached_or_dropped {s : Evaluation} (ha : s.arena.Ordered) {m : Machine}
    (sound : s.Sound m) (nodup : (m.ahead s.arena).Nodup) {front back : List NodeId} {n : NodeId}
    (hahead : m.ahead s.arena = front ++ n :: back) (hn : n ∈ s.reached nowhere false m) :
    ∀ x ∈ front, x ∈ s.reached nowhere false m ∨ s.Dropped m x := by
  -- Along the run; its steps take the nodes ahead from the front.
  induction hw : s.weight m using Nat.strongRecOn generalizing m front with
  | ind w ih =>
    subst hw
    obtain ⟨tasks, vs, b⟩ := m
    cases tasks with
    | nil =>
      rw [reached_nil] at hn
      contradiction
    | cons t rest =>
      rw [reached_nowhere_cons, if_neg Bool.false_ne_true] at hn ⊢
      cases performed : s.perform t ⟨rest, vs, b⟩ with
      | error e =>
        -- The run ends with this node, so none is before it.
        simp only [performed, List.append_nil] at hn ⊢
        cases t with
        | eval id depth =>
          obtain rfl := List.mem_singleton.mp hn
          rw [ahead_eq_cons ha sound rfl] at hahead nodup
          obtain rfl := eq_nil_of_head hahead nodup
          simp
        | _ => contradiction
      | ok next =>
        simp only [performed] at hn ⊢
        have lighter : s.weight next < s.weight ⟨t :: rest, vs, b⟩ := by
          have hw := weight_perform performed
          simp only [weight, List.foldr_cons] at hw ⊢
          omega
        have soundNext := sound.step ha performed
        have ahead {x : NodeId} (hx : x ∈ s.reached nowhere false next) :
            x ∈ next.ahead s.arena := (reached_sublist ha nowhere false soundNext).subset hx
        rcases ahead_of_perform ha sound performed with step | ⟨id, op, depth, rfl, hdec, step⟩
        · rw [step] at hahead nodup
          rcases List.mem_append.mp hn with hn | hn
          · obtain ⟨id, depth, rfl⟩ := eval_of_mem_entered hn
            obtain rfl := List.mem_singleton.mp hn
            obtain rfl := eq_nil_of_head hahead nodup
            simp
          · rw [List.nodup_append] at nodup
            have outside : n ∉ t.entered := fun h => nodup.2.2 n h n (ahead hn) rfl
            obtain ⟨front', rfl, hnext⟩ := split_after hahead outside
            intro x hx
            rcases List.mem_append.mp hx with hx | hx
            · exact .inl (List.mem_append_left _ hx)
            · refine (ih _ lighter soundNext nodup.2.1 hnext hn rfl x hx).imp ?_ ?_
              · exact List.mem_append_right _
              · exact fun dropped => dropped.step performed
        · rw [step, List.nodup_append] at nodup
          rw [step] at hahead
          have hn : n ∈ s.reached nowhere false next := by simpa [Task.entered] using hn
          have outside : n ∉ s.arena.order op.right := fun h => nodup.2.2 n h n (ahead hn) rfl
          obtain ⟨front', rfl, hnext⟩ := split_after hahead outside
          intro x hx
          rcases List.mem_append.mp hx with hx | hx
          · exact .inr ⟨[], id, op, depth, rest, vs, b, .here _, hdec, hx⟩
          · refine (ih _ lighter soundNext nodup.2.1 hnext hn rfl x hx).imp ?_ ?_
            · exact List.mem_append_right _
            · exact fun dropped => dropped.step performed

/-! ## Statements -/

theorem done_of_eval {s : Evaluation} {id : NodeId} {b b' : Bindings} {v : Value}
    (h : s.eval id b = (.ok v, b')) : s.run nowhere false (.begin id b) = .done v b' := by
  have stops := s.stops_run nowhere false (.begin id b)
  rw [eval] at h
  generalize s.reached nowhere false (.begin id b) = ids at stops
  generalize s.run nowhere false (.begin id b) = o at h stops
  cases stops with
  | done =>
    obtain ⟨hv, rfl⟩ := Prod.mk.inj h
    obtain rfl := Except.ok.inj hv
    rfl
  | failed => simp at h
  | paused _ _ asked => contradiction

theorem eval_of_done {s : Evaluation} {id : NodeId} {b b' : Bindings} {v : Value}
    (h : s.run nowhere false (.begin id b) = .done v b') : s.eval id b = (.ok v, b') := by
  rw [eval, h]

/-- The visits are the located nodes that the statements which are begun come to. -/
theorem mem_visits_iff {s : Evaluation} {roots : List NodeId} {b : Bindings} {x : NodeId}
    {l : Location} :
    (∃ b', ⟨x, l, b'⟩ ∈ s.visits nowhere roots b) ↔
      s.arena.location? x = some l ∧ ∃ root b', s.Comes roots b root b' ∧
        x ∈ s.reached nowhere false (.begin root b') := by
  induction roots generalizing b with
  | nil =>
    constructor
    · rintro ⟨b', h⟩
      contradiction
    · rintro ⟨-, root, b', comes, -⟩
      cases comes
  | cons id rest ih =>
    simp only [visits, List.mem_append]
    constructor
    · rintro ⟨b', h | h⟩
      · obtain ⟨hx, hl, rfl⟩ := mem_visitsOf h
        exact ⟨hl, id, _, .here, hx⟩
      · split at h
        · rename_i v b₁ hr
          obtain ⟨hl, root, b', comes, hx⟩ := ih.mp ⟨b', h⟩
          exact ⟨hl, root, b', .later (eval_of_done hr) comes, hx⟩
        · contradiction
    · rintro ⟨hl, root, b', comes, hx⟩
      cases comes with
      | here =>
        refine ⟨b, .inl (List.mem_filterMap.mpr ⟨x, hx, ?_⟩)⟩
        rw [hl]
        rfl
      | later done comes =>
        obtain ⟨b'', h⟩ := ih.mpr ⟨hl, root, b', comes, hx⟩
        rw [done_of_eval done]
        exact ⟨b'', .inr h⟩

end Evaluation

/-- The table with one line of one source. -/
def Breakpoints.only (source : String) (line : Nat) : Breakpoints := (empty.register source line).2

theorem Breakpoints.isRegistered_only (source other : String) (line k : Nat) :
    (only source line).isRegistered other k = decide (other = source ∧ k = line) := by
  rw [isRegistered_eq, only, lines_register]
  by_cases same : other = source <;> simp [same, LineSet.place]

namespace Session

open Evaluation

/-- Up to the answer `r` some call of the sequence suspends at the line. -/
def Hits (s : Session) (calls : Nat → Breakpoints × Call) (r : Answer) (source : String)
    (line : Nat) : Prop :=
  ∃ n, s.Completes calls n r ∧ ∃ k < n, s.answerAt calls k = .suspended source line

/-- One line is registered throughout, and every call continues. -/
def Continues (calls : Nat → Breakpoints × Call) (source : String) (line : Nat) : Prop :=
  ∀ k, (calls k).1 = .only source line ∧ (calls k).2.directive = .continue

theorem asks_of_continues {calls : Nat → Breakpoints × Call} {source : String} {line : Nat}
    (h : Continues calls source line) (k : Nat) (l : Location) :
    Asks (calls k) l ↔ l.file = source ∧ l.line = line := by
  obtain ⟨breakpoints, directive⟩ := h k
  rw [asks_iff, stopOf, stopAt, breakpoints, directive]
  simp [Breakpoints.isRegistered_only]

theorem completes_unique {s : Session} {calls : Nat → Breakpoints × Call} {n n' : Nat}
    {r r' : Answer} (h : s.Completes calls n r) (h' : s.Completes calls n' r') : n = n' := by
  have notBefore {n n' : Nat} {r r' : Answer} (h : s.Completes calls n r)
      (h' : s.Completes calls n' r') : ¬ n < n' := by
    intro hlt
    obtain ⟨source, line, hstep⟩ := h'.suspends n hlt
    rw [h.answers] at hstep
    obtain ⟨e | v, b⟩ := r <;> contradiction
  have := notBefore h h'
  have := notBefore h' h
  omega

/-- With one line registered and no steps, the session suspends at the line just if the run comes
to a located node of the line. -/
theorem hits_iff {s : Session} {calls : Nat → Breakpoints × Call} {n : Nat} {r : Answer}
    {source : String} {line : Nat} (continues : Continues calls source line)
    (completes : s.Completes calls n r) (follows : s.Follows calls n (s.visits nowhere)) :
    s.Hits calls r source line ↔
      ∃ v ∈ s.visits nowhere, v.location.file = source ∧ v.location.line = line := by
  constructor
  · rintro ⟨n', completes', k, hk, hstep⟩
    obtain rfl := completes_unique completes completes'
    obtain ⟨v, hv, -, answer, -⟩ := follows.frame k hk
    rw [hstep] at answer
    obtain ⟨rfl, rfl⟩ := DebugStep.suspended.inj answer
    refine ⟨v, ?_, rfl, rfl⟩
    rw [follows.reaches]
    exact List.mem_flatMap_of_mem (List.mem_range.mpr (Nat.lt_succ_of_lt hk)) hv
  · rintro ⟨v, hv, hfile, hline⟩
    rw [follows.reaches] at hv
    obtain ⟨k, hk, hv⟩ := List.mem_flatMap.mp hv
    have hk : k ≤ n := Nat.le_of_lt_succ (List.mem_range.mp hk)
    have asks : Asks (calls k) v.location := (asks_of_continues continues k _).mpr ⟨hfile, hline⟩
    have paused := (follows.suspends_iff k hk v hv).mpr asks
    have hk : k < n := by
      rcases Nat.lt_or_eq_of_le hk with hk | rfl
      · exact hk
      · rw [follows.ends] at paused
        contradiction
    obtain ⟨w, hw, pausedAt, answer, -⟩ := follows.frame k hk
    have asked := (follows.suspends_iff k (Nat.le_of_lt hk) w hw).mp pausedAt
    obtain ⟨rfl, rfl⟩ := (asks_of_continues continues k _).mp asked
    exact ⟨n, completes, k, hk, answer⟩

/-- A breakpoint is hit just if the run comes to a node with which the order of a statement turns
to the line. So a line on which the run begins a node is hit, unless a conjunction or disjunction
drops the first node on it. -/
theorem breakpoint_hit {ctx : BuildContext} {inputs : List (String × Ty)} {limit : Nat}
    {p : Program} (hp : compile ctx inputs true limit = .ok p) {s : Evaluation}
    (hs : s.arena = p.arena) (b : Bindings) {line : Nat} {calls : Nat → Breakpoints × Call}
    (continues : Continues calls ctx.fileName line) :
    ((begin s p.statements b).Hits calls (s.evalAll p.statements b) ctx.fileName line ↔
      ∃ root b' x, s.Comes p.statements b root b' ∧ x ∈ s.reached nowhere false (.begin root b') ∧
        p.arena.Turns ctx (p.arena.order root) x line) ∧
    ∀ root b' n, s.Comes p.statements b root b' → n ∈ s.reached nowhere false (.begin root b') →
      ctx.line? p.arena n = some line →
      (begin s p.statements b).Hits calls (s.evalAll p.statements b) ctx.fileName line ∨
        ∃ x, p.arena.FirstOn ctx (p.arena.order root) x line ∧ s.Dropped (.begin root b') x := by
  obtain ⟨ordered, within, nodup⟩ := compile_layout hp
  obtain ⟨-, -, n, completes, follows⟩ := follows_compiled hp hs b calls
  have start (root : NodeId) (b' : Bindings) :
      (Machine.begin root b').ahead s.arena = p.arena.order root := by
    simp [Machine.ahead, Machine.subjects, Machine.begin, Task.subjects, hs]
  have sound {root : NodeId} {b' : Bindings} (comes : s.Comes p.statements b root b') :
      s.Sound (.begin root b') :=
    sound_begin (hs ▸ within root comes.mem) b'
  have orderedHere : s.arena.Ordered := hs ▸ ordered
  have inOrder {root x : NodeId} {b' : Bindings} (comes : s.Comes p.statements b root b')
      (hx : x ∈ s.reached nowhere false (.begin root b')) : x ∈ p.arena.order root :=
    start root b' ▸ (reached_sublist orderedHere nowhere false (sound comes)).subset hx
  have hits : (begin s p.statements b).Hits calls (s.evalAll p.statements b) ctx.fileName line ↔
      ∃ root b' x, s.Comes p.statements b root b' ∧ x ∈ s.reached nowhere false (.begin root b') ∧
        p.arena.Turns ctx (p.arena.order root) x line := by
    rw [hits_iff continues completes follows]
    constructor
    · rintro ⟨⟨x, l, b'⟩, hv, hfile, hline⟩
      obtain ⟨hl, root, b', comes, hx⟩ := (mem_visits_iff (s := s)).mp ⟨b', hv⟩
      rw [hs] at hl
      have turns := (location?_iff_turns hp comes.mem (inOrder comes hx) line).mp
        ⟨l, hl, hfile, hline⟩
      exact ⟨root, b', x, comes, hx, turns⟩
    · rintro ⟨root, b', x, comes, hx, turns⟩
      obtain ⟨l, hl, hfile, hline⟩ :=
        (location?_iff_turns hp comes.mem (inOrder comes hx) line).mpr turns
      rw [← hs] at hl
      obtain ⟨b'', hv⟩ := mem_visits_iff.mpr ⟨hl, root, b', comes, hx⟩
      exact ⟨⟨x, l, b''⟩, hv, hfile, hline⟩
  refine ⟨hits, fun root b' n comes hn hline => ?_⟩
  obtain ⟨x, front, back, horder, first, position⟩ :=
    Arena.exists_firstOn (inOrder comes hn) hline
  have nodupOrder : ((Machine.begin root b').ahead s.arena).Nodup := by
    rw [start]
    exact (List.nodup_flatMap.mp nodup).1 root comes.mem
  have reached : x ∈ s.reached nowhere false (.begin root b') ∨ s.Dropped (.begin root b') x := by
    rcases position with rfl | before
    · exact .inl hn
    · exact reached_or_dropped orderedHere (sound comes) nodupOrder
        ((start root b').trans horder) hn x before
  rcases reached with hx | dropped
  · exact .inl (hits.mpr ⟨root, b', x, comes, hx, first.turns⟩)
  · exact .inr ⟨x, first, dropped⟩

def inFile (source : String) : BuildContext where
  strongTyping := false
  conversions := .empty
  equality := .rejectAll
  source := source.toList
  file := some "test.mv"

def plainly (a : Arena) : Evaluation := ⟨a, .empty, 64, .accelerated⟩

/-- A start, and then nothing but resumptions. -/
def continuing (source : String) (line : Nat) : Nat → Breakpoints × Call
  | 0 => (.only source line, .start)
  | _ + 1 => (.only source line, .resume .continue)

theorem continues_continuing (source : String) (line : Nat) :
    Continues (continuing source line) source line := by
  intro k
  cases k <;> exact ⟨rfl, rfl⟩

theorem breakpoint_hit_on_operand :
    ∃ p, compile (inFile "a +\nb") [] true 128 = .ok p ∧
      (begin (plainly p.arena) p.statements (.ofList [("a", .int 1), ("b", .int 2)])).Hits
        (continuing "test.mv" 2)
        ((plainly p.arena).evalAll p.statements (.ofList [("a", .int 1), ("b", .int 2)]))
        "test.mv" 2 := by
  have computed : (compile (inFile "a +\nb") [] true 128).map (fun p =>
      (p.statements, p.arena.order ⟨2⟩, (inFile "a +\nb").line? p.arena ⟨1⟩,
        (inFile "a +\nb").lineAfter p.arena none [⟨2⟩, ⟨0⟩],
        (plainly p.arena).reached nowhere false
          (.begin ⟨2⟩ (.ofList [("a", .int 1), ("b", .int 2)])))) =
      .ok ([⟨2⟩], [⟨2⟩, ⟨0⟩, ⟨1⟩], some 2, some 1, [⟨2⟩, ⟨0⟩, ⟨1⟩]) := by
    decide +kernel
  obtain ⟨p, hp, computed⟩ := Kernel.map_eq_ok computed
  simp only [Prod.mk.injEq] at computed
  obtain ⟨roots, order, lineOf, lineBefore, reached⟩ := computed
  have turns : p.arena.Turns (inFile "a +\nb") (p.arena.order ⟨2⟩) ⟨1⟩ 2 :=
    ⟨[⟨2⟩, ⟨0⟩], [], order, lineOf, by rw [lineBefore]; decide⟩
  have comes : (plainly p.arena).Comes p.statements (.ofList [("a", .int 1), ("b", .int 2)]) ⟨2⟩
      (.ofList [("a", .int 1), ("b", .int 2)]) := by
    rw [roots]
    exact .here
  have hit := (breakpoint_hit hp (s := plainly p.arena) rfl
    (.ofList [("a", .int 1), ("b", .int 2)]) (continues_continuing "test.mv" 2)).1
  exact ⟨p, hp, hit.mpr ⟨⟨2⟩, _, ⟨1⟩, comes, by rw [reached]; decide, turns⟩⟩

/-- The first operand drops the second one, which is the first node on the second line. The run
begins the third one there, but only the second one is located. -/
theorem breakpoint_missed :
    ∃ p b root n, compile (inFile "a &&\nb || c") [] true 128 = .ok p ∧
      b = .ofList [("a", .boolean false), ("b", .boolean true), ("c", .boolean true)] ∧
      (plainly p.arena).Comes p.statements b root b ∧
      n ∈ (plainly p.arena).reached nowhere false (.begin root b) ∧
      (inFile "a &&\nb || c").line? p.arena n = some 2 ∧
      ¬ (begin (plainly p.arena) p.statements b).Hits (continuing "test.mv" 2)
        ((plainly p.arena).evalAll p.statements b) "test.mv" 2 := by
  have computed : (compile (inFile "a &&\nb || c") [] true 128).map (fun p =>
      (p.statements, (inFile "a &&\nb || c").line? p.arena ⟨3⟩,
        (plainly p.arena).reached nowhere false (.begin ⟨4⟩
          (.ofList [("a", .boolean false), ("b", .boolean true), ("c", .boolean true)])),
        ((plainly p.arena).visits nowhere p.statements
          (.ofList [("a", .boolean false), ("b", .boolean true), ("c", .boolean true)])).map
            (·.location.line))) =
      .ok ([⟨4⟩], some 2, [⟨4⟩, ⟨2⟩, ⟨0⟩, ⟨3⟩], [1]) := by
    decide +kernel
  obtain ⟨p, hp, computed⟩ := Kernel.map_eq_ok computed
  generalize Bindings.ofList
    [("a", .boolean false), ("b", .boolean true), ("c", .boolean true)] = b at computed
  simp only [Prod.mk.injEq] at computed
  obtain ⟨roots, lineOf, reached, visited⟩ := computed
  have comes : (plainly p.arena).Comes p.statements b ⟨4⟩ b := by
    rw [roots]
    exact .here
  refine ⟨p, b, ⟨4⟩, ⟨3⟩, hp, rfl, comes, by rw [reached]; decide, lineOf, ?_⟩
  obtain ⟨-, -, n, completes, follows⟩ := follows_compiled hp (s := plainly p.arena) rfl b
    (continuing "test.mv" 2)
  rw [hits_iff (continues_continuing "test.mv" 2) completes follows]
  rintro ⟨v, hv, -, hline⟩
  have mem := List.mem_map_of_mem (f := (·.location.line)) hv
  have lines : v.location.line ∈ [1] := visited ▸ mem
  rw [hline] at lines
  contradiction

end Session

end Scriptlet
