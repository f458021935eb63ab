import Scriptlet.Proofs.Eval.Atomic
import Scriptlet.Proofs.Eval.Limit

/-!
# The two modes

The modes differ at binary operations only, so a tree without one has the same answer in both.
Above the outermost binary operation of a tree every node has a single operand, and such a node
does nothing before its operand has a value. Hence an interpreted evaluation that comes to a
binary operation has done nothing yet in its statement.
-/
namespace Scriptlet

namespace Arena

/-- There is a binary operation in the tree under a node. -/
def hasBinary (a : Arena) (id : NodeId) : Bool :=
  (a.order id).any fun x => (a.binary? x).isSome

/-- The nodes on the way from a node down to another one, each the only operand of the one above
it. The last one is not among them. -/
inductive Stem (a : Arena) : NodeId → List NodeId → NodeId → Prop
  | here (id : NodeId) : Stem a id [] id
  | down {id x top : NodeId} {node : Node} {way : List NodeId} (hn : a.node? id = some node)
      (single : node.operands = [x]) (below : Stem a x way top) : Stem a id (id :: way) top

/-- The binary operation that is above all others under `root`, at the end of `way`. -/
structure Outermost (a : Arena) (root : NodeId) (way : List NodeId) (top : NodeId) : Prop where
  stem : a.Stem root way top
  binary : (a.binary? top).isSome = true
  above : ∀ x ∈ a.order root, (a.binary? x).isSome = true → x ∈ a.order top

variable {a : Arena} {id : NodeId} {node : Node}

theorem binary?_isSome (h : (a.binary? id).isSome = true) :
    ∃ n, a.node? id = some (.binary n) := by
  unfold binary? at h
  split at h
  · exact ⟨_, ‹_›⟩
  · contradiction

theorem order_of_none (hn : a.node? id = none) : a.order id = [] := by
  unfold order
  cases a.size with
  | zero => rfl
  | succ n => simp only [orderWithin, hn]

theorem operands_of_not_binary (hn : a.node? id = some node) (h : a.binary? id = none) :
    node.operands = [] ∨ ∃ x, node.operands = [x] := by
  cases node with
  | binary n => simp [binary?, hn] at h
  | literal v ty => exact .inl rfl
  | «variable» name ty => exact .inl rfl
  | group inner => exact .inr ⟨inner, rfl⟩
  | unary op x ty => exact .inr ⟨x, rfl⟩
  | assign name x ty => exact .inr ⟨x, rfl⟩

theorem hasBinary_eq (ha : a.Ordered) (hn : a.node? id = some node) :
    a.hasBinary id = ((a.binary? id).isSome || node.operands.any a.hasBinary) := by
  rw [hasBinary, order_eq ha hn, List.any_cons, List.any_flatMap]
  rfl

theorem not_hasBinary_of_operand (ha : a.Ordered) (hn : a.node? id = some node)
    (h : a.hasBinary id = false) {x : NodeId} (hx : x ∈ node.operands) :
    a.hasBinary x = false := by
  rw [hasBinary_eq ha hn, Bool.or_eq_false_iff, List.any_eq_false] at h
  exact Bool.eq_false_iff.mpr (h.2 x hx)

theorem binary?_of_not_hasBinary (ha : a.Ordered) (h : a.hasBinary id = false) :
    a.binary? id = none := by
  cases hn : a.node? id with
  | none => simp [binary?, hn]
  | some node =>
    rw [hasBinary_eq ha hn, Bool.or_eq_false_iff] at h
    exact Option.isNone_iff_eq_none.mp (by simpa using h.1)

/-- A tree with binary operations has one above all others. -/
theorem exists_outermost (ha : a.Ordered) (h : a.hasBinary id = true) :
    ∃ way top, a.Outermost id way top := by
  induction hi : id.index using Nat.strongRecOn generalizing id with
  | ind i ih =>
    subst hi
    by_cases binary : (a.binary? id).isSome = true
    · exact ⟨[], id, .here id, binary, fun x hx _ => hx⟩
    · have no : a.binary? id = none := by simpa using binary
      cases hn : a.node? id with
      | none => simp [hasBinary, order_of_none hn] at h
      | some node =>
        have split := hasBinary_eq ha hn
        rcases operands_of_not_binary hn no with leaf | ⟨x, single⟩
        · simp [h, no, leaf] at split
        · have hx : a.hasBinary x = true := by simpa [h, no, single] using split.symm
          have before := ha id node hn x (by simp [single])
          obtain ⟨way, top, stem, binary', above⟩ := ih x.index before hx rfl
          refine ⟨id :: way, top, .down hn single stem, binary', fun y hy hb => ?_⟩
          rw [order_eq ha hn, single, List.flatMap_singleton, List.mem_cons] at hy
          rcases hy with rfl | hy
          · exact absurd hb binary
          · exact above y hy hb

end Arena

namespace Evaluation

/-- The evaluation in a mode. -/
def inMode (s : Evaluation) (mode : EvaluationMode) : Evaluation := { s with mode := mode }

/-- Why an interpreted evaluation ends that goes down to a binary operation from a depth: it comes
to the operation, or a node on the way or the operation itself is at the limit. -/
inductive Refuses (s : Evaluation) (depth : Nat) (way : List NodeId) (top : NodeId) :
    ExecutionError → Prop
  | binary (fits : depth + way.length < s.maxDepth) :
      Refuses s depth way top (s.failAt top (.unsupported "binary operation"))
  | tooDeep {i : Nat} {x : NodeId} (reached : depth + i = s.maxDepth)
      (node : (way ++ [top])[i]? = some x) :
      Refuses s depth way top (s.failAt x (.tooDeep s.maxDepth s.maxDepth))

variable {s : Evaluation} {id top : NodeId} {way roots : List NodeId} {depth : Nat}
  {b b' : Bindings} {e : ExecutionError}

/-! ## Trees without binary operations -/

theorem level_inMode (h : s.arena.binary? id = none) (mode mode' : EvaluationMode)
    (f : NodeId → Bindings → Answer) (b : Bindings) :
    (s.inMode mode).level f id b = (s.inMode mode').level f id b := by
  have arena (m : EvaluationMode) : (s.inMode m).arena = s.arena := rfl
  unfold level
  simp only [arena]
  cases hn : s.arena.node? id with
  | none => rfl
  | some node =>
    cases node with
    | binary n => simp [Arena.binary?, hn] at h
    | _ => rfl

theorem Answer.eq_congruence : Answer.Congruence Eq where
  refl _ := rfl
  andThen first rest := by
    rw [first, funext fun v => funext (rest v)]

/-- The modes agree on a tree without binary operations. -/
theorem valueAt_inMode (ha : s.arena.Ordered) (h : s.arena.hasBinary id = false)
    (mode mode' : EvaluationMode) (depth : Nat) (b : Bindings) :
    (s.inMode mode).valueAt id depth b = (s.inMode mode').valueAt id depth b := by
  induction hk : s.maxDepth - depth generalizing id depth b with
  | zero =>
    have hd : ¬ depth < s.maxDepth := by omega
    rw [valueAt_deep (s := s.inMode mode) hd, valueAt_deep (s := s.inMode mode') hd]
    rfl
  | succ k ih =>
    have hd : depth < s.maxDepth := by omega
    rw [valueAt_level (s := s.inMode mode) hd, valueAt_level (s := s.inMode mode') hd,
      level_inMode (Arena.binary?_of_not_hasBinary ha h) mode mode']
    refine level_congr (s := s.inMode mode') Answer.eq_congruence ?_ b
    intro node hn x hx b
    exact ih (Arena.not_hasBinary_of_operand ha hn h hx) (depth + 1) b (by omega)

theorem evalFrom_inMode (ha : s.arena.Ordered)
    (h : ∀ root ∈ roots, s.arena.hasBinary root = false) (mode mode' : EvaluationMode)
    (last : Value) (b : Bindings) :
    (s.inMode mode).evalFrom last roots b = (s.inMode mode').evalFrom last roots b := by
  induction roots generalizing last b with
  | nil => rfl
  | cons root rest ih =>
    rw [List.forall_mem_cons] at h
    rw [evalFrom_cons, evalFrom_cons]
    exact Answer.eq_congruence.andThen (valueAt_inMode ha h.1 mode mode' 0 b) (ih h.2)

/-! ## The way to a binary operation -/

/-- A node with a single operand fails as its operand does. -/
theorem level_error {f : NodeId → Bindings → Answer} {x : NodeId} {node : Node}
    (hn : s.arena.node? id = some node) (single : node.operands = [x])
    (failed : f x b = (.error e, b')) : s.level f id b = (.error e, b') := by
  unfold level
  rw [hn]
  cases node with
  | literal v ty => contradiction
  | «variable» name ty => contradiction
  | binary n => simp [Node.operands] at single
  | group inner =>
    obtain rfl := List.singleton_inj.mp single
    exact failed
  | unary op y ty =>
    obtain rfl := List.singleton_inj.mp single
    simp only [failed]
    rfl
  | assign name y ty =>
    obtain rfl := List.singleton_inj.mp single
    simp only [failed]
    rfl

/-- An interpreted evaluation does nothing on its way to a binary operation, and ends there or
before. -/
theorem valueAt_stem (hs : s.arena.Stem id way top)
    (binary : (s.arena.binary? top).isSome = true) (hd : depth ≤ s.maxDepth) (b : Bindings) :
    ∃ e, (s.inMode .interpreted).valueAt id depth b = (.error e, b) ∧
      s.Refuses depth way top e := by
  induction hs generalizing depth with
  | here id =>
    by_cases room : depth < s.maxDepth
    · obtain ⟨n, hn⟩ := Arena.binary?_isSome binary
      exact ⟨_, valueAt_interpreted (s := s.inMode .interpreted) room hn rfl, .binary room⟩
    · obtain rfl : depth = s.maxDepth := by omega
      exact ⟨_, valueAt_deep (s := s.inMode .interpreted) room, .tooDeep (i := 0) rfl rfl⟩
  | @down id x top node way hn single below ih =>
    by_cases room : depth < s.maxDepth
    · obtain ⟨e, failed, refuses⟩ := ih binary (show depth + 1 ≤ s.maxDepth from room)
      refine ⟨e, ?_, ?_⟩
      · rw [valueAt_level (s := s.inMode .interpreted) room]
        exact level_error (s := s.inMode .interpreted) hn single failed
      · cases refuses with
        | binary fits =>
          refine .binary ?_
          rw [List.length_cons]
          omega
        | @tooDeep i x reached node =>
          exact .tooDeep (i := i + 1) (by omega) (by simpa using node)
    · obtain rfl : depth = s.maxDepth := by omega
      exact ⟨_, valueAt_deep (s := s.inMode .interpreted) room, .tooDeep (i := 0) rfl rfl⟩

/-- Interpreted mode agrees with accelerated mode or refuses. Without binary operations the two
modes are the same. Otherwise they are the same through the statements before the first one with
a binary operation, and when these complete, the interpreted run fails on the way down to the
outermost one and leaves the bindings. -/
theorem interpreted_agrees_or_refuses {ctx : BuildContext} {inputs : List (String × Ty)}
    {debugSymbols : Bool} {limit : Nat} {p : Program}
    (hp : compile ctx inputs debugSymbols limit = .ok p) (hs : s.arena = p.arena) (b : Bindings) :
    ((∀ root ∈ p.statements, p.arena.hasBinary root = false) →
      (s.inMode .interpreted).evalAll p.statements b =
        (s.inMode .accelerated).evalAll p.statements b) ∧
    ((∃ root ∈ p.statements, p.arena.hasBinary root = true) →
      ∃ before root after, p.statements = before ++ root :: after ∧
        (∀ r ∈ before, p.arena.hasBinary r = false) ∧ p.arena.hasBinary root = true ∧
        (∀ done, done <+: before →
          (s.inMode .interpreted).evalAll done b = (s.inMode .accelerated).evalAll done b) ∧
        (∀ e b', (s.inMode .accelerated).evalAll before b = (.error e, b') →
          ∀ mode, (s.inMode mode).evalAll p.statements b = (.error e, b')) ∧
        ∀ last b', (s.inMode .accelerated).evalAll before b = (.ok last, b') →
          ∃ way top e, p.arena.Outermost root way top ∧
            (s.inMode .interpreted).evalAll p.statements b = (.error e, b') ∧
            s.Refuses 0 way top e) := by
  obtain ⟨ordered, -, -⟩ := compile_layout hp
  have ordered : s.arena.Ordered := hs ▸ ordered
  rw [← hs]
  refine ⟨fun none => evalFrom_inMode ordered none .interpreted .accelerated .null b, ?_⟩
  rintro some
  obtain ⟨root, found⟩ := Option.isSome_iff_exists.mp (List.find?_isSome.mpr some)
  obtain ⟨binary, before, after, split, none⟩ := List.find?_eq_some_iff_append.mp found
  have none : ∀ r ∈ before, s.arena.hasBinary r = false := fun r hr => by simpa using none r hr
  have same (mode mode' : EvaluationMode) :=
    evalFrom_inMode ordered none mode mode' .null b
  have run (mode : EvaluationMode) := (s.inMode mode).evalFrom_append .null before (root :: after) b
  refine ⟨before, root, after, split, none, binary, ?_, ?_, ?_⟩
  · rintro done ⟨rest, rfl⟩
    exact evalFrom_inMode ordered (fun r hr => none r (List.mem_append_left rest hr)) _ _ .null b
  · intro e b' failed mode
    rw [evalAll, split, run, same mode .accelerated]
    rw [evalAll] at failed
    rw [failed]
    rfl
  · intro last b' completed
    obtain ⟨way, top, outermost⟩ := Arena.exists_outermost ordered binary
    obtain ⟨e, failed, refuses⟩ :=
      valueAt_stem outermost.stem outermost.binary (Nat.zero_le s.maxDepth) b'
    refine ⟨way, top, e, outermost, ?_, refuses⟩
    rw [evalAll] at completed
    rw [evalAll, split, run, same .interpreted .accelerated, completed]
    simp only [Answer.andThen, evalFrom_cons, failed]

/-- The second of three statements adds, below an assignment and a pair of parentheses. -/
theorem interpreted_refuses_sum :
    ∃ (p : Program) (s : Evaluation) (last : Value) (b' : Bindings) (way : List NodeId)
      (top : NodeId) (e : ExecutionError),
      compile (strict "x = -y;\nz = (x + 1);\nz") [("y", .primitive .int)] true 128 = .ok p ∧
      s = ⟨p.arena, .empty, 64, .interpreted⟩ ∧ p.statements = [⟨2⟩, ⟨7⟩, ⟨8⟩] ∧
      (s.inMode .accelerated).evalAll [⟨2⟩] (.ofList [("y", .int 3)]) = (.ok last, b') ∧
      p.arena.Outermost ⟨7⟩ way top ∧
      s.evalAll p.statements (.ofList [("y", .int 3)]) = (.error e, b') ∧
      s.Refuses 0 way top e := by
  have computed : (compile (strict "x = -y;\nz = (x + 1);\nz") [("y", .primitive .int)] true
      128).map (fun p => (p.statements, p.arena.hasBinary ⟨2⟩, p.arena.hasBinary ⟨7⟩,
        ((⟨p.arena, .empty, 64, .accelerated⟩ : Evaluation).evalAll [⟨2⟩]
          (.ofList [("y", .int 3)])).1.isOk)) = .ok ([⟨2⟩, ⟨7⟩, ⟨8⟩], false, true, true) := by
    decide +kernel
  obtain ⟨p, hp, computed⟩ := Kernel.map_eq_ok computed
  simp only [Prod.mk.injEq] at computed
  obtain ⟨roots, first, second, completes⟩ := computed
  obtain ⟨-, refuses⟩ := interpreted_agrees_or_refuses hp
    (s := ⟨p.arena, .empty, 64, .interpreted⟩) rfl (.ofList [("y", .int 3)])
  obtain ⟨before, root, after, split, none, binary, -, -, ends⟩ :=
    refuses ⟨⟨7⟩, by simp [roots], second⟩
  obtain ⟨rfl, rfl⟩ : before = [⟨2⟩] ∧ root = ⟨7⟩ := by
    rw [roots] at split
    rcases before with _ | ⟨r, _ | ⟨r', before⟩⟩
    · simp only [List.nil_append, List.cons.injEq] at split
      simp [← split.1, first] at binary
    · simp only [List.cons_append, List.nil_append, List.cons.injEq] at split
      exact ⟨by rw [split.1], split.2.1.symm⟩
    · simp only [List.cons_append, List.cons.injEq] at split
      simp [← split.2.1, second] at none
  generalize completed : (⟨p.arena, .empty, 64, .accelerated⟩ : Evaluation).evalAll [⟨2⟩]
    (.ofList [("y", .int 3)]) = r at completes
  obtain ⟨e | last, b'⟩ := r
  · contradiction
  · obtain ⟨way, top, e, outermost, failed, why⟩ := ends last b' completed
    exact ⟨p, _, last, b', way, top, e, hp, rfl, roots, completed, outermost, failed, why⟩

end Evaluation

end Scriptlet
