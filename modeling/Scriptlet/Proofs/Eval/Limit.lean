import Scriptlet.Proofs.Compile.Typing

/-!
# The depth limit

Below the limit a node has an answer that its operands' answers make: one `level` of the
recursion. So a limit only cuts off. What does not reach it is the same under every larger limit,
what does reach it says which limit it was, and no evaluation goes deeper than its tree is high.
-/
namespace Scriptlet

namespace Arena

/-- The height of the tree under a node in nodes, of which at most `bound` are counted. -/
def heightWithin (a : Arena) : Nat → NodeId → Nat
  | 0, _ => 0
  | bound + 1, id =>
    match a.node? id with
    | some node => (node.operands.map (a.heightWithin bound)).max?.getD 0 + 1
    | none => 0

/-- The height of the tree under a node, counted in nodes. -/
def height (a : Arena) (id : NodeId) : Nat := a.heightWithin a.size id

theorem heightWithin_eq {a : Arena} (ha : a.Ordered) {m n : Nat} {id : NodeId}
    (hm : id.index < m) (hn : id.index < n) : a.heightWithin m id = a.heightWithin n id := by
  induction m generalizing n id with
  | zero => omega
  | succ m ih =>
    obtain ⟨n, rfl⟩ : ∃ k, n = k + 1 := ⟨n - 1, by omega⟩
    simp only [heightWithin]
    cases hnode : a.node? id with
    | none => rfl
    | some node =>
      have operands : node.operands.map (a.heightWithin m) =
          node.operands.map (a.heightWithin n) := by
        refine List.map_congr_left fun x hx => ?_
        have := ha id node hnode x hx
        exact ih (by omega) (by omega)
      simp only [operands]

/-- A tree is higher by one than the highest tree of its operands. -/
theorem height_eq {a : Arena} (ha : a.Ordered) {id : NodeId} {node : Node}
    (h : a.node? id = some node) :
    a.height id = (node.operands.map a.height).max?.getD 0 + 1 := by
  have hs := index_lt_size h
  rw [height, heightWithin_eq ha hs (show id.index < a.size + 1 by omega)]
  simp only [heightWithin, h]
  rfl

theorem height_lt_of_operand {a : Arena} (ha : a.Ordered) {id x : NodeId} {node : Node}
    (h : a.node? id = some node) (hx : x ∈ node.operands) : a.height x < a.height id := by
  rw [height_eq ha h, Nat.lt_succ_iff]
  exact List.le_max?_getD_of_mem (List.mem_map_of_mem hx)

end Arena

namespace Evaluation

/-! ## One level of the recursion -/

/-- The answer of a node, given the answers of its operands. -/
def level (s : Evaluation) (operand : NodeId → Bindings → Answer) (id : NodeId) (b : Bindings) :
    Answer :=
  match s.arena.node? id with
  | none => (.ok .null, b)
  | some (.literal value _) => (.ok value, b)
  | some (.variable name _) =>
    match b.get? name with
    | some value => (.ok value, b)
    | none => (.error (s.failAt id (.runtime (.unboundVariable name))), b)
  | some (.group inner) => operand inner b
  | some (.unary op x _) =>
    (operand x b).andThen fun v b => (s.located id (Kernel.applyUnary op v), b)
  | some (.assign name x _) => (operand x b).andThen fun v b => (.ok v, b.set name v)
  | some (.binary n) =>
    match s.mode with
    | .interpreted => (.error (s.failAt id (.unsupported "binary operation")), b)
    | .accelerated =>
      (operand n.left b).andThen fun left b =>
        if decided n.op (some left) then (.ok left, b)
        else
          (operand n.right b).andThen fun right b =>
            (s.located id (s.applyBinary n left right), b)

variable {s : Evaluation} {id : NodeId} {depth : Nat} {b : Bindings} {e : ExecutionError}

theorem valueAt_level (hd : depth < s.maxDepth) :
    s.valueAt id depth b = s.level (s.valueAt · (depth + 1)) id b := by
  rw [valueAt, dif_pos hd]
  rfl

/-- A relation of answers that is kept where evaluation goes on with a value. -/
structure Answer.Congruence (R : Answer → Answer → Prop) : Prop where
  refl : ∀ r, R r r
  andThen : ∀ {r r' : Answer} {next next' : Value → Bindings → Answer}, R r r' →
    (∀ v b, R (next v b) (next' v b)) → R (r.andThen next) (r'.andThen next')

/-- Related answers of the operands make related answers of the node. -/
theorem level_congr {R : Answer → Answer → Prop} (hR : Answer.Congruence R)
    {f g : NodeId → Bindings → Answer}
    (h : ∀ node, s.arena.node? id = some node → ∀ x ∈ node.operands, ∀ b, R (f x b) (g x b))
    (b : Bindings) : R (s.level f id b) (s.level g id b) := by
  unfold level
  cases hn : s.arena.node? id with
  | none => exact hR.refl _
  | some node =>
    have operand (x : NodeId) (hx : x ∈ node.operands) (b : Bindings) : R (f x b) (g x b) :=
      h node hn x hx b
    cases node with
    | literal v ty => exact hR.refl _
    | «variable» name ty => exact hR.refl _
    | group inner => exact operand inner (by simp [Node.operands]) b
    | unary op x ty =>
      exact hR.andThen (operand x (by simp [Node.operands]) b) fun _ _ => hR.refl _
    | assign name x ty =>
      exact hR.andThen (operand x (by simp [Node.operands]) b) fun _ _ => hR.refl _
    | binary n =>
      cases s.mode with
      | interpreted => exact hR.refl _
      | accelerated =>
        refine hR.andThen (operand n.left (by simp [Node.operands]) b) fun left b => ?_
        by_cases hdec : decided n.op (some left) = true
        · simp only [if_pos hdec]
          exact hR.refl _
        · simp only [if_neg hdec]
          exact hR.andThen (operand n.right (by simp [Node.operands]) b) fun _ _ => hR.refl _

/-! ## Errors of the limit -/

theorem Answer.error_of_andThen {r : Answer} {next : Value → Bindings → Answer}
    (h : (r.andThen next).1 = .error e) : r.1 = .error e ∨ ∃ v b, (next v b).1 = .error e := by
  obtain ⟨e' | v, b⟩ := r
  · exact .inl h
  · exact .inr ⟨v, b, h⟩

/-- An operation that fails does not fail because of the limit. -/
theorem runtime_of_located {r : Kernel.Result} (h : s.located id r = .error e) :
    e.isTooDeep = false := by
  cases r with
  | ok v => contradiction
  | error e' =>
    obtain rfl := Except.error.inj h
    rfl

/-- A node below the limit goes too deep only in an operand. -/
theorem operand_of_level {f : NodeId → Bindings → Answer} (h : (s.level f id b).1 = .error e)
    (deep : e.isTooDeep = true) :
    ∃ node, s.arena.node? id = some node ∧ ∃ x ∈ node.operands, ∃ b', (f x b').1 = .error e := by
  have operation {r : Kernel.Result} (h : s.located id r = .error e) : False := by
    rw [runtime_of_located h] at deep
    contradiction
  have own {kind : ExecutionErrorKind}
      (h : (Except.error (s.failAt id kind) : Except ExecutionError Value) = .error e)
      (other : (s.failAt id kind).isTooDeep = false) : False := by
    rw [Except.error.inj h, deep] at other
    contradiction
  unfold level at h
  cases hn : s.arena.node? id with
  | none => simp [hn] at h
  | some node =>
    refine ⟨node, rfl, ?_⟩
    simp only [hn] at h
    cases node with
    | literal v ty => contradiction
    | «variable» name ty =>
      cases hv : b.get? name with
      | some v => simp [hv] at h
      | none =>
        simp only [hv] at h
        exact (own h rfl).elim
    | group inner => exact ⟨inner, by simp [Node.operands], b, h⟩
    | unary op x ty =>
      rcases Answer.error_of_andThen h with h | ⟨v, b', h⟩
      · exact ⟨x, by simp [Node.operands], b, h⟩
      · exact (operation h).elim
    | assign name x ty =>
      rcases Answer.error_of_andThen h with h | ⟨v, b', h⟩
      · exact ⟨x, by simp [Node.operands], b, h⟩
      · contradiction
    | binary n =>
      cases hm : s.mode with
      | interpreted =>
        simp only [hm] at h
        exact (own h rfl).elim
      | accelerated =>
        simp only [hm] at h
        rcases Answer.error_of_andThen h with h | ⟨left, b', h⟩
        · exact ⟨n.left, by simp [Node.operands], b, h⟩
        · split at h
          · contradiction
          · rcases Answer.error_of_andThen h with h | ⟨right, b'', h⟩
            · exact ⟨n.right, by simp [Node.operands], b', h⟩
            · exact (operation h).elim

/-- An evaluation that goes too deep reaches the limit, and no further. -/
theorem tooDeep_of_valueAt (hd : depth ≤ s.maxDepth) (h : (s.valueAt id depth b).1 = .error e)
    (deep : e.isTooDeep = true) : e.kind = .tooDeep s.maxDepth s.maxDepth := by
  induction hk : s.maxDepth - depth generalizing id depth b with
  | zero =>
    obtain rfl : depth = s.maxDepth := by omega
    rw [valueAt_deep (Nat.lt_irrefl _)] at h
    obtain rfl := Except.error.inj h
    rfl
  | succ k ih =>
    rw [valueAt_level (by omega)] at h
    obtain ⟨-, -, x, -, b', h⟩ := operand_of_level h deep
    exact ih (by omega) h (by omega)

/-- The answer is an error of the limit. -/
def Answer.Exceeds (r : Answer) : Prop := ∃ e, r.1 = .error e ∧ e.isTooDeep = true

instance (r : Answer) : Decidable r.Exceeds :=
  match r with
  | (.ok _, _) => .isFalse fun ⟨_, h, _⟩ => by contradiction
  | (.error e, _) =>
    decidable_of_iff (e.isTooDeep = true)
      ⟨fun deep => ⟨e, rfl, deep⟩, fun ⟨_, h, deep⟩ => Except.error.inj h ▸ deep⟩

/-- A tree is not deeper than it is high. -/
theorem not_exceeds_of_height (ha : s.arena.Ordered) (hid : id.index < s.arena.size)
    (high : depth + s.arena.height id ≤ s.maxDepth) : ¬ (s.valueAt id depth b).Exceeds := by
  induction hi : id.index using Nat.strongRecOn generalizing id depth b with
  | ind i ih =>
    subst hi
    rintro ⟨e, h, deep⟩
    obtain ⟨node, hn⟩ := Arena.node?_isSome hid
    have hpos : 0 < s.arena.height id := by
      rw [Arena.height_eq ha hn]
      omega
    rw [valueAt_level (by omega)] at h
    obtain ⟨node', hn', x, hx, b', h⟩ := operand_of_level h deep
    have lower := Arena.height_lt_of_operand ha hn' hx
    have before := ha id node' hn' x hx
    exact ih x.index before (by omega) (by omega) rfl ⟨e, h, deep⟩

/-! ## Two limits -/

/-- The evaluation under another limit. -/
def withLimit (s : Evaluation) (limit : Nat) : Evaluation := { s with maxDepth := limit }

/-- The second answer is the first one, unless that is an error of the limit. -/
def Answer.Kept (r r' : Answer) : Prop := ¬ r.Exceeds → r' = r

theorem Answer.kept_congruence : Answer.Congruence Answer.Kept where
  refl _ _ := rfl
  andThen {r r' next next'} first rest := by
    intro within
    obtain ⟨e | v, b⟩ := r
    · rw [first within]
      rfl
    · rw [first (by simp [Exceeds])]
      exact rest v b within

/-- Under a larger limit a node has the same answer, if it stays within the smaller one. -/
theorem valueAt_withLimit (s : Evaluation) {m m' : Nat} (hle : m ≤ m') (id : NodeId)
    (depth : Nat) (b : Bindings) :
    Answer.Kept ((s.withLimit m).valueAt id depth b) ((s.withLimit m').valueAt id depth b) := by
  induction hk : m - depth generalizing id depth b with
  | zero =>
    have hd : ¬ depth < (s.withLimit m).maxDepth := by
      change ¬ depth < m
      omega
    rw [valueAt_deep hd]
    exact fun within => absurd ⟨_, rfl, rfl⟩ within
  | succ k ih =>
    have hd : depth < (s.withLimit m).maxDepth := by
      change depth < m
      omega
    have hd' : depth < (s.withLimit m').maxDepth := Nat.lt_of_lt_of_le hd hle
    rw [valueAt_level hd, valueAt_level hd']
    exact level_congr (s := s) Answer.kept_congruence
      (fun _ _ x _ b => ih x (depth + 1) b (by omega)) b

/-! ## Runs -/

theorem evalFrom_withLimit (s : Evaluation) {m m' : Nat} (hle : m ≤ m') (last : Value)
    (roots : List NodeId) (b : Bindings) :
    Answer.Kept ((s.withLimit m).evalFrom last roots b)
      ((s.withLimit m').evalFrom last roots b) := by
  induction roots generalizing last b with
  | nil => exact Answer.kept_congruence.refl _
  | cons root rest ih =>
    rw [evalFrom_cons, evalFrom_cons]
    exact Answer.kept_congruence.andThen (s.valueAt_withLimit hle root 0 b) ih

/-- A run fails as one of its statements does. -/
theorem statement_of_evalFrom {last : Value} {roots : List NodeId}
    (h : (s.evalFrom last roots b).1 = .error e) :
    ∃ root ∈ roots, ∃ b', (s.valueAt root 0 b').1 = .error e := by
  induction roots generalizing last b with
  | nil => contradiction
  | cons root rest ih =>
    rw [evalFrom_cons] at h
    rcases Answer.error_of_andThen h with h | ⟨v, b', h⟩
    · exact ⟨root, List.mem_cons_self, b, h⟩
    · obtain ⟨root', mem, found⟩ := ih h
      exact ⟨root', List.mem_cons_of_mem _ mem, found⟩

/-- The depth limit only cuts off. A run that does not exceed a limit has the same value or error
and the same bindings under every larger one, an error of the limit reports the limit as its
depth, and a limit that no statement is higher than is not exceeded. -/
theorem limit_cuts_off {ctx : BuildContext} {inputs : List (String × Ty)} {debugSymbols : Bool}
    {limit : Nat} {p : Program} (hp : compile ctx inputs debugSymbols limit = .ok p)
    (hs : s.arena = p.arena) (b : Bindings) :
    (∀ m m', m ≤ m' → ¬ Answer.Exceeds ((s.withLimit m).evalAll p.statements b) →
      (s.withLimit m').evalAll p.statements b = (s.withLimit m).evalAll p.statements b) ∧
    (∀ m e b', (s.withLimit m).evalAll p.statements b = (.error e, b') → e.isTooDeep = true →
      e.kind = .tooDeep m m) ∧
    ∀ m, (∀ root ∈ p.statements, p.arena.height root ≤ m) →
      ¬ Answer.Exceeds ((s.withLimit m).evalAll p.statements b) := by
  obtain ⟨ordered, within, -⟩ := compile_layout hp
  refine ⟨fun m m' hle => s.evalFrom_withLimit hle .null p.statements b, ?_, ?_⟩
  · intro m e b' failed deep
    obtain ⟨root, -, b₁, h⟩ := statement_of_evalFrom (congrArg Prod.fst failed)
    exact tooDeep_of_valueAt (s := s.withLimit m) (Nat.zero_le m) h deep
  · rintro m high ⟨e, h, deep⟩
    obtain ⟨root, mem, b₁, h⟩ := statement_of_evalFrom h
    refine not_exceeds_of_height (s := s.withLimit m) (hs ▸ ordered) ?_ ?_ ⟨e, h, deep⟩
    · exact hs ▸ within root mem
    · rw [Nat.zero_add]
      exact hs ▸ high root mem

/-- The higher one of two statements needs a limit of five. -/
theorem limit_cuts_off_product :
    ∃ p, compile (strict "x = (a + 1) * 2;\n!(x > 3)") [("a", .primitive .int)] true 128 = .ok p ∧
      p.statements.map p.arena.height = [5, 4] ∧
      ((⟨p.arena, .empty, 1000, .accelerated⟩ : Evaluation).withLimit 1000).evalAll p.statements
          (.ofList [("a", .int 3)]) =
        ((⟨p.arena, .empty, 1000, .accelerated⟩ : Evaluation).withLimit 5).evalAll p.statements
          (.ofList [("a", .int 3)]) ∧
      ∃ e b', ((⟨p.arena, .empty, 1000, .accelerated⟩ : Evaluation).withLimit 4).evalAll
          p.statements (.ofList [("a", .int 3)]) = (.error e, b') ∧ e.kind = .tooDeep 4 4 := by
  have computed : (compile (strict "x = (a + 1) * 2;\n!(x > 3)") [("a", .primitive .int)] true
      128).map (fun p => (p.statements.map p.arena.height, decide (Answer.Exceeds
        (((⟨p.arena, .empty, 1000, .accelerated⟩ : Evaluation).withLimit 4).evalAll p.statements
          (.ofList [("a", .int 3)]))))) = .ok ([5, 4], true) := by
    decide +kernel
  obtain ⟨p, hp, computed⟩ := Kernel.map_eq_ok computed
  obtain ⟨heights, exceeds⟩ := Prod.mk.inj computed
  obtain ⟨cut, reports, enough⟩ := limit_cuts_off hp
    (s := ⟨p.arena, .empty, 1000, .accelerated⟩) rfl (.ofList [("a", .int 3)])
  have high : ∀ root ∈ p.statements, p.arena.height root ≤ 5 := by
    intro root mem
    have : p.arena.height root ∈ [5, 4] := heights ▸ List.mem_map_of_mem mem
    simp only [List.mem_cons, List.not_mem_nil, or_false] at this
    omega
  obtain ⟨e, failed, deep⟩ := of_decide_eq_true exceeds
  exact ⟨p, hp, heights, cut 5 1000 (by decide) (enough 5 high), e, _, Prod.ext failed rfl,
    reports 4 e _ (Prod.ext failed rfl) deep⟩

end Evaluation

end Scriptlet
