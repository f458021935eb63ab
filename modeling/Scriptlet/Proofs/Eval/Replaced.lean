import Scriptlet.Node.Binary
import Scriptlet.Proofs.Eval.Tagged
import Scriptlet.Proofs.Kernel.Outcome

/-!
# Trees with other literals

Two arenas hold the same trees, but in the first one some literals on the right of operations are
replaced by conversions of them. If every such operation that is performed keeps its outcome, the
trees have the same answers.
-/
namespace Scriptlet

/-- Strong typing converts the literal `v` on the right of the operation into `w`. -/
def Arena.Replaced (a : Arena) (ctx : BuildContext) (n : BinaryNode) (v w : Value) : Prop :=
  ¬ (n.op = .add ∧ (a.egress n.left = .string ∨ a.egress n.right = .string)) ∧
    a.node? n.right = some (.literal v v.ty) ∧
    ∃ target u place, a.rightOperand ctx n.op n.right (a.egress n.left) (a.egress n.right) =
      .converted target ∧ ctx.conversions.convert v target = .ok u ∧ w = u.heldBy place

/-- The same kind, apart from tags of operands and causes of conversions. -/
def ExecutionErrorKind.SameKind : ExecutionErrorKind → ExecutionErrorKind → Prop
  | .runtime e, .runtime e' => e.SameKind e'
  | k, k' => k = k'

theorem ExecutionErrorKind.SameKind.refl (k : ExecutionErrorKind) : k.SameKind k := by
  cases k with
  | runtime e => exact RuntimeError.SameKind.refl e
  | tooDeep | unsupported => rfl

/-- The same kind of error at the same place of the source. -/
structure ExecutionError.SameKind (e e' : ExecutionError) : Prop where
  kind : e.kind.SameKind e'.kind
  span : e.span = e'.span

namespace Evaluation

/-- The same evaluation of another arena. -/
def on (s : Evaluation) (a : Arena) : Evaluation := { s with arena := a }

/-- The same value or errors of the same kind at the same span, and the same bindings. -/
inductive Answer.Agrees : Answer → Answer → Prop
  | value (v : Value) (b : Bindings) : Agrees (.ok v, b) (.ok v, b)
  | failure {e e' : ExecutionError} (b : Bindings) (same : e.SameKind e') :
      Agrees (.error e, b) (.error e', b)

/-- Answers that agree and leave the bindings. -/
structure Answer.AgreesAt (r r' : Answer) (b : Bindings) : Prop where
  agrees : r.Agrees r'
  bindings : r'.2 = b

theorem Answer.AgreesAt.value (v : Value) (b : Bindings) :
    Answer.AgreesAt (.ok v, b) (.ok v, b) b :=
  ⟨.value v b, rfl⟩

theorem Answer.AgreesAt.andThen {r r' : Answer} {b : Bindings} (h : r.AgreesAt r' b)
    {next next' : Value → Bindings → Answer}
    (k : ∀ v, r' = (.ok v, b) → (next v b).AgreesAt (next' v b) b) :
    (r.andThen next).AgreesAt (r'.andThen next') b := by
  obtain ⟨agrees, bindings⟩ := h
  cases agrees with
  | value v b' =>
    obtain rfl : b' = b := bindings
    exact k v rfl
  | failure b' same =>
    obtain rfl : b' = b := bindings
    exact ⟨.failure b' same, rfl⟩

section Errors

variable {s : Evaluation} {a : Arena} {i j : NodeId} (span : a.span? i = s.arena.span? j)

include span

theorem agreesAt_failAt {k k' : ExecutionErrorKind} (h : k.SameKind k') (b : Bindings) :
    Answer.AgreesAt (.error ((s.on a).failAt i k), b) (.error (s.failAt j k'), b) b :=
  ⟨.failure b ⟨h, span⟩, rfl⟩

theorem agreesAt_located {r r' : Kernel.Result} (h : Kernel.Agree r r') (b : Bindings) :
    Answer.AgreesAt ((s.on a).located i r, b) (s.located j r', b) b := by
  cases h with
  | value v => exact .value v b
  | @failure e e' same =>
    have kind : ExecutionErrorKind.SameKind (.runtime e) (.runtime e') := same
    exact agreesAt_failAt span kind b

theorem agreesAt_deep {depth : Nat} (hd : ¬ depth < s.maxDepth) (b : Bindings) :
    ((s.on a).valueAt i depth b).AgreesAt (s.valueAt j depth b) b := by
  rw [valueAt_deep (s := s.on a) hd, valueAt_deep hd]
  exact agreesAt_failAt span (.refl _) b

end Errors

/-! ## Operations that are performed -/

/-- Operations on replaced literals that the machine comes to keep their outcomes. -/
def Keeps (s : Evaluation) (ctx : BuildContext) (m : Machine) : Prop :=
  ∀ ids id n l v w ts vs b, s.Path m ids ⟨.apply id n :: ts, v :: l :: vs, b⟩ →
    s.arena.Replaced ctx n v w → Kernel.Kept s.conversions n.op l v w

variable {s : Evaluation} {ctx : BuildContext}

theorem Keeps.of_path {m m' : Machine} {ids : List NodeId} (h : s.Keeps ctx m)
    (path : s.Path m ids m') : s.Keeps ctx m' := by
  intro ids' id n l v w ts vs b path' replaced
  exact h _ id n l v w ts vs b (path.trans path') replaced

theorem Keeps.step {t : Task} {rest : List Task} {vs : List Value} {b : Bindings} {next : Machine}
    (h : s.Keeps ctx ⟨t :: rest, vs, b⟩) (performed : s.perform t ⟨rest, vs, b⟩ = .ok next) :
    s.Keeps ctx next :=
  h.of_path (.step performed (.here next))

theorem Keeps.after {id : NodeId} {depth : Nat} {ts : List Task} {vs : List Value}
    {b b' : Bindings} {v : Value} (h : s.Keeps ctx ⟨.eval id depth :: ts, vs, b⟩)
    (hv : s.valueAt id depth b = (.ok v, b')) : s.Keeps ctx ⟨ts, v :: vs, b'⟩ := by
  have ends := s.ends_valueAt id depth b ts vs
  rw [hv] at ends
  obtain ⟨ids, path⟩ := ends
  exact h.of_path path

theorem perform_eval (s : Evaluation) (id : NodeId) {depth : Nat} (hd : depth < s.maxDepth)
    (m : Machine) :
    s.perform (.eval id depth) m = s.enterNode id depth m := if_pos hd

end Evaluation

/-! ## Twins -/

/-- The node `i` of the first arena and `j` of the second one are roots of the same tree, but for
replaced literals. -/
inductive Arena.Twin (ctx : BuildContext) (scope : Scope) (a c : Arena) : NodeId → NodeId → Prop
  | leaf {i j : NodeId} {node : Node} (leaf : node.operands = []) (left : a.node? i = some node)
      (right : c.node? j = some node) (span : a.span? i = c.span? j) : Twin ctx scope a c i j
  | group {i j k m : NodeId} (left : a.node? i = some (.group k))
      (right : c.node? j = some (.group m)) (span : a.span? i = c.span? j)
      (inner : Twin ctx scope a c k m) : Twin ctx scope a c i j
  | unary {i j k m : NodeId} {op : UnaryOp} {ty : Ty} (left : a.node? i = some (.unary op k ty))
      (right : c.node? j = some (.unary op m ty)) (span : a.span? i = c.span? j)
      (operand : Twin ctx scope a c k m) : Twin ctx scope a c i j
  | binary {i j k m : NodeId} {n : BinaryNode}
      (left : a.node? i = some (.binary { n with left := k, right := m }))
      (right : c.node? j = some (.binary n)) (span : a.span? i = c.span? j)
      (operand : Twin ctx scope a c k n.left) (operand' : Twin ctx scope a c m n.right) :
      Twin ctx scope a c i j
  | converted {i j : NodeId} {m n : BinaryNode} {v w : Value} {ty : Ty}
      (left : a.node? i = some (.binary m)) (right : c.node? j = some (.binary n))
      (span : a.span? i = c.span? j) (op : m.op = n.op) (egress : m.egress = n.egress)
      (operand : Twin ctx scope a c m.left n.left)
      (literal : a.node? m.right = some (.literal w ty)) (replaced : c.Replaced ctx n v w)
      (literalSpan : a.span? m.right = c.span? n.right)
      (tagged : c.Tagged scope n.left (c.egress n.left).admits)
      (fits : ∀ l, (c.egress n.left).admits l.tag = true →
        Kernel.Fits n.op (m.leftTag.resolve l) l ∧ Kernel.Fits n.op (n.leftTag.resolve l) l)
      (fitsRight : Kernel.Fits n.op (m.rightTag.resolve w) w ∧
        Kernel.Fits n.op (n.rightTag.resolve v) v) : Twin ctx scope a c i j

namespace Evaluation

variable {s : Evaluation} {ctx : BuildContext} {scope : Scope} {a : Arena}

theorem agreesAt_binary {i j : NodeId} {m n : BinaryNode} (left : a.node? i = some (.binary m))
    (right : s.arena.node? j = some (.binary n)) (span : a.span? i = s.arena.span? j)
    (op : m.op = n.op) {b : Bindings} {depth : Nat} (hd : depth < s.maxDepth) {ts : List Task}
    {vs : List Value} (keeps : s.Keeps ctx ⟨.eval j depth :: ts, vs, b⟩)
    (operand : s.Keeps ctx ⟨.eval n.left (depth + 1) :: .right j n depth :: ts, vs, b⟩ →
      ((s.on a).valueAt m.left (depth + 1) b).AgreesAt (s.valueAt n.left (depth + 1) b) b)
    (rest : ∀ l, s.valueAt n.left (depth + 1) b = (.ok l, b) →
      s.Keeps ctx ⟨.eval n.right (depth + 1) :: .apply j n :: ts, l :: vs, b⟩ →
      (((s.on a).valueAt m.right (depth + 1) b).andThen fun r b =>
        ((s.on a).located i ((s.on a).applyBinary m l r), b)).AgreesAt
      ((s.valueAt n.right (depth + 1) b).andThen fun r b =>
        (s.located j (s.applyBinary n l r), b)) b) :
    ((s.on a).valueAt i depth b).AgreesAt (s.valueAt j depth b) b := by
  cases hm : s.mode with
  | interpreted =>
    rw [valueAt_interpreted (s := s.on a) hd left hm, valueAt_interpreted hd right hm]
    exact agreesAt_failAt span (.refl _) b
  | accelerated =>
    rw [valueAt_binary (s := s.on a) hd left hm, valueAt_binary hd right hm]
    have enter := s.perform_eval j hd ⟨ts, vs, b⟩
    simp only [enterNode, right, hm] at enter
    have keeps := keeps.step enter
    refine (operand keeps).andThen fun l hl => ?_
    rw [op]
    by_cases hdec : decided n.op (some l) = true
    · rw [if_pos hdec, if_pos hdec]
      exact .value l b
    · rw [if_neg hdec, if_neg hdec]
      exact rest l hl ((keeps.after hl).step (if_neg hdec))

/-- Twins have answers that agree. -/
theorem valueAt_twin {i j : NodeId} (h : a.Twin ctx scope s.arena i j) {b : Bindings}
    (hb : b.Respect scope) (depth : Nat) {ts : List Task} {vs : List Value}
    (keeps : s.Keeps ctx ⟨.eval j depth :: ts, vs, b⟩) :
    ((s.on a).valueAt i depth b).AgreesAt (s.valueAt j depth b) b := by
  induction h generalizing depth ts vs with
  | @leaf i j node leaf left right span =>
    by_cases hd : depth < s.maxDepth
    · cases node with
      | literal v ty =>
        rw [valueAt_literal (s := s.on a) hd left, valueAt_literal hd right]
        exact .value v b
      | «variable» name ty =>
        rw [valueAt_variable (s := s.on a) hd left, valueAt_variable hd right]
        cases b.get? name with
        | some v => exact .value v b
        | none => exact agreesAt_failAt span (.refl _) b
      | group | unary | assign | binary => contradiction
    · exact agreesAt_deep span hd b
  | @group i j k m left right span _ ih =>
    by_cases hd : depth < s.maxDepth
    · rw [valueAt_group (s := s.on a) hd left, valueAt_group hd right]
      have enter := s.perform_eval j hd ⟨ts, vs, b⟩
      simp only [enterNode, right] at enter
      exact ih (depth + 1) (keeps.step enter)
    · exact agreesAt_deep span hd b
  | @unary i j k m op ty left right span _ ih =>
    by_cases hd : depth < s.maxDepth
    · rw [valueAt_unary (s := s.on a) hd left, valueAt_unary hd right]
      have enter := s.perform_eval j hd ⟨ts, vs, b⟩
      simp only [enterNode, right] at enter
      exact (ih (depth + 1) (keeps.step enter)).andThen fun v _ =>
        agreesAt_located span (.refl _) b
    · exact agreesAt_deep span hd b
  | binary left right span _ _ ihl ihr =>
    by_cases hd : depth < s.maxDepth
    · refine agreesAt_binary left right span rfl hd keeps (ihl (depth + 1)) fun l _ keeps => ?_
      exact (ihr (depth + 1) keeps).andThen fun r _ => agreesAt_located span (.refl _) b
    · exact agreesAt_deep span hd b
  | @converted i j m n v w ty left right span op _ _ literal replaced literalSpan tagged fits
      fitsRight ih =>
    by_cases hd : depth < s.maxDepth
    · refine agreesAt_binary left right span op hd keeps (ih (depth + 1)) fun l hl keeps => ?_
      by_cases hd' : depth + 1 < s.maxDepth
      · rw [valueAt_literal (s := s.on a) hd' literal, valueAt_literal hd' replaced.2.1]
        have keeps := keeps.after (valueAt_literal hd' replaced.2.1)
        have kept := keeps [] j n l v w ts vs b (.here _) replaced
        have admitted : (s.arena.egress n.left).admits l.tag = true :=
          (valueAt_untagged tagged hb (depth + 1)).2.mem l (by rw [hl])
        have own : (s.on a).applyBinary m l w = Kernel.applyOwn s.conversions n.op l w := by
          rw [applyBinary, op]
          exact Kernel.apply_eq_applyOwn _ (fits l admitted).1 fitsRight.1
        have own' : s.applyBinary n l v = Kernel.applyOwn s.conversions n.op l v :=
          Kernel.apply_eq_applyOwn _ (fits l admitted).2 fitsRight.2
        refine agreesAt_located span ?_ b
        rw [own, own']
        exact kept
      · refine (agreesAt_deep (s := s) literalSpan hd' b).andThen fun r hr => ?_
        rw [valueAt_deep hd'] at hr
        exact absurd (Prod.mk.inj hr).1 (by simp)
    · exact agreesAt_deep span hd b

/-! ## Statements -/

/-- Running statements comes to the operation on two values. -/
inductive Performs (s : Evaluation) : List NodeId → Bindings → BinaryNode → Value → Value → Prop
  | here {id place : NodeId} {rest ids : List NodeId} {b b' : Bindings} {n : BinaryNode}
      {l r : Value} {ts : List Task} {vs : List Value}
      (path : s.Path (.begin id b) ids ⟨.apply place n :: ts, r :: l :: vs, b'⟩) :
      Performs s (id :: rest) b n l r
  | later {id : NodeId} {rest : List NodeId} {b b' : Bindings} {n : BinaryNode} {l r v : Value}
      (done : s.eval id b = (.ok v, b')) (performs : Performs s rest b' n l r) :
      Performs s (id :: rest) b n l r

theorem Path.next {t : Task} {rest : List Task} {vs : List Value} {b : Bindings}
    {next last : Machine} {ids : List NodeId} (h : s.Path ⟨t :: rest, vs, b⟩ ids last)
    (step : s.perform t ⟨rest, vs, b⟩ = .ok next) (other : last.tasks ≠ t :: rest) :
    ∃ ids', s.Path next ids' last := by
  cases h with
  | here => exact absurd rfl other
  | step performed path =>
    rw [step] at performed
    obtain rfl := Except.ok.inj performed
    exact ⟨_, path⟩

/-- An operation on a variable and a literal is performed on the value of the variable. -/
theorem performed_on_variable {id : NodeId} {m n : BinaryNode} {name : String} {ty ty' : Ty}
    {v l l' r : Value} {b : Bindings} (root : s.arena.node? id = some (.binary m))
    (left : s.arena.node? m.left = some (.variable name ty))
    (right : s.arena.node? m.right = some (.literal v ty')) (hl : b.get? name = some l)
    (deep : 1 < s.maxDepth) (mode : s.mode = .accelerated)
    (undecided : ¬ decided m.op (some l) = true)
    (h : s.Performs [id] b n l' r) : n = m ∧ l' = l := by
  have enter : s.perform (.eval id 0) ⟨[], [], b⟩ =
      .ok ⟨[.eval m.left 1, .right id m 0], [], b⟩ := by
    rw [s.perform_eval id (Nat.lt_trans Nat.zero_lt_one deep)]
    simp only [enterNode, root, mode]
    rfl
  have enterLeft : s.perform (.eval m.left 1) ⟨[.right id m 0], [], b⟩ =
      .ok ⟨[.right id m 0], [l], b⟩ := by
    rw [s.perform_eval m.left deep]
    simp only [enterNode, left, hl]
    rfl
  have goOn : s.perform (.right id m 0) ⟨[], [l], b⟩ =
      .ok ⟨[.eval m.right 1, .apply id m], [l], b⟩ := if_neg undecided
  have enterRight : s.perform (.eval m.right 1) ⟨[.apply id m], [l], b⟩ =
      .ok ⟨[.apply id m], [v, l], b⟩ := by
    rw [s.perform_eval m.right deep]
    simp only [enterNode, right]
    rfl
  cases h with
  | @here _ place _ ids _ b' _ _ _ ts vs path =>
    obtain ⟨_, path⟩ := path.next enter (by simp)
    obtain ⟨_, path⟩ := path.next enterLeft (by simp)
    obtain ⟨_, path⟩ := path.next goOn (by simp)
    obtain ⟨_, path⟩ := path.next enterRight (by simp)
    cases path with
    | here => exact ⟨rfl, rfl⟩
    | @step _ _ _ _ last _ _ performed path =>
      -- Nothing is left to do after the operation.
      have done : last.tasks = [] := by
        simp only [perform, pushResult] at performed
        split at performed
        · obtain rfl := Except.ok.inj performed
          rfl
        · contradiction
      obtain ⟨tasks, values, bindings⟩ := last
      obtain rfl : tasks = [] := done
      cases path
  | later done performs => cases performs

/-- Statements of two arenas that are the same, but for replaced literals. -/
inductive Twins (ctx : BuildContext) (a c : Arena) : Scope → List NodeId → List NodeId → Prop
  | nil {scope : Scope} : Twins ctx a c scope [] []
  | value {scope : Scope} {i j : NodeId} {is js : List NodeId} (twin : a.Twin ctx scope c i j)
      (rest : Twins ctx a c scope is js) : Twins ctx a c scope (i :: is) (j :: js)
  | assign {scope : Scope} {i j k m : NodeId} {name : String} {ty : Ty} {is js : List NodeId}
      (left : a.node? i = some (.assign name k ty)) (right : c.node? j = some (.assign name m ty))
      (span : a.span? i = c.span? j) (twin : a.Twin ctx scope c k m)
      (tagged : c.Tagged scope m ty.admits)
      (rest : Twins ctx a c (scope.declare name ty) is js) :
      Twins ctx a c scope (i :: is) (j :: js)

theorem Keeps.of_performs {id : NodeId} {rest : List NodeId} {b : Bindings}
    (h : ∀ n l v w, s.Performs (id :: rest) b n l v → s.arena.Replaced ctx n v w →
      Kernel.Kept s.conversions n.op l v w) : s.Keeps ctx (.begin id b) := by
  intro ids place n l v w ts vs b' path replaced
  exact h n l v w (.here path) replaced

/-- Statements that are twins have answers that agree. -/
theorem evalFrom_twins {is js : List NodeId} (h : Twins ctx a s.arena scope is js) {b : Bindings}
    (hb : b.Respect scope)
    (kept : ∀ n l v w, s.Performs js b n l v → s.arena.Replaced ctx n v w →
      Kernel.Kept s.conversions n.op l v w) (last : Value) :
    Answer.Agrees ((s.on a).evalFrom last is b) (s.evalFrom last js b) := by
  induction h generalizing b last with
  | nil => exact .value last b
  | @value scope i j is js twin _ ih =>
    have keeps := Keeps.of_performs kept
    have later {v : Value} (hv : s.valueAt j 0 b = (.ok v, b)) :
        ∀ n l v w, s.Performs js b n l v → s.arena.Replaced ctx n v w →
          Kernel.Kept s.conversions n.op l v w := by
      intro n l v w performs replaced
      exact kept n l v w (.later ((s.eval_eq_valueAt j b).trans hv) performs) replaced
    obtain ⟨agrees, bindings⟩ := valueAt_twin twin hb 0 keeps
    rw [evalFrom_cons, evalFrom_cons]
    generalize hr : s.valueAt j 0 b = r' at agrees bindings later
    generalize (s.on a).valueAt i 0 b = r at agrees
    cases agrees with
    | failure b' same => exact .failure b' same
    | value v b' =>
      obtain rfl : b' = b := bindings
      exact ih hb (later rfl) v
  | @assign scope i j k m name ty is js left right span twin tagged _ ih =>
    have keeps := Keeps.of_performs kept
    rw [evalFrom_cons, evalFrom_cons]
    by_cases hd : 0 < s.maxDepth
    · have enter := s.perform_eval j hd ⟨[], [], b⟩
      simp only [enterNode, right] at enter
      obtain ⟨agrees, bindings⟩ := valueAt_twin twin hb 1 (keeps.step enter)
      have within := (valueAt_untagged tagged hb 1).2
      have value := valueAt_assign (b := b) hd right
      have later {v : Value} (hv : s.valueAt m 1 b = (.ok v, b)) :
          ∀ n l u w, s.Performs js (b.set name v) n l u → s.arena.Replaced ctx n u w →
            Kernel.Kept s.conversions n.op l u w := by
        intro n l u w performs replaced
        rw [hv] at value
        exact kept n l u w (.later ((s.eval_eq_valueAt j b).trans value) performs) replaced
      rw [valueAt_assign (s := s.on a) hd left, value]
      generalize hr : s.valueAt m 1 b = r' at agrees bindings within later
      generalize (s.on a).valueAt k 1 b = r at agrees
      cases agrees with
      | failure b' same => exact .failure b' same
      | value v b' =>
        obtain rfl : b' = b := bindings
        exact ih (hb.set (within.mem v rfl)) (later rfl) v
    · rw [valueAt_deep (s := s.on a) hd, valueAt_deep hd]
      exact .failure b ⟨.refl _, span⟩

end Evaluation

end Scriptlet
