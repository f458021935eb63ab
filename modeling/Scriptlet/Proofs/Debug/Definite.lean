import Scriptlet.Proofs.Compile.Egress
import Scriptlet.Proofs.Debug.Standing
import Scriptlet.Proofs.Kernel.Faults

/-!
# Definite assignment

Under strong typing a program reads no name before it is declared or assigned. A name comes into
scope with the assignment that binds it, so where the inputs are bound, every name in scope is
bound whenever a statement begins, and stays so until it ends.
-/
namespace Scriptlet

/-- The name that a leaf reads. -/
def Grammar.Leaf.names : Leaf → List String
  | .ident name => [String.ofList name]
  | _ => []

namespace Compile

/-- The names that a formula reads. -/
def Formula.names : Formula → List String
  | .leaf l _ => l.names
  | .group inner _ => inner.names
  | .unary _ operand _ => operand.names
  | .binary _ left right => left.names ++ right.names

variable {ctx : BuildContext} {scope : Scope}

/-- Under strong typing a formula compiles only if the names that it reads are in scope. -/
theorem names_in_scope (strong : ctx.strongTyping = true) {f : Formula} {a : Arena}
    {next : NodeId × Arena} (h : f.build ctx scope a = .ok next) :
    ∀ name ∈ f.names, (scope.lookup? name).isSome = true := by
  induction f generalizing a next with
  | leaf l span =>
    cases l with
    | ident name =>
      simp only [Formula.build, compileLeaf, compileName, strong, if_true] at h
      simp only [Formula.names, Grammar.Leaf.names, List.forall_mem_singleton]
      cases hty : scope.lookup? (String.ofList name) with
      | some ty => rfl
      | none =>
        rw [hty] at h
        contradiction
    | _ => simp [Formula.names, Grammar.Leaf.names]
  | group inner span ih =>
    obtain ⟨_, h, -⟩ := bind_eq_ok h
    exact ih h
  | unary op operand span ih =>
    obtain ⟨_, h, -⟩ := bind_eq_ok h
    exact ih h
  | binary op left right ihl ihr =>
    obtain ⟨_, hl, h⟩ := bind_eq_ok h
    obtain ⟨_, hr, -⟩ := bind_eq_ok h
    exact List.forall_mem_append.mpr ⟨ihl hl, ihr hr⟩

end Compile

/-- Every name in scope is bound. -/
def Bindings.Covers (b : Bindings) (scope : Scope) : Prop :=
  ∀ name, (scope.lookup? name).isSome = true → (b.get? name).isSome = true

theorem Bindings.covers_ofInputs {inputs : List (String × Ty)} {b : Bindings}
    (h : ∀ input ∈ inputs, (b.get? input.1).isSome = true) : b.Covers (.ofInputs inputs) := by
  intro name declared
  obtain ⟨ty, hty⟩ := Option.isSome_iff_exists.mp declared
  exact h (name, ty) (Scope.mem_of_lookup?_ofInputs hty)

theorem Bindings.Covers.set {b : Bindings} {scope : Scope} (h : b.Covers scope) (name : String)
    (ty : Ty) (v : Value) : (b.set name v).Covers (scope.declare name ty) := by
  intro other declared
  rw [Scope.lookup?_declare] at declared
  rw [Bindings.get?_set]
  by_cases same : other = name
  · rw [if_pos same]
    rfl
  · rw [if_neg same] at declared ⊢
    exact h other declared

namespace Evaluation

open Compile

/-- An answer that is not the error of an unbound name. -/
def Answer.Finds (r : Answer) : Prop :=
  ∀ e, r.1 = .error e → ∀ name, e.kind ≠ .runtime (.unboundVariable name)

variable {s : Evaluation} {ctx : BuildContext} {scope : Scope} {id : NodeId} {b b' : Bindings}

theorem finds_ok (v : Value) (b : Bindings) : Answer.Finds (.ok v, b) := by
  intro e h
  contradiction

theorem finds_failAt {kind : ExecutionErrorKind}
    (other : ∀ name, kind ≠ .runtime (.unboundVariable name)) (b : Bindings) :
    Answer.Finds (.error (s.failAt id kind), b) := by
  intro e h
  obtain rfl := Except.error.inj h
  exact other

theorem Answer.Finds.andThen {r : Answer} {next : Value → Bindings → Answer} (h : r.Finds)
    (k : ∀ v b', r = (.ok v, b') → (next v b').Finds) : (r.andThen next).Finds := by
  obtain ⟨e | v, b'⟩ := r
  · exact h
  · exact k v b' rfl

theorem finds_located {r : Kernel.Result}
    (other : ∀ name, r ≠ .error (.unboundVariable name)) (b : Bindings) :
    Answer.Finds (s.located id r, b) := by
  cases r with
  | ok v => exact finds_ok v b
  | error e =>
    refine finds_failAt (fun name h => ?_) b
    obtain rfl := ExecutionErrorKind.runtime.inj h
    exact other name rfl

theorem finds_unary (op : UnaryOp) (v : Value) (b : Bindings) :
    Answer.Finds (s.located id (Kernel.applyUnary op v), b) := by
  refine finds_located (fun name h => ?_) b
  have invalid := Kernel.invalid_of_applyUnary h
  contradiction

theorem finds_binary (n : BinaryNode) (l r : Value) (b : Bindings) :
    Answer.Finds (s.located id (s.applyBinary n l r), b) := by
  refine finds_located (fun name h => ?_) b
  have fault := Kernel.faults_apply _ _ _ _ _ _ _ h
  cases fault

/-- At the depth limit no name is looked up. -/
theorem finds_of_shallow {depth : Nat} (h : depth < s.maxDepth → (s.valueAt id depth b).Finds) :
    (s.valueAt id depth b).Finds := by
  by_cases hd : depth < s.maxDepth
  · exact h hd
  · rw [valueAt_deep hd]
    exact finds_failAt (by simp) b

theorem finds_literal {v : Value} {ty : Ty} (hn : s.arena.node? id = some (.literal v ty))
    (depth : Nat) (b : Bindings) : (s.valueAt id depth b).Finds := by
  refine finds_of_shallow fun hd => ?_
  rw [valueAt_literal hd hn]
  exact finds_ok v b

/-- Where all names of a formula are bound, evaluating it finds them. -/
theorem finds_valueAt (ha : s.arena.Ordered) {f : Formula} (h : s.arena.Shows ctx id f)
    (bound : ∀ name ∈ f.names, (b.get? name).isSome = true) (depth : Nat) :
    (s.valueAt id depth b).Finds := by
  induction h generalizing depth with
  | @leaf id l node span stands place shows =>
    cases shows with
    | ident name ty =>
      have hv := bound (String.ofList name) (by simp [Formula.names, Grammar.Leaf.names])
      obtain ⟨v, hv⟩ := Option.isSome_iff_exists.mp hv
      refine finds_of_shallow fun hd => ?_
      rw [valueAt_variable hd stands, hv]
      exact finds_ok v b
    | _ => exact finds_literal stands depth b
  | @group id inner f span node place shows ih =>
    refine finds_of_shallow fun hd => ?_
    rw [valueAt_group hd node]
    exact ih bound (depth + 1)
  | @unary id operand op ty f span node place shows ih =>
    refine finds_of_shallow fun hd => ?_
    rw [valueAt_unary hd node]
    exact (ih bound (depth + 1)).andThen fun v b' _ => finds_unary op v b'
  | folded literal negative node place shows ih => exact finds_literal node depth b
  | @binary id right n f g node left shows stands ihl ihr =>
    obtain ⟨boundLeft, boundRight⟩ := List.forall_mem_append.mp bound
    have right (depth : Nat) : (s.valueAt n.right depth b).Finds := by
      rcases stands with same | ⟨-, v, ty, target, w, place, -, -, new, -⟩
      · rw [same]
        exact ihr boundRight depth
      · exact finds_literal new depth b
    refine finds_of_shallow fun hd => ?_
    cases hm : s.mode with
    | interpreted =>
      rw [valueAt_interpreted hd node hm]
      exact finds_failAt (by simp) b
    | accelerated =>
      rw [valueAt_binary hd node hm]
      refine (ihl boundLeft (depth + 1)).andThen fun l b' hl => ?_
      -- The left operand has bound nothing, so the names of the right one are still bound.
      have kept := bindings_valueAt ha (left.bindless ha) (depth + 1) b
      rw [hl] at kept
      obtain rfl : b' = b := kept
      by_cases hdec : decided n.op (some l) = true
      · rw [if_pos hdec]
        exact finds_ok l b'
      · rw [if_neg hdec]
        exact (right (depth + 1)).andThen fun r b'' _ => finds_binary n l r b''

/-! ## Statements -/

/-- Statements that read names in scope only. An assignment brings its name into scope. -/
inductive Definite (ctx : BuildContext) (a : Arena) : Scope → List NodeId → Prop
  | nil {scope : Scope} : Definite ctx a scope []
  | value {scope : Scope} {id : NodeId} {f : Formula} {rest : List NodeId}
      (shows : a.Shows ctx id f) (names : ∀ name ∈ f.names, (scope.lookup? name).isSome = true)
      (later : Definite ctx a scope rest) : Definite ctx a scope (id :: rest)
  | assign {scope : Scope} {id value : NodeId} {name : String} {ty : Ty} {f : Formula}
      {rest : List NodeId} (node : a.node? id = some (.assign name value ty))
      (shows : a.Shows ctx value f)
      (names : ∀ name ∈ f.names, (scope.lookup? name).isSome = true)
      (later : Definite ctx a (scope.declare name ty) rest) : Definite ctx a scope (id :: rest)

theorem definite_of_compiled {lines : Option LineIndex} {a final : Arena}
    {statements : List Grammar.Statement} {roots : List NodeId}
    (strong : ctx.strongTyping = true) (ha : a.Ordered)
    (h : compileStatements ctx lines scope a statements = .ok (roots, final)) :
    Definite ctx final scope roots := by
  refine compileStatements_ind (motive := fun scope _ roots => Definite ctx final scope roots)
    (fun _ => .nil) ?_ ?_ ha h
  · intro scope e rest id roots a a' ha hbuild grows _ later
    exact .value (build_shows ha hbuild grows) (names_in_scope strong hbuild) later
  · intro scope name nameSpan value rest id roots a a' ha hbuild grows _ later
    have shows := build_shows ha hbuild ((a'.grows_push _ _).trans grows)
    exact .assign grows.pushed.1 shows (names_in_scope strong hbuild) later

/-- A statement that is begun finds the names that it reads. -/
theorem Definite.finds {roots : List NodeId} (h : Definite ctx s.arena scope roots)
    (ha : s.arena.Ordered) (hb : b.Covers scope) {root : NodeId}
    (comes : s.Comes roots b root b') : (s.valueAt root 0 b').Finds := by
  induction comes generalizing scope with
  | @here root rest b =>
    cases h with
    | value shows names _ =>
      exact finds_valueAt ha shows (fun name hname => hb name (names name hname)) 0
    | @assign _ _ value name ty f _ node shows names _ =>
      have found := finds_valueAt ha shows (fun name hname => hb name (names name hname)) 1
      refine finds_of_shallow fun hd => ?_
      rw [valueAt_assign hd node]
      exact found.andThen fun v b' _ => finds_ok v _
  | @later id root rest b b₁ b' v done comes ih =>
    cases h with
    | value shows _ later =>
      obtain rfl := bindings_of_eval ha (shows.bindless ha) done
      exact ih later hb
    | @assign _ _ value name ty f _ node shows _ later =>
      obtain rfl := bindings_of_assigned ha node (shows.bindless ha) done
      exact ih later (hb.set name ty v)

theorem Leaves.comes {roots rest : List NodeId} {root : NodeId} {last : Value}
    (h : s.Leaves roots b (root :: rest) last b') : s.Comes roots b root b' := by
  obtain ⟨done, rfl, before⟩ := h
  rw [evalAll] at before
  generalize Value.null = first at before
  induction done generalizing first b with
  | nil =>
    obtain ⟨-, rfl⟩ := Prod.mk.inj before
    exact .here
  | cons id done ih =>
    rw [evalFrom_cons] at before
    obtain ⟨v, b₁, completed, before⟩ := Answer.andThen_ok before
    exact .later ((s.eval_eq_valueAt id b).trans completed) (ih v before)

theorem Settles.finds {roots : List NodeId} {r : Answer} (settles : s.Settles roots b r)
    (h : Definite ctx s.arena scope roots) (ha : s.arena.Ordered) (hb : b.Covers scope) :
    r.Finds := by
  cases settles with
  | value all => exact finds_ok _ _
  | failure leaves fails =>
    have found := h.finds ha hb leaves.comes
    rwa [← eval_eq_valueAt, fails] at found

end Evaluation

namespace Session

open Evaluation

/-- Under strong typing no run of a program on bindings for all declared inputs comes to an unbound
name, whatever the inputs are bound to. Nor does a call of a session, or a run under a debugger. -/
theorem definite_assignment {ctx : BuildContext} {inputs : List (String × Ty)}
    {debugSymbols : Bool} {limit : Nat} {p : Program}
    (hp : compile ctx inputs debugSymbols limit = .ok p) (strong : ctx.strongTyping = true)
    {s : Evaluation} (hs : s.arena = p.arena) {b : Bindings}
    (hb : ∀ input ∈ inputs, (b.get? input.1).isSome = true) :
    (∀ e b' name, s.evalAll p.statements b = (.error e, b') →
      e.kind ≠ .runtime (.unboundVariable name)) ∧
    (∀ (calls : Nat → Breakpoints × Call) (n : Nat) e name,
      (begin s p.statements b).answerAt calls n = .failed e →
        e.kind ≠ .runtime (.unboundVariable name)) ∧
    ∀ (σ : Type) (onBreak : σ → Frame → Directive × σ) (registry : σ → Breakpoints) (state : σ)
      e name, ((begin s p.statements b).runToCompletion onBreak registry state).1 = .error e →
        e.kind ≠ .runtime (.unboundVariable name) := by
  obtain ⟨script, -, h⟩ := compile_ok hp
  have ordered : s.arena.Ordered := hs ▸ (compile_layout hp).1
  have binds : ∀ r ∈ p.statements, s.arena.BindsLast r := hs ▸ compile_bindsLast hp
  have definite : Definite ctx s.arena (.ofInputs inputs) p.statements :=
    hs ▸ definite_of_compiled strong .empty h
  have finds {r : Answer} (settles : s.Settles p.statements b r) : r.Finds :=
    settles.finds definite ordered (Bindings.covers_ofInputs hb)
  refine ⟨fun e b' name failed => ?_, fun calls n e name failed => ?_,
    fun σ onBreak registry state e name failed => ?_⟩
  · have found := finds (settles_evalAll ordered binds b)
    exact found e (by rw [failed]) name
  · have halts := halts_call ordered binds calls n (b := b)
    rw [failed] at halts
    exact finds (halts.settles.2 e rfl) e rfl name
  · obtain ⟨-, -, -, settles⟩ := settles_runFrom ordered binds onBreak registry state .continue
      (standing_begin s p.statements b)
    exact finds settles e failed name

/-- One input is bound to null, and a name is assigned twice. -/
theorem definite_assignment_null :
    ∃ p, compile (strict "x = a == null;\nx = x || b;\nx && a > 1")
        [("a", .primitive .int), ("b", .primitive .boolean)] true 128 = .ok p ∧
      p.statements.length = 3 ∧
      (∀ e b' name, (plainly p.arena).evalAll p.statements
          (.ofList [("a", .null), ("b", .boolean true)]) = (.error e, b') →
        e.kind ≠ .runtime (.unboundVariable name)) ∧
      ∀ calls n e name, (begin (plainly p.arena) p.statements
          (.ofList [("a", .null), ("b", .boolean true)])).answerAt calls n = .failed e →
        e.kind ≠ .runtime (.unboundVariable name) := by
  have compiled : (compile (strict "x = a == null;\nx = x || b;\nx && a > 1")
      [("a", .primitive .int), ("b", .primitive .boolean)] true 128).map (·.statements.length) =
        .ok 3 := by
    decide +kernel
  obtain ⟨p, hp, three⟩ := Kernel.map_eq_ok compiled
  obtain ⟨run, calls, -⟩ := definite_assignment hp rfl (s := plainly p.arena) rfl
    (b := .ofList [("a", .null), ("b", .boolean true)]) (by decide +kernel)
  exact ⟨p, hp, three, run, calls⟩

end Session

end Scriptlet
