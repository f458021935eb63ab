import Scriptlet.Proofs.Eval.Recursive
import Scriptlet.Proofs.Kernel.Tags
import Scriptlet.Compile.Scope
import Scriptlet.Proofs.Node.Order

/-!
# Evaluation without operand tags

A program without the tags of its operands dispatches every operation on the values alone. Trees
whose nodes have values of known tags, and operand tags that fit these, evaluate to the same.
-/
namespace Scriptlet

/-- The node without tags of its operands. -/
def Node.untagged : Node → Node
  | .binary n => .binary { n with leftTag := none, rightTag := none }
  | node => node

/-- The arena without tags of operands. -/
def Arena.untagged (a : Arena) : Arena :=
  ⟨a.cells.map fun c => { c with node := c.node.untagged }⟩

/-- The evaluation of the same nodes without tags of operands. -/
def Evaluation.untagged (s : Evaluation) : Evaluation := { s with arena := s.arena.untagged }

namespace Arena

theorem node?_untagged (a : Arena) (id : NodeId) :
    a.untagged.node? id = (a.node? id).map Node.untagged := by
  simp [node?, cell?, untagged, Function.comp_def]

theorem span?_untagged (a : Arena) (id : NodeId) : a.untagged.span? id = a.span? id := by
  simp only [span?, cell?, untagged, Array.getElem?_map]
  cases a.cells[id.index]? <;> rfl

/-- The values of a node have tags of a set: each operation says which tags it makes of those of
its operands, and its operand tags fit these. -/
inductive Tagged (scope : Scope) (a : Arena) : NodeId → (Tag → Bool) → Prop
  | literal {id : NodeId} {v : Value} {ty : Ty} {tags : Tag → Bool}
      (node : a.node? id = some (.literal v ty)) (mem : tags v.tag = true) :
      Tagged scope a id tags
  | named {id : NodeId} {name : String} {ty : Ty}
      (node : a.node? id = some (.variable name ty))
      (declared : scope.lookup? name = some ty ∨ ty = .any) : Tagged scope a id ty.admits
  | group {id inner : NodeId} {tags : Tag → Bool} (node : a.node? id = some (.group inner))
      (tagged : Tagged scope a inner tags) : Tagged scope a id tags
  | unary {id operand : NodeId} {op : UnaryOp} {ty : Ty} {tags : Tag → Bool}
      (node : a.node? id = some (.unary op operand ty)) (tagged : Tagged scope a operand tags)
      (yields : ∀ v w, tags v.tag = true → Kernel.applyUnary op v = .ok w →
        ty.admits w.tag = true) : Tagged scope a id ty.admits
  | binary {id : NodeId} {n : BinaryNode} {ltags rtags : Tag → Bool}
      (node : a.node? id = some (.binary n)) (left : Tagged scope a n.left ltags)
      (right : Tagged scope a n.right rtags)
      (fitsLeft : ∀ v, ltags v.tag = true → Kernel.Fits n.op (n.leftTag.resolve v) v)
      (fitsRight : ∀ v, rtags v.tag = true → Kernel.Fits n.op (n.rightTag.resolve v) v)
      (yields : ∀ l r w, ltags l = true → rtags r = true → n.op.resultTag? l r = some w →
        n.egress.admits w = true)
      (decided : n.op = .and ∨ n.op = .or → n.egress.admits .boolean = true) :
      Tagged scope a id n.egress.admits

end Arena

/-- The bindings give every name in scope a value that its type admits. -/
def Bindings.Respect (b : Bindings) (scope : Scope) : Prop :=
  ∀ name ty v, scope.lookup? name = some ty → b.get? name = some v → ty.admits v.tag = true

theorem Scope.lookup?_declare (scope : Scope) (name other : String) (ty : Ty) :
    (scope.declare name ty).lookup? other =
      if other = name then some ty else scope.lookup? other := by
  by_cases h : other = name
  · simp [declare, lookup?, h]
  · have hb : (other == name) = false := by simpa using h
    simp only [declare, lookup?, List.lookup_cons, hb, if_neg h]

/-- A name that is bound anew has its new type and value; the others are as before. -/
theorem Bindings.bound_anew {b : Bindings} {scope : Scope} {name other : String} {ty ty' : Ty}
    {v v' : Value} (hty : (scope.declare name ty).lookup? other = some ty')
    (hv : (b.set name v).get? other = some v') :
    (ty' = ty ∧ v' = v) ∨ (scope.lookup? other = some ty' ∧ b.get? other = some v') := by
  rw [Scope.lookup?_declare] at hty
  rw [Bindings.get?_set] at hv
  by_cases ho : other = name
  · rw [if_pos ho] at hty hv
    exact .inl ⟨(Option.some.inj hty).symm, (Option.some.inj hv).symm⟩
  · rw [if_neg ho] at hty hv
    exact .inr ⟨hty, hv⟩

theorem Bindings.Respect.set {b : Bindings} {scope : Scope} (h : b.Respect scope) {name : String}
    {ty : Ty} {v : Value} (hv : ty.admits v.tag = true) :
    (b.set name v).Respect (scope.declare name ty) := by
  intro other ty' v' hty' hv'
  rcases Bindings.bound_anew hty' hv' with ⟨rfl, rfl⟩ | ⟨hty', hv'⟩
  · exact hv
  · exact h other ty' v' hty' hv'

namespace Evaluation

/-- An answer that leaves the bindings, and whose value has a tag of the set. -/
structure Answer.Within (r : Answer) (b : Bindings) (tags : Tag → Bool) : Prop where
  bindings : r.2 = b
  mem : ∀ v, r.1 = .ok v → tags v.tag = true

theorem node?_untagged_of {s : Evaluation} {id : NodeId} {node : Node}
    (hn : s.arena.node? id = some node) : s.untagged.arena.node? id = some node.untagged := by
  rw [untagged, Arena.node?_untagged, hn]
  rfl

theorem failAt_untagged (s : Evaluation) (id : NodeId) (kind : ExecutionErrorKind) :
    s.untagged.failAt id kind = s.failAt id kind := by
  rw [failAt, untagged, Arena.span?_untagged, failAt]

theorem located_untagged (s : Evaluation) (id : NodeId) (r : Kernel.Result) :
    s.untagged.located id r = s.located id r := by
  simp only [located, failAt_untagged]

theorem located_ok {s : Evaluation} {id : NodeId} {r : Kernel.Result} {v : Value}
    (h : s.located id r = .ok v) : r = .ok v := by
  cases r with
  | ok w => exact congrArg _ (Except.ok.inj h)
  | error e => contradiction

theorem Answer.Within.ok {v : Value} {b : Bindings} {tags : Tag → Bool}
    (h : tags v.tag = true) : Answer.Within (.ok v, b) b tags :=
  ⟨rfl, fun _ hv => Except.ok.inj hv ▸ h⟩

theorem Answer.Within.error {e : ExecutionError} {b : Bindings} {tags : Tag → Bool} :
    Answer.Within (.error e, b) b tags :=
  ⟨rfl, fun _ hv => by contradiction⟩

theorem Answer.Within.andThen {r : Answer} {b : Bindings} {tags tags' : Tag → Bool}
    (h : r.Within b tags) {next next' : Value → Bindings → Answer}
    (k : ∀ v, tags v.tag = true → next' v b = next v b ∧ (next v b).Within b tags') :
    r.andThen next' = r.andThen next ∧ (r.andThen next).Within b tags' := by
  obtain ⟨e | v, b'⟩ := r
  · obtain rfl : b' = b := h.bindings
    exact ⟨rfl, .error⟩
  · obtain rfl : b' = b := h.bindings
    exact k v (h.mem v rfl)

theorem boolean_of_decided {op : Operator} {v : Value} (h : decided op (some v) = true) :
    (op = .and ∨ op = .or) ∧ v.tag = .boolean := by
  cases v with
  | boolean b =>
    simp only [decided, Bool.or_eq_true, Bool.and_eq_true, beq_iff_eq] at h
    exact ⟨h.imp And.left And.left, rfl⟩
  | _ => contradiction

/-- With tags or without, the node has the same answer, and a value of its tags. -/
theorem valueAt_untagged {s : Evaluation} {scope : Scope} {id : NodeId} {tags : Tag → Bool}
    (h : s.arena.Tagged scope id tags) {b : Bindings} (hb : b.Respect scope) (depth : Nat) :
    s.untagged.valueAt id depth b = s.valueAt id depth b ∧
      (s.valueAt id depth b).Within b tags := by
  have deep {id : NodeId} {tags : Tag → Bool} {depth : Nat} (hd : ¬ depth < s.maxDepth) :
      s.untagged.valueAt id depth b = s.valueAt id depth b ∧
        (s.valueAt id depth b).Within b tags := by
    rw [valueAt_deep (s := s.untagged) hd, valueAt_deep hd, failAt_untagged]
    exact ⟨rfl, .error⟩
  induction h generalizing depth with
  | literal node mem =>
    by_cases hd : depth < s.maxDepth
    · rw [valueAt_literal (s := s.untagged) hd (node?_untagged_of node), valueAt_literal hd node]
      exact ⟨rfl, .ok mem⟩
    · exact deep hd
  | @named id name ty node declared =>
    by_cases hd : depth < s.maxDepth
    · rw [valueAt_variable (s := s.untagged) hd (node?_untagged_of node), valueAt_variable hd node]
      cases hv : b.get? name with
      | some v =>
        refine ⟨rfl, .ok ?_⟩
        rcases declared with hty | rfl
        · exact hb name ty v hty hv
        · rfl
      | none =>
        simp only [failAt_untagged]
        exact ⟨trivial, .error⟩
    · exact deep hd
  | group node _ ih =>
    by_cases hd : depth < s.maxDepth
    · rw [valueAt_group (s := s.untagged) hd (node?_untagged_of node), valueAt_group hd node]
      exact ih (depth + 1)
    · exact deep hd
  | unary node _ yields ih =>
    by_cases hd : depth < s.maxDepth
    · rw [valueAt_unary (s := s.untagged) hd (node?_untagged_of node), valueAt_unary hd node,
        (ih (depth + 1)).1]
      refine (ih (depth + 1)).2.andThen fun v hv => ?_
      rw [located_untagged]
      exact ⟨rfl, rfl, fun w hw => yields v w hv (located_ok hw)⟩
    · exact deep hd
  | @binary id n ltags rtags node _ _ fitsLeft fitsRight yields conclusive ihl ihr =>
    by_cases hd : depth < s.maxDepth
    · cases hm : s.mode with
      | interpreted =>
        rw [valueAt_interpreted (s := s.untagged) hd (node?_untagged_of node) hm,
          valueAt_interpreted hd node hm, failAt_untagged]
        exact ⟨rfl, .error⟩
      | accelerated =>
        rw [valueAt_binary (s := s.untagged) hd (node?_untagged_of node) hm,
          valueAt_binary hd node hm,
          (ihl (depth + 1)).1]
        refine (ihl (depth + 1)).2.andThen fun l hl => ?_
        by_cases hdec : decided n.op (some l) = true
        · simp only [if_pos hdec]
          obtain ⟨hop, htag⟩ := boolean_of_decided hdec
          exact ⟨trivial, .ok (htag ▸ conclusive hop)⟩
        · simp only [if_neg hdec]
          rw [(ihr (depth + 1)).1]
          refine (ihr (depth + 1)).2.andThen fun r hr => ?_
          have own : s.untagged.applyBinary { n with leftTag := none, rightTag := none } l r =
              s.applyBinary n l r :=
            (Kernel.apply_eq_applyOwn _ (fitsLeft l hl) (fitsRight r hr)).symm
          rw [located_untagged, own]
          refine ⟨rfl, rfl, fun w hw => ?_⟩
          have hw : s.applyBinary n l r = .ok w := located_ok hw
          rw [applyBinary, Kernel.apply_eq_applyOwn _ (fitsLeft l hl) (fitsRight r hr)] at hw
          exact yields l.tag r.tag w.tag hl hr (Kernel.tag_applyOwn hw)
    · exact deep hd

/-! ## Statements -/

/-- Statements whose values have tags of the types in scope. -/
inductive Statements (a : Arena) : Scope → List NodeId → Prop
  | nil {scope : Scope} : Statements a scope []
  | value {scope : Scope} {id : NodeId} {tags : Tag → Bool} {rest : List NodeId}
      (tagged : a.Tagged scope id tags) (statements : Statements a scope rest) :
      Statements a scope (id :: rest)
  | assign {scope : Scope} {id value : NodeId} {name : String} {ty : Ty} {rest : List NodeId}
      (node : a.node? id = some (.assign name value ty))
      (tagged : a.Tagged scope value ty.admits)
      (statements : Statements a (scope.declare name ty) rest) :
      Statements a scope (id :: rest)

theorem evalFrom_cons (s : Evaluation) (last : Value) (id : NodeId) (rest : List NodeId)
    (b : Bindings) :
    s.evalFrom last (id :: rest) b =
      (s.valueAt id 0 b).andThen fun v b => s.evalFrom v rest b := by
  rw [evalFrom, s.eval_eq_valueAt]
  rfl

theorem evalFrom_untagged {s : Evaluation} {scope : Scope} {roots : List NodeId}
    (h : Statements s.arena scope roots) {b : Bindings} (hb : b.Respect scope) (last : Value) :
    s.untagged.evalFrom last roots b = s.evalFrom last roots b := by
  induction h generalizing b last with
  | nil => rfl
  | @value scope id tags rest tagged _ ih =>
    obtain ⟨same, within⟩ := valueAt_untagged tagged hb 0
    rw [evalFrom_cons, evalFrom_cons, same]
    generalize s.valueAt id 0 b = r at within
    obtain ⟨e | v, b'⟩ := r
    · rfl
    · obtain rfl : b' = b := within.bindings
      exact ih hb v
  | @assign scope id value name ty rest node tagged _ ih =>
    rw [evalFrom_cons, evalFrom_cons]
    by_cases hd : 0 < s.maxDepth
    · obtain ⟨same, within⟩ := valueAt_untagged tagged hb 1
      rw [valueAt_assign (s := s.untagged) hd (node?_untagged_of node), valueAt_assign hd node,
        same]
      generalize s.valueAt value 1 b = r at within
      obtain ⟨e | v, b'⟩ := r
      · rfl
      · obtain rfl : b' = b := within.bindings
        exact ih (hb.set (within.mem v rfl)) v
    · rw [valueAt_deep (s := s.untagged) hd, valueAt_deep hd, failAt_untagged]
      rfl

end Evaluation

end Scriptlet
