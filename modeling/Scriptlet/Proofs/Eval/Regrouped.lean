import Scriptlet.Node.Binary
import Scriptlet.Proofs.Eval.Limit

/-!
# Trees with more groups

A group has the value of what is in it, and it is one level deeper. It is no literal, so an
operation does not know the tag of a literal in a group before evaluation, but it finds the same
one then. Trees that differ in groups have the same values, or errors of one kind, where the depth
limit is not reached.
-/
namespace Scriptlet

namespace Arena

/-- The tags of an operand come to the same: they are one, or the operand is a literal on which
both resolve to one. -/
def Resolves (a : Arena) (operand : NodeId) (tag tag' : OperandTag) : Prop :=
  tag = tag' ∨
    ∃ v ty, a.node? operand = some (.literal v ty) ∧ tag.resolve v = tag'.resolve v

/-- The tree under `j` is the one under `i`, with groups more in it. -/
inductive Regrouped (a c : Arena) : NodeId → NodeId → Prop
  | leaf {i j : NodeId} {node : Node} (leaf : node.operands = [])
      (own : ∀ v ty, node = .literal v ty → ty = v.ty) (left : a.node? i = some node)
      (right : c.node? j = some node) : Regrouped a c i j
  | enclosed {i j m : NodeId} (right : c.node? j = some (.group m)) (inner : Regrouped a c i m) :
      Regrouped a c i j
  | group {i j k m : NodeId} (left : a.node? i = some (.group k))
      (right : c.node? j = some (.group m)) (inner : Regrouped a c k m) : Regrouped a c i j
  | unary {i j k m : NodeId} {op : UnaryOp} {ty : Ty} (left : a.node? i = some (.unary op k ty))
      (right : c.node? j = some (.unary op m ty)) (operand : Regrouped a c k m) :
      Regrouped a c i j
  | assign {i j k m : NodeId} {name : String} {ty : Ty}
      (left : a.node? i = some (.assign name k ty))
      (right : c.node? j = some (.assign name m ty)) (value : Regrouped a c k m) :
      Regrouped a c i j
  | binary {i j k m : NodeId} {n : BinaryNode} {tag tag' : OperandTag}
      (left : a.node? i = some (.binary n))
      (right : c.node? j = some
        (.binary { n with left := k, right := m, leftTag := tag, rightTag := tag' }))
      (operand : Regrouped a c n.left k) (operand' : Regrouped a c n.right m)
      (resolves : a.Resolves n.left n.leftTag tag)
      (resolves' : a.Resolves n.right n.rightTag tag') : Regrouped a c i j

variable {a a' c c' : Arena} {i j : NodeId}

theorem Resolves.mono {tag tag' : OperandTag} (h : a.Resolves i tag tag')
    (keeps : ∀ x node, a.node? x = some node → a'.node? x = some node) :
    a'.Resolves i tag tag' :=
  h.imp_right fun ⟨v, ty, literal, same⟩ => ⟨v, ty, keeps _ _ literal, same⟩

theorem Regrouped.mono (h : a.Regrouped c i j)
    (keeps : ∀ x node, a.node? x = some node → a'.node? x = some node)
    (keeps' : ∀ x node, c.node? x = some node → c'.node? x = some node) :
    a'.Regrouped c' i j := by
  induction h with
  | leaf leaf own left right => exact .leaf leaf own (keeps _ _ left) (keeps' _ _ right)
  | enclosed right _ ih => exact .enclosed (keeps' _ _ right) ih
  | group left right _ ih => exact .group (keeps _ _ left) (keeps' _ _ right) ih
  | unary left right _ ih => exact .unary (keeps _ _ left) (keeps' _ _ right) ih
  | assign left right _ ih => exact .assign (keeps _ _ left) (keeps' _ _ right) ih
  | binary left right _ _ resolves resolves' ihl ihr =>
    exact .binary (keeps _ _ left) (keeps' _ _ right) ihl ihr (resolves.mono keeps)
      (resolves'.mono keeps)

theorem Regrouped.grows (h : a.Regrouped c i j) (grows : a.Grows a') (grows' : c.Grows c') :
    a'.Regrouped c' i j :=
  h.mono (fun _ _ => grows.node?) fun _ _ => grows'.node?

/-- Groups do not change the type. -/
theorem Regrouped.egress_eq (h : a.Regrouped c i j) (ha : a.Ordered) (hc : c.Ordered) :
    a.egress i = c.egress j := by
  induction h with
  | leaf leaf _ left right =>
    rw [Arena.egress_eq ha left, Arena.egress_eq hc right]
    rename Node => node
    cases node <;> first | rfl | contradiction
  | enclosed right _ ih => rw [Arena.egress_eq hc right, typeOf, ih]
  | group left right _ ih =>
    rw [Arena.egress_eq ha left, Arena.egress_eq hc right, typeOf, typeOf, ih]
  | unary left right | assign left right | binary left right =>
    rw [Arena.egress_eq ha left, Arena.egress_eq hc right]
    rfl

/-- Literals have their own types. -/
theorem Regrouped.own (h : a.Regrouped c i j) {v : Value} {ty : Ty}
    (literal : a.node? i = some (.literal v ty)) : ty = v.ty := by
  induction h with
  | leaf _ own left _ => exact own v ty (Option.some.inj (left.symm.trans literal))
  | enclosed _ _ ih => exact ih literal
  | group left | unary left | assign left | binary left =>
    rw [left] at literal
    cases literal

/-- The tag that is stored for an operand and the one for it in groups come to the same. -/
theorem Regrouped.resolves (h : a.Regrouped c i j) (ha : a.Ordered) (ty : Ty)
    (egress : ty = a.egress i) : a.Resolves i (a.literalTag i ty) (c.literalTag j ty) := by
  cases h with
  | leaf leaf _ left right =>
    rw [literalTag, literalTag, isLiteral, isLiteral, left, right]
    exact .inl rfl
  | group left right | unary left right | assign left right | binary left right =>
    rw [literalTag, literalTag, isLiteral, isLiteral, left, right]
    exact .inl rfl
  | @enclosed _ _ m right inner =>
    have none : c.literalTag j ty = none := by
      rw [literalTag, isLiteral, right]
      rfl
    rw [none]
    by_cases literal : ∃ v ty', a.node? i = some (.literal v ty')
    · obtain ⟨v, ty', literal⟩ := literal
      refine .inr ⟨v, ty', literal, ?_⟩
      rw [egress, Arena.egress_eq ha literal, typeOf, inner.own literal, literalTag, isLiteral,
        literal]
      cases v <;> rfl
    · rw [literalTag, isLiteral]
      split
      · rename_i v ty' hn
        exact absurd ⟨v, ty', hn⟩ literal
      · exact .inl rfl

/-- Operations on operands that differ in groups. -/
theorem Regrouped.push {l l' r r' : NodeId} {op : Operator} {egress : Ty}
    {tagl tagl' tagr tagr' : OperandTag} (hl : a.Regrouped c l l') (hr : a.Regrouped c r r')
    (resolves : a.Resolves l tagl tagl') (resolves' : a.Resolves r tagr tagr')
    (span span' : Option Span) :
    (a.push (.binary ⟨op, l, r, egress, tagl, tagr⟩) span).2.Regrouped
      (c.push (.binary ⟨op, l', r', egress, tagl', tagr'⟩) span').2 ⟨a.size⟩ ⟨c.size⟩ := by
  have grows := a.grows_push (.binary ⟨op, l, r, egress, tagl, tagr⟩) span
  have grows' := c.grows_push (.binary ⟨op, l', r', egress, tagl', tagr'⟩) span'
  exact .binary (a.node?_push _ _) (c.node?_push _ _) (hl.grows grows grows')
    (hr.grows grows grows') (resolves.mono fun _ _ => grows.node?)
    (resolves'.mono fun _ _ => grows.node?)

theorem Regrouped.pushBinary {l l' r r' : NodeId} (ha : a.Ordered) (hl : a.Regrouped c l l')
    (hr : a.Regrouped c r r') (op : Operator) (egress : Ty) (span span' : Option Span) :
    (a.pushBinary op l r egress (a.egress l) (a.egress r) span).2.Regrouped
      (c.pushBinary op l' r' egress (a.egress l) (a.egress r) span').2 ⟨a.size⟩ ⟨c.size⟩ := by
  rw [Arena.pushBinary, Arena.pushBinary]
  by_cases same : a.egress l = a.egress r
  · simp only [if_pos same]
    exact hl.push hr (.inl rfl) (.inl rfl) span span'
  · simp only [if_neg same]
    exact hl.push hr (hl.resolves ha _ rfl) (hr.resolves ha _ rfl) span span'

end Arena

namespace Evaluation

/-! ## Answers within the limit -/

/-- The same value or errors of the same kind, and the same bindings. -/
inductive Answer.Alike : Answer → Answer → Prop
  | value (v : Value) (b : Bindings) : Alike (.ok v, b) (.ok v, b)
  | failure {e e' : ExecutionError} (same : e.kind = e'.kind) (b : Bindings) :
      Alike (.error e, b) (.error e', b)

/-- Answers that are alike if none of them is an error of the limit. -/
def Answer.AlikeWithin (r r' : Answer) : Prop := ¬ r.Exceeds → ¬ r'.Exceeds → r.Alike r'

theorem Answer.Alike.within {r r' : Answer} (h : r.Alike r') : r.AlikeWithin r' :=
  fun _ _ => h

theorem Answer.AlikeWithin.andThen {r r' : Answer} {next next' : Value → Bindings → Answer}
    (h : r.AlikeWithin r')
    (k : ∀ v b, r = (.ok v, b) → (next v b).AlikeWithin (next' v b)) :
    (r.andThen next).AlikeWithin (r'.andThen next') := by
  intro within within'
  have first (r : Answer) (next : Value → Bindings → Answer) (h : ¬ (r.andThen next).Exceeds) :
      ¬ r.Exceeds := by
    rintro ⟨e, failed, deep⟩
    obtain ⟨e' | v, b⟩ := r
    · exact h ⟨e, failed, deep⟩
    · contradiction
  cases h (first r next within) (first r' next' within') with
  | value v b => exact k v b rfl within within'
  | failure same b => exact .failure same b

theorem alike_failAt (s s' : Evaluation) (i j : NodeId) (kind : ExecutionErrorKind) (b : Bindings) :
    Answer.Alike (.error (s.failAt i kind), b) (.error (s'.failAt j kind), b) :=
  .failure (show (s.failAt i kind).kind = (s'.failAt j kind).kind from rfl) b

theorem alike_located (s s' : Evaluation) (i j : NodeId) (r : Kernel.Result) (b : Bindings) :
    Answer.Alike (s.located i r, b) (s'.located j r, b) := by
  cases r with
  | ok v => exact .value v b
  | error e => exact alike_failAt s s' i j _ b

variable {s s' : Evaluation} {i j : NodeId}

theorem exceeds_of_deep {depth : Nat} (hd : ¬ depth < s.maxDepth) (b : Bindings) :
    (s.valueAt i depth b).Exceeds := by
  rw [valueAt_deep hd]
  exact ⟨_, rfl, rfl⟩

/-- Below the limit is the only place where anything is to be shown. -/
theorem alikeWithin_of_below {depth depth' : Nat} {b : Bindings}
    (h : depth < s.maxDepth → depth' < s'.maxDepth →
      (s.valueAt i depth b).AlikeWithin (s'.valueAt j depth' b)) :
    (s.valueAt i depth b).AlikeWithin (s'.valueAt j depth' b) := by
  intro within within'
  have hd : depth < s.maxDepth := by
    by_contra hd
    exact within (exceeds_of_deep hd b)
  have hd' : depth' < s'.maxDepth := by
    by_contra hd
    exact within' (exceeds_of_deep hd b)
  exact h hd hd' within within'

/-- A tag and its substitute resolve to the same on the value of the operand. -/
theorem resolve_eq {tag tag' : OperandTag} (h : s.arena.Resolves i tag tag') {depth : Nat}
    {b b' : Bindings} {v : Value} (hv : s.valueAt i depth b = (.ok v, b')) :
    tag.resolve v = tag'.resolve v := by
  rcases h with rfl | ⟨w, ty, literal, same⟩
  · rfl
  · by_cases hd : depth < s.maxDepth
    · rw [valueAt_literal hd literal] at hv
      obtain rfl := Except.ok.inj (Prod.mk.inj hv).1
      exact same
    · rw [valueAt_deep hd] at hv
      cases hv

/-! ## Evaluation -/

section

variable (conversions : s'.conversions = s.conversions) (mode : s'.mode = s.mode)

include conversions mode

/-- Groups are not observed within the limit. -/
theorem valueAt_regrouped (h : s.arena.Regrouped s'.arena i j) (depth depth' : Nat)
    (b : Bindings) : (s.valueAt i depth b).AlikeWithin (s'.valueAt j depth' b) := by
  induction h generalizing depth depth' b with
  | @enclosed i j m right _ ih =>
    refine alikeWithin_of_below fun _ hd' => ?_
    rw [valueAt_group hd' right]
    exact ih depth (depth' + 1) b
  | @leaf i j node leaf _ left right =>
    refine alikeWithin_of_below fun hd hd' => ?_
    cases node with
    | literal v ty =>
      rw [valueAt_literal hd left, valueAt_literal hd' right]
      exact (Answer.Alike.value v b).within
    | «variable» name ty =>
      rw [valueAt_variable hd left, valueAt_variable hd' right]
      cases b.get? name with
      | some v => exact (Answer.Alike.value v b).within
      | none => exact (alike_failAt s s' i j _ b).within
    | group | unary | assign | binary => contradiction
  | group left right _ ih =>
    refine alikeWithin_of_below fun hd hd' => ?_
    rw [valueAt_group hd left, valueAt_group hd' right]
    exact ih _ _ b
  | unary left right _ ih =>
    refine alikeWithin_of_below fun hd hd' => ?_
    rw [valueAt_unary hd left, valueAt_unary hd' right]
    exact (ih _ _ b).andThen fun v b _ => (alike_located s s' _ _ _ b).within
  | assign left right _ ih =>
    refine alikeWithin_of_below fun hd hd' => ?_
    rw [valueAt_assign hd left, valueAt_assign hd' right]
    exact (ih _ _ b).andThen fun v b _ => (Answer.Alike.value v _).within
  | @binary i j k m n tag tag' left right _ _ resolves resolves' ihl ihr =>
    refine alikeWithin_of_below fun hd hd' => ?_
    cases hm : s.mode with
    | interpreted =>
      rw [valueAt_interpreted hd left hm, valueAt_interpreted hd' right (mode.trans hm)]
      exact (alike_failAt s s' i j _ b).within
    | accelerated =>
      rw [valueAt_binary hd left hm, valueAt_binary hd' right (mode.trans hm)]
      refine (ihl _ _ b).andThen fun l b hl => ?_
      by_cases hdec : decided n.op (some l) = true
      · rw [if_pos hdec, if_pos hdec]
        exact (Answer.Alike.value l b).within
      · rw [if_neg hdec, if_neg hdec]
        refine (ihr _ _ b).andThen fun r b hr => ?_
        have same : s'.applyBinary ⟨n.op, k, m, n.egress, tag, tag'⟩ l r = s.applyBinary n l r := by
          rw [applyBinary, applyBinary, conversions, resolve_eq resolves hl,
            resolve_eq resolves' hr]
        rw [same]
        exact (alike_located s s' _ _ _ b).within

/-- Running statements, groups are not observed within the limit. -/
theorem evalFrom_regrouped {is js : List NodeId}
    (h : List.Forall₂ (s.arena.Regrouped s'.arena) is js) (last : Value) (b : Bindings) :
    Answer.AlikeWithin (s.evalFrom last is b) (s'.evalFrom last js b) := by
  induction h generalizing last b with
  | nil => exact (Answer.Alike.value last b).within
  | cons first _ ih =>
    rw [evalFrom_cons, evalFrom_cons]
    exact (valueAt_regrouped conversions mode first 0 0 b).andThen fun v b _ => ih v b

end

end Evaluation

end Scriptlet
