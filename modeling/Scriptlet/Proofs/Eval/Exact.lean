import Scriptlet.Proofs.Eval.Tagged

/-!
# Types that tell tags

In an `Exact` tree the type of each node tells the tag of its values, null apart. The machine
evaluates such a tree to a value of the tag of its type, and so it does the statements of a
program, whose assignments bind values of the types that they declare.
-/
namespace Scriptlet

/-- What a value of the type can be: null, or of the tag of the type. -/
def Ty.tells (ty : Ty) (t : Tag) : Bool := t == .null || t == Tag.ofTy ty

theorem Ty.tells_iff {ty : Ty} {t : Tag} : ty.tells t = true ↔ t = .null ∨ t = Tag.ofTy ty := by
  simp [tells]

theorem Ty.admits_of_tells {ty : Ty} {t : Tag} (h : ty.tells t = true)
    (hs : t = .null → ty ≠ .string) : ty.admits t = true := by
  rcases Ty.tells_iff.mp h with rfl | rfl
  · cases ty with
    | string => exact absurd rfl (hs rfl)
    | _ => rfl
  · exact ty.admits_self

theorem Value.eq_null_of_tag {v : Value} (h : v.tag = .null) : v = .null := by
  cases v <;> first | rfl | contradiction

namespace Arena

/-- The tag of a literal, and of any other node the tag of its type. -/
def valueTag (a : Arena) (id : NodeId) : Tag :=
  match a.node? id with
  | some (.literal v _) => v.tag
  | _ => Tag.ofTy (a.egress id)

/-- What a value of the node can be. -/
def tells (a : Arena) (id : NodeId) (t : Tag) : Bool := t == .null || t == a.valueTag id

/-- The types of the nodes of a tree tell the tags of their values. -/
inductive Exact (scope : Scope) (a : Arena) : NodeId → Prop
  | literal {id : NodeId} {v : Value} {ty : Ty} (node : a.node? id = some (.literal v ty))
      (tells : ty.tells v.tag = true) : Exact scope a id
  | named {id : NodeId} {name : String} {ty : Ty}
      (node : a.node? id = some (.variable name ty))
      (declared : scope.lookup? name = some ty) : Exact scope a id
  | group {id inner : NodeId} (node : a.node? id = some (.group inner))
      (below : Exact scope a inner) : Exact scope a id
  | unary {id operand : NodeId} {op : UnaryOp} {ty : Ty}
      (node : a.node? id = some (.unary op operand ty)) (below : Exact scope a operand)
      (yields : ∀ v w, (a.egress operand).tells v.tag = true → Kernel.applyUnary op v = .ok w →
        w.tag = Tag.ofTy ty) : Exact scope a id
  | binary {id : NodeId} {n : BinaryNode} (node : a.node? id = some (.binary n))
      (left : Exact scope a n.left) (right : Exact scope a n.right)
      (yields : ∀ r l v w, a.tells n.left l.tag = true → a.tells n.right v.tag = true →
        Kernel.apply r n.op (n.leftTag.resolve l) l (n.rightTag.resolve v) v = .ok w →
          w.tag = Tag.ofTy n.egress)
      (decided : n.op = .and ∨ n.op = .or → Tag.ofTy n.egress = .boolean) : Exact scope a id

variable {scope : Scope} {a : Arena} {id : NodeId}

theorem valueTag_of_literal {v : Value} {ty : Ty} (hn : a.node? id = some (.literal v ty)) :
    a.valueTag id = v.tag := by
  rw [valueTag, hn]

theorem valueTag_of_node {node : Node} (hn : a.node? id = some node)
    (other : ∀ v ty, node ≠ .literal v ty) : a.valueTag id = Tag.ofTy (a.egress id) := by
  rw [valueTag, hn]
  cases node with
  | literal v ty => exact absurd rfl (other v ty)
  | _ => rfl

theorem tells_iff {t : Tag} : a.tells id t = true ↔ t = .null ∨ t = a.valueTag id := by
  simp [tells]

theorem tells_of_node {node : Node} (ha : a.Ordered) (hn : a.node? id = some node)
    (other : ∀ v ty, node ≠ .literal v ty) {t : Tag}
    (ht : (typeOf a.egress node).tells t = true) : a.tells id t = true := by
  rw [Ty.tells_iff, ← egress_eq ha hn, ← valueTag_of_node hn other] at ht
  exact tells_iff.mpr ht

/-- What a node tells of its values its type tells as well. -/
theorem Exact.egress_tells (h : a.Exact scope id) (ha : a.Ordered) {t : Tag}
    (ht : a.tells id t = true) : (a.egress id).tells t = true := by
  rw [Ty.tells_iff]
  rcases tells_iff.mp ht with rfl | rfl
  · exact .inl rfl
  · cases h with
    | literal node told =>
      rw [valueTag_of_literal node, egress_eq ha node]
      exact Ty.tells_iff.mp told
    | named node | group node | unary node | binary node =>
      exact .inr (valueTag_of_node node (by simp))

theorem Exact.tag_eq (h : a.Exact scope id) (ha : a.Ordered) {t : Tag}
    (ht : a.tells id t = true) (hnull : t ≠ .null) :
    t = a.valueTag id ∧ t = Tag.ofTy (a.egress id) :=
  ⟨(tells_iff.mp ht).resolve_left hnull,
    (Ty.tells_iff.mp (h.egress_tells ha ht)).resolve_left hnull⟩

theorem Exact.of_mem_order (h : a.Exact scope id) (ha : a.Ordered) {x : NodeId}
    (hx : x ∈ a.order id) : a.Exact scope x := by
  induction h with
  | literal node told =>
    rw [order_eq ha node] at hx
    obtain rfl : x = _ := by simpa [Node.operands] using hx
    exact .literal node told
  | named node declared =>
    rw [order_eq ha node] at hx
    obtain rfl : x = _ := by simpa [Node.operands] using hx
    exact .named node declared
  | group node below ih =>
    rw [order_eq ha node] at hx
    simp only [Node.operands, List.flatMap_singleton, List.mem_cons] at hx
    rcases hx with rfl | hx
    · exact .group node below
    · exact ih hx
  | unary node below yields ih =>
    rw [order_eq ha node] at hx
    simp only [Node.operands, List.flatMap_singleton, List.mem_cons] at hx
    rcases hx with rfl | hx
    · exact .unary node below yields
    · exact ih hx
  | binary node left right yields decided ihl ihr =>
    rw [order_eq ha node] at hx
    simp only [Node.operands, List.flatMap_cons, List.flatMap_nil, List.append_nil,
      List.mem_cons, List.mem_append] at hx
    rcases hx with rfl | hx | hx
    · exact .binary node left right yields decided
    · exact ihl hx
    · exact ihr hx

end Arena

/-- The bindings give every name in scope a value that its type tells. -/
def Bindings.Tells (b : Bindings) (scope : Scope) : Prop :=
  ∀ name ty v, scope.lookup? name = some ty → b.get? name = some v → ty.tells v.tag = true

theorem Bindings.Tells.set {b : Bindings} {scope : Scope} (h : b.Tells scope) {name : String}
    {ty : Ty} {v : Value} (hv : ty.tells v.tag = true) :
    (b.set name v).Tells (scope.declare name ty) := by
  intro other ty' v' hty' hv'
  rcases Bindings.bound_anew hty' hv' with ⟨rfl, rfl⟩ | ⟨hty', hv'⟩
  · exact hv
  · exact h other ty' v' hty' hv'

namespace Evaluation

open Arena

variable {s : Evaluation} {scope : Scope}

theorem Answer.Within.mono {r : Answer} {b : Bindings} {tags tags' : Tag → Bool}
    (h : r.Within b tags) (sub : ∀ t, tags t = true → tags' t = true) : r.Within b tags' :=
  ⟨h.bindings, fun v hv => sub _ (h.mem v hv)⟩

/-- A node has values that it tells, and leaves the bindings. -/
theorem valueAt_exact {id : NodeId} (h : s.arena.Exact scope id) (ha : s.arena.Ordered)
    {b : Bindings} (hb : b.Tells scope) (depth : Nat) :
    (s.valueAt id depth b).Within b (s.arena.tells id) := by
  -- Over the tree; a node that lies too deep has an error, which tells nothing.
  induction h generalizing depth with
  | literal node =>
    by_cases hd : depth < s.maxDepth
    · rw [valueAt_literal hd node]
      exact .ok (tells_iff.mpr (.inr (valueTag_of_literal node).symm))
    · rw [valueAt_deep hd]
      exact .error
  | @named id name ty node declared =>
    by_cases hd : depth < s.maxDepth
    · rw [valueAt_variable hd node]
      cases hv : b.get? name with
      | some v => exact .ok (tells_of_node ha node (by simp) (hb name ty v declared hv))
      | none => exact .error
    · rw [valueAt_deep hd]
      exact .error
  | group node below ih =>
    by_cases hd : depth < s.maxDepth
    · rw [valueAt_group hd node]
      exact (ih (depth + 1)).mono fun t ht =>
        tells_of_node ha node (by simp) (below.egress_tells ha ht)
    · rw [valueAt_deep hd]
      exact .error
  | unary node below yields ih =>
    by_cases hd : depth < s.maxDepth
    · rw [valueAt_unary hd node]
      refine ((ih (depth + 1)).andThen fun v hv => ⟨rfl, rfl, fun w hw => ?_⟩).2
      have tag := yields v w (below.egress_tells ha hv) (located_ok hw)
      exact tells_of_node ha node (by simp) (Ty.tells_iff.mpr (.inr tag))
    · rw [valueAt_deep hd]
      exact .error
  | @binary id n node left right yields conclusive ihl ihr =>
    by_cases hd : depth < s.maxDepth
    · cases hm : s.mode with
      | interpreted =>
        rw [valueAt_interpreted hd node hm]
        exact .error
      | accelerated =>
        have told {t : Tag} (ht : t = Tag.ofTy n.egress) : s.arena.tells id t = true :=
          tells_of_node ha node (by simp) (Ty.tells_iff.mpr (.inr ht))
        rw [valueAt_binary hd node hm]
        refine ((ihl (depth + 1)).andThen fun l hl => ⟨rfl, ?_⟩).2
        by_cases hdec : decided n.op (some l) = true
        · simp only [if_pos hdec]
          obtain ⟨hop, htag⟩ := boolean_of_decided hdec
          exact .ok (told (htag.trans (conclusive hop).symm))
        · simp only [if_neg hdec]
          refine ((ihr (depth + 1)).andThen fun r hr => ⟨rfl, rfl, fun w hw => ?_⟩).2
          exact told (yields s.conversions l r w hl hr (located_ok hw))
    · rw [valueAt_deep hd]
      exact .error

theorem egress_tells {id : NodeId} (h : s.arena.Exact scope id) (ha : s.arena.Ordered)
    {b b' : Bindings} (hb : b.Tells scope) {depth : Nat} {v : Value}
    (hv : s.valueAt id depth b = (.ok v, b')) :
    b' = b ∧ (s.arena.egress id).tells v.tag = true := by
  have within := valueAt_exact h ha hb depth
  rw [hv] at within
  exact ⟨within.bindings, h.egress_tells ha (within.mem v rfl)⟩

/-! ## Statements -/

/-- Statements of which the types of all nodes tell the tags of their values. -/
inductive Exact (a : Arena) : Scope → List NodeId → Prop
  | nil {scope : Scope} : Exact a scope []
  | value {scope : Scope} {id : NodeId} {rest : List NodeId} (here : a.Exact scope id)
      (later : Exact a scope rest) : Exact a scope (id :: rest)
  | assign {scope : Scope} {id value : NodeId} {name : String} {rest : List NodeId}
      (node : a.node? id = some (.assign name value (a.egress value)))
      (here : a.Exact scope value) (later : Exact a (scope.declare name (a.egress value)) rest) :
      Exact a scope (id :: rest)

theorem Answer.andThen_ok {r : Answer} {next : Value → Bindings → Answer} {v : Value}
    {b : Bindings} (h : r.andThen next = (.ok v, b)) :
    ∃ u b', r = (.ok u, b') ∧ next u b' = (.ok v, b) := by
  obtain ⟨e | u, b'⟩ := r
  · simp [Answer.andThen] at h
  · exact ⟨u, b', rfl, h⟩

theorem valueAt_assign_ok {id value : NodeId} {name : String} {ty : Ty} {depth : Nat}
    {b b' : Bindings} {v : Value} (node : s.arena.node? id = some (.assign name value ty))
    (h : s.valueAt id depth b = (.ok v, b')) :
    ∃ b₁, s.valueAt value (depth + 1) b = (.ok v, b₁) ∧ b' = b₁.set name v := by
  by_cases hd : depth < s.maxDepth
  · rw [valueAt_assign hd node] at h
    obtain ⟨u, b₁, hu, h⟩ := Answer.andThen_ok h
    obtain ⟨hv, rfl⟩ := Prod.mk.inj h
    obtain rfl := Except.ok.inj hv
    exact ⟨b₁, hu, rfl⟩
  · rw [valueAt_deep hd] at h
    simp at h

/-- A statement that is begun is an expression or the assignment of one, with bindings that its
scope tells. -/
theorem Exact.of_comes {roots : List NodeId} (h : Exact s.arena scope roots)
    (ha : s.arena.Ordered) {b b' : Bindings} (hb : b.Tells scope) {root : NodeId}
    (comes : s.Comes roots b root b') :
    ∃ scope', b'.Tells scope' ∧ (s.arena.Exact scope' root ∨ ∃ name value,
      s.arena.node? root = some (.assign name value (s.arena.egress value)) ∧
        s.arena.Exact scope' value) := by
  induction comes generalizing scope with
  | here =>
    cases h with
    | value here => exact ⟨scope, hb, .inl here⟩
    | assign node here => exact ⟨scope, hb, .inr ⟨_, _, node, here⟩⟩
  | later done _ ih =>
    rw [eval_eq_valueAt] at done
    cases h with
    | value here later =>
      obtain ⟨rfl, -⟩ := egress_tells here ha hb done
      exact ih later hb
    | assign node here later =>
      obtain ⟨b₁, hv, rfl⟩ := valueAt_assign_ok node done
      obtain ⟨rfl, told⟩ := egress_tells here ha hb hv
      exact ih later (hb.set told)

/-- In a statement that is begun the type of every node tells the tag of its value. -/
theorem Exact.tells {roots : List NodeId} (h : Exact s.arena scope roots) (ha : s.arena.Ordered)
    {b b' : Bindings} (hb : b.Tells scope) {root : NodeId} (comes : s.Comes roots b root b')
    {id : NodeId} (hid : id ∈ s.arena.order root) {depth : Nat} {v : Value} {b'' : Bindings}
    (hv : s.valueAt id depth b' = (.ok v, b'')) : (s.arena.egress id).tells v.tag = true := by
  obtain ⟨scope', hb', here | ⟨name, value, node, here⟩⟩ := h.of_comes ha hb comes
  · exact (egress_tells (here.of_mem_order ha hid) ha hb' hv).2
  · rw [order_eq ha node] at hid
    simp only [Node.operands, List.flatMap_singleton, List.mem_cons] at hid
    rcases hid with rfl | hid
    · obtain ⟨b₁, hv, -⟩ := valueAt_assign_ok node hv
      rw [egress_eq ha node]
      exact (egress_tells here ha hb' hv).2
    · exact (egress_tells (here.of_mem_order ha hid) ha hb' hv).2

theorem evalFrom_ok {roots : List NodeId} {last v : Value} {b b' : Bindings}
    (h : s.evalFrom last roots b = (.ok v, b')) :
    (roots = [] ∧ v = last) ∨ ∃ root b₁, roots.getLast? = some root ∧ s.Comes roots b root b₁ ∧
      s.valueAt root 0 b₁ = (.ok v, b') := by
  induction roots generalizing last b with
  | nil =>
    obtain ⟨hv, -⟩ := Prod.mk.inj h
    exact .inl ⟨rfl, (Except.ok.inj hv).symm⟩
  | cons id rest ih =>
    rw [evalFrom_cons] at h
    obtain ⟨u, b₂, hu, h⟩ := Answer.andThen_ok h
    right
    rcases ih h with ⟨rfl, rfl⟩ | ⟨root, b₁, hroot, comes, hv⟩
    · obtain ⟨-, rfl⟩ := Prod.mk.inj h
      exact ⟨id, b, rfl, .here, hu⟩
    · refine ⟨root, b₁, ?_, .later (by rw [eval_eq_valueAt, hu]) comes, hv⟩
      rw [List.getLast?_cons, hroot]
      rfl

end Evaluation

end Scriptlet
