import Scriptlet.Proofs.Node.RightSpine

/-!
# Operand tags

An operation on an arena changes no node but for the right operand of a binary operation, which is
nothing that a type depends on. So nodes keep their types through every history, and a tag that was
true of an operand when it was stored is true of it ever after.
-/
namespace Scriptlet

namespace Operation

/-- The arena that a history of operations makes of the empty one, failed ones among them. -/
def after (history : List Operation) : Arena :=
  history.foldl (fun a o => (o.outcome a).2) .empty

theorem after_append (past later : List Operation) :
    after (past ++ later) = later.foldl (fun a o => (o.outcome a).2) (after past) :=
  List.foldl_append

end Operation

/-- The second node is the first one, or the same operation with another right operand. -/
inductive Node.Regrafted : Node → Node → Prop
  | same (node : Node) : Regrafted node node
  | right (b : BinaryNode) (n : NodeId) (tag : OperandTag) :
      Regrafted (.binary b) (.binary { b with right := n, rightTag := tag })

theorem Node.Regrafted.trans {n₁ n₂ n₃ : Node} (h : n₁.Regrafted n₂) (k : n₂.Regrafted n₃) :
    n₁.Regrafted n₃ := by
  cases h with
  | same => exact k
  | right b =>
    cases k with
    | same => exact .right ..
    | right => exact .right b _ _

namespace Arena

/-- All nodes are kept but for the right operands of operations. -/
def Keeps (a a' : Arena) : Prop :=
  ∀ id node, a.node? id = some node → ∃ node', a'.node? id = some node' ∧ node.Regrafted node'

/-- Every group has something in it. -/
def Filled (a : Arena) : Prop :=
  ∀ id inner, a.node? id = some (.group inner) → (a.node? inner).isSome

/-- The tag leaves it open, or it is the tag of the type that the node has. -/
def Promises (a : Arena) (tag : OperandTag) (x : NodeId) : Prop :=
  tag = none ∨ ∃ ty, a.HasType x ty ∧ tag = OperandTag.ofTy ty

/-- The tags of an operation are true of its operands. -/
structure Truthful (a : Arena) (b : BinaryNode) : Prop where
  left : a.Promises b.leftTag b.left
  right : a.Promises b.rightTag b.right

/-- The tags of all operations are true of their operands. -/
def TagsTrue (a : Arena) : Prop := ∀ id b, a.node? id = some (.binary b) → a.Truthful b

variable {a a' a'' : Arena} {id x n t left right : NodeId} {ty : Ty} {tag : OperandTag}
  {b : BinaryNode} {ctx : BuildContext} {op : Operator}

/-! ## What is kept -/

theorem Keeps.refl (a : Arena) : a.Keeps a := fun _ node hn => ⟨node, hn, .same node⟩

theorem Keeps.trans (h : a.Keeps a') (k : a'.Keeps a'') : a.Keeps a'' := by
  intro id node hn
  obtain ⟨node', hn', kept⟩ := h id node hn
  obtain ⟨node'', hn'', kept'⟩ := k id node' hn'
  exact ⟨node'', hn'', kept.trans kept'⟩

theorem Grows.keeps (h : a.Grows a') : a.Keeps a' :=
  fun _ node hn => ⟨node, h.node? hn, .same node⟩

theorem keeps_graft (hb : a.binary? t = some b) :
    a.Keeps (a.setNode t (.binary { b with right := n, rightTag := tag })) := by
  intro id node hn
  by_cases hid : t = id
  · subst hid
    obtain rfl := Option.some.inj (hn.symm.trans (node?_of_binary? hb))
    exact ⟨_, by rw [node?_setNode, if_pos rfl, hn]; rfl, .right b n tag⟩
  · exact ⟨node, by rw [node?_setNode, if_neg hid, hn], .same node⟩

/-- A type is kept, since no right operand takes part in it. -/
theorem HasType.keep (h : a.HasType id ty) (keeps : a.Keeps a') : a'.HasType id ty := by
  induction h with
  | @own id node stands single =>
    obtain ⟨node', stands', kept⟩ := keeps id node stands
    cases kept with
    | same =>
      have typed := HasType.own stands' single
      cases node <;> first | exact typed | exact absurd rfl (single _)
    | right b n tag => exact .own stands' (by simp)
  | @group id inner ty stands _ ih =>
    -- A group has no right operand, so it is the same.
    obtain ⟨node', stands', kept⟩ := keeps id _ stands
    cases kept
    exact .group stands' ih

theorem Promises.keep (h : a.Promises tag x) (keeps : a.Keeps a') : a'.Promises tag x :=
  h.imp_right fun ⟨ty, typed, eq⟩ => ⟨ty, typed.keep keeps, eq⟩

theorem Truthful.keep (h : a.Truthful b) (keeps : a.Keeps a') : a'.Truthful b :=
  ⟨h.left.keep keeps, h.right.keep keeps⟩

/-! ## Types that are found -/

/-- Where nothing is found the answer is the type of null. -/
theorem hasType_of_egressWithin {depth : Nat} (found : a.egressWithin depth id ≠ .null) :
    a.HasType id (a.egressWithin depth id) := by
  induction depth generalizing id with
  | zero => exact absurd rfl found
  | succ depth ih =>
    cases hn : a.node? id with
    | none => exact absurd (by rw [egressWithin, hn]) found
    | some node =>
      rw [egressWithin, hn] at found ⊢
      cases node with
      | group inner => exact .group hn (ih found)
      | _ => exact .own hn (by simp)

/-- The tag of the type that is found promises nothing false, as that of null leaves it open. -/
theorem promises_egress (a : Arena) (x : NodeId) :
    a.Promises (OperandTag.ofTy (a.egress x)) x := by
  by_cases found : a.egress x = .null
  · exact .inl (by rw [found]; rfl)
  · exact .inr ⟨_, hasType_of_egressWithin found, rfl⟩

theorem Shallow.egressWithin_eq {height : Nat} (h : a.Shallow height id)
    (typed : a.HasType id ty) : a.egressWithin height id = ty := by
  induction typed generalizing height with
  | @own id node stands single =>
    cases height with
    | zero => exact absurd (stands.symm.trans h) (by simp)
    | succ height =>
      rw [egressWithin, stands]
      cases node with
      | group inner => exact absurd rfl (single inner)
      | _ => rfl
  | @group id inner ty stands _ ih =>
    cases height with
    | zero => exact absurd (stands.symm.trans h) (by simp)
    | succ height =>
      rw [egressWithin, stands]
      exact ih (h.operand stands (by simp [Node.operands]))

/-- The type of a node is found if no cycle can be reached from it. -/
theorem Grounded.egress_eq (h : a.Grounded id) (typed : a.HasType id ty) : a.egress id = ty :=
  h.shallow.egressWithin_eq typed

theorem Shallow.hasType {height : Nat} (h : a.Shallow height id) (filled : a.Filled)
    (present : (a.node? id).isSome) : a.HasType id (a.egressWithin height id) := by
  obtain ⟨node, hn⟩ := Option.isSome_iff_exists.mp present
  induction height generalizing id node with
  | zero => exact absurd (hn.symm.trans h) (by simp)
  | succ height ih =>
    rw [egressWithin, hn]
    cases node with
    | group inner =>
      have within := filled id inner hn
      obtain ⟨node, hinner⟩ := Option.isSome_iff_exists.mp within
      exact .group hn (ih (h.operand hn (by simp [Node.operands])) within node hinner)
    | _ => exact .own hn (by simp)

/-! ## Tags of new operations -/

theorem tagsTrue_empty : Arena.empty.TagsTrue := by
  intro id b hn
  simp [node?, cell?, Arena.empty] at hn

theorem TagsTrue.push (h : a.TagsTrue) {node : Node} (span : Option Span)
    (truthful : ∀ b, node = .binary b → a.Truthful b) : (a.push node span).2.TagsTrue := by
  have keeps := (a.grows_push node span).keeps
  intro id b hn
  rw [node?, cell?_push] at hn
  split at hn
  · exact (truthful b (Option.some.inj hn)).keep keeps
  · exact (h id b hn).keep keeps

theorem Promises.literalTag (h : a.Promises (OperandTag.ofTy ty) x) :
    a.Promises (a.literalTag x ty) x := by
  unfold Arena.literalTag
  split
  · exact h
  · exact .inl rfl

theorem TagsTrue.pushBinary (h : a.TagsTrue) {leftTy rightTy egress : Ty} (span : Option Span)
    (ofLeft : a.Promises (OperandTag.ofTy leftTy) left)
    (ofRight : a.Promises (OperandTag.ofTy rightTy) right) :
    (a.pushBinary op left right egress leftTy rightTy span).2.TagsTrue := by
  refine h.push span fun b hb => ?_
  obtain rfl := Node.binary.inj hb
  by_cases same : leftTy = rightTy
  · subst same
    simp only [↓reduceIte]
    exact ⟨ofLeft, ofRight⟩
  · simp only [if_neg same]
    exact ⟨ofLeft.literalTag, ofRight.literalTag⟩

/-- Each way to join two operands stores tags that are true of them. -/
theorem Joined.tagsTrue {r : NodeId × Arena} (joined : a.Joined ctx op left right r)
    (h : a.TagsTrue) : r.2.TagsTrue := by
  have ofLeft := a.promises_egress left
  have ofRight := a.promises_egress right
  cases joined with
  | concat =>
    refine h.push _ fun b hb => ?_
    obtain rfl := Node.binary.inj hb
    exact ⟨ofLeft, ofRight⟩
  | plain => exact h.pushBinary _ ofLeft ofRight
  | @converted value v ty target _ _ _ _ conversion =>
    -- The right operand is the new literal, whose type is the target.
    let literal := a.push (.literal (v.heldBy ⟨a.size⟩) target) (a.span? right)
    have typed : literal.2.HasType ⟨a.size⟩ target := .own (a.node?_push _ _) (by simp)
    exact (h.push _ (by simp)).pushBinary _ (ofLeft.keep (a.grows_push _ _).keeps)
      (.inr ⟨target, typed, rfl⟩)

theorem TagsTrue.graft (h : a.TagsTrue) (hb : a.binary? t = some b)
    (promised : a.Promises tag n) :
    (a.setNode t (.binary { b with right := n, rightTag := tag })).TagsTrue := by
  have keeps : a.Keeps (a.setNode t (.binary { b with right := n, rightTag := tag })) :=
    keeps_graft hb
  intro id b' hn
  rw [node?_setNode] at hn
  split at hn
  · obtain ⟨_, _, eq⟩ := Option.map_eq_some_iff.mp hn
    obtain rfl := Node.binary.inj eq
    exact ⟨(h t b (node?_of_binary? hb)).left.keep keeps, promised.keep keeps⟩
  · exact (h id b' hn).keep keeps

end Arena

/-! ## Histories -/

namespace Operation

open Arena

variable {a : Arena}

theorem keeps_outcome (a : Arena) (o : Operation) : a.Keeps (o.outcome a).2 := by
  have does := o.does_outcome a
  generalize (o.outcome a).1 = id, (o.outcome a).2 = a' at does
  cases does with
  | fails => exact .refl a
  | pushes node span => exact (a.grows_push node span).keeps
  | converts span span' =>
    exact ((a.grows_push _ span).trans (grows_push _ _ span')).keeps
  | grafts _ node => exact keeps_graft node

theorem tagsTrue_outcome (h : a.TagsTrue) (o : Operation) : (o.outcome a).2.TagsTrue := by
  have replaced {t n : NodeId} {a' : Arena} (done : a.replaceRight t n = .ok a') :
      a'.TagsTrue := by
    obtain ⟨b, hb, -, rfl⟩ := replaceRight_cases done
    exact h.graft hb (a.promises_egress n)
  cases o with
  | literal | reference | group | unary | assign => exact h.push _ (by simp)
  | binary ctx op left right =>
    simp only [outcome, perform]
    cases built : a.buildBinary ctx op left right with
    | error e => exact h
    | ok r => exact (joined_of_buildBinary built).tagsTrue h
  | replaceRight parent node =>
    simp only [outcome, perform]
    cases done : a.replaceRight parent node with
    | error e => exact h
    | ok a' => exact replaced done
  | setRightMost root node =>
    simp only [outcome, perform]
    cases done : a.setRightMost root node with
    | error e => exact h
    | ok r => exact replaced (setRightMost_cases done).2

theorem keeps_after (past later : List Operation) :
    (after past).Keeps (after (past ++ later)) := by
  rw [after_append]
  generalize after past = a
  induction later generalizing a with
  | nil => exact .refl a
  | cons o later ih => exact (keeps_outcome a o).trans (ih _)

theorem tagsTrue_after (history : List Operation) : (after history).TagsTrue := by
  have run (later : List Operation) (a : Arena) (h : a.TagsTrue) :
      (later.foldl (fun a o => (o.outcome a).2) a).TagsTrue := by
    induction later generalizing a with
    | nil => exact h
    | cons o later ih => exact ih _ (tagsTrue_outcome h o)
  exact run history .empty tagsTrue_empty

/-- On arenas without cycles the type that is found for a node is the one it has, now and after
all later operations, and every node has one as long as no group is over nothing. A tag that an
operation stores for an operand is open, or the tag of the type that is found for the operand it
has now. -/
theorem types_kept_and_tags_true (past later : List Operation) (acyclic : (after past).Acyclic)
    (acyclicLater : (after (past ++ later)).Acyclic) :
    (∀ id ty, (after past).HasType id ty →
        (after past).egress id = ty ∧ (after (past ++ later)).egress id = ty) ∧
      ((after past).Filled → ∀ id : NodeId, ((after past).node? id).isSome →
        (after past).HasType id ((after past).egress id)) ∧
      ∀ id b, (after past).binary? id = some b →
        (b.leftTag = none ∨ b.leftTag = OperandTag.ofTy ((after past).egress b.left)) ∧
        (b.rightTag = none ∨ b.rightTag = OperandTag.ofTy ((after past).egress b.right)) := by
  have told {tag : OperandTag} {x : NodeId} (promised : (after past).Promises tag x) :
      tag = none ∨ tag = OperandTag.ofTy ((after past).egress x) :=
    promised.imp_right fun ⟨_, typed, eq⟩ => by rw [(acyclic.grounded x).egress_eq typed, eq]
  refine ⟨fun id ty typed => ⟨(acyclic.grounded id).egress_eq typed, ?_⟩,
    fun filled id present => (acyclic.grounded id).shallow.hasType filled present,
    fun id b hb => ?_⟩
  · exact (acyclicLater.grounded id).egress_eq (typed.keep (keeps_after past later))
  · obtain ⟨ofLeft, ofRight⟩ := tagsTrue_after past id b (node?_of_binary? hb)
    exact ⟨told ofLeft, told ofRight⟩

/-- An equation with a literal that was converted, in parentheses, keeps its type when the literal
gives way to a string, and the operation above keeps a true tag for it. -/
theorem types_kept_and_tags_true_group :
    ∃ past later, (after past).Acyclic ∧ (after (past ++ later)).Acyclic ∧
      (after past).binary? ⟨3⟩ =
        some ⟨.eq, ⟨0⟩, ⟨2⟩, .primitive .boolean, some .int, some .int⟩ ∧
      (after (past ++ later)).binary? ⟨3⟩ =
        some ⟨.eq, ⟨0⟩, ⟨1⟩, .primitive .boolean, some .int, some .string⟩ ∧
      (after (past ++ later)).egress ⟨4⟩ = .primitive .boolean := by
  let past : List Operation :=
    [.reference "x" (.primitive .int) none, .literal (.string "5") .string none,
      .binary (strict "") .eq ⟨0⟩ ⟨1⟩, .group ⟨3⟩ none,
      .reference "y" (.boxed .boolean) none, .binary (strict "") .and ⟨4⟩ ⟨5⟩]
  let later : List Operation := [.replaceRight ⟨3⟩ ⟨1⟩]
  have acyclic : (after past).Acyclic :=
    (by decide +kernel : (after past).Ordered).acyclic
  have acyclicLater : (after (past ++ later)).Acyclic :=
    (by decide +kernel : (after (past ++ later)).Ordered).acyclic
  have kept := types_kept_and_tags_true past later acyclic acyclicLater
  have typed : (after past).HasType ⟨4⟩ ((after past).egress ⟨4⟩) :=
    hasType_of_egressWithin (by decide +kernel)
  exact ⟨past, later, acyclic, acyclicLater, by decide +kernel, by decide +kernel,
    (kept.1 ⟨4⟩ _ typed).2.trans (by decide +kernel)⟩

end Operation

end Scriptlet
