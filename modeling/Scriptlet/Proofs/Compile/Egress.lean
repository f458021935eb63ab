import Scriptlet.Proofs.Compile.Strong
import Scriptlet.Proofs.Eval.Exact
import Scriptlet.Proofs.Kind.Judged

/-!
# Sound types

Under strong typing the type of a node tells the tag of each of its values that is not null, as
long as no operation of the program misjudges its operands.
-/
namespace Scriptlet

namespace Arena

/-- The type of the operation does not misjudge its operands, and what stands for an object is
one. -/
def judges (a : Arena) : Node → Bool
  | .binary n => !n.op.misjudges (Tag.ofTy n.egress) (a.valueTag n.left) (a.valueTag n.right)
  | .literal v (.hostClass _) => v.tag == .null || v.tag == .object
  | _ => true

/-- No operation misjudges its operands. -/
def judged (a : Arena) : Bool := a.cells.all fun c => a.judges c.node

theorem judges_of_judged {a : Arena} (h : a.judged = true) {id : NodeId} {node : Node}
    (hn : a.node? id = some node) : a.judges node = true := by
  obtain ⟨c, hc, rfl⟩ := Option.map_eq_some_iff.mp hn
  exact Array.all_eq_true_iff_forall_mem.mp h c (Array.mem_of_getElem? hc)

end Arena

namespace Ty

theorem arithmeticResult_ne_any {lty rty : Ty} (hl : lty ≠ .any) (hr : rty ≠ .any) :
    arithmeticResult lty rty ≠ .any := by
  have known : ¬ (lty = .any ∨ rty = .any) := by simp [hl, hr]
  rw [arithmeticResult, if_neg known]
  split
  · rename_i t ht
    split
    · exact hl
    · split
      · exact hr
      · intro hany
        obtain ⟨-, -, number⟩ := Tag.numeric_of_widen ht
        cases t <;> contradiction
  · split
    · exact hr
    · exact hl

theorem literalTy_ne_any {op : Operator} {lty rty : Ty}
    (other : ¬ (op = .add ∧ (lty = .string ∨ rty = .string))) (hl : lty ≠ .any)
    (hr : rty ≠ .any) : op.literalTy lty rty ≠ .any := by
  by_cases ha : op.isArithmetic = true
  · rw [Operator.literalTy, if_pos ha, Operator.resultTy_arithmetic ha other]
    exact arithmeticResult_ne_any hl hr
  · rwa [Operator.literalTy, if_neg ha]

end Ty

/-- A conversion makes null or a value of the type, if a handler makes objects. -/
theorem ConversionRegistry.tells_convert {r : ConversionRegistry} {v w : Value} {target : Ty}
    (h : r.convert v target = .ok w) (known : target ≠ .any)
    (object : ∀ c, target = .hostClass c → w.tag = .null ∨ w.tag = .object) :
    target.tells w.tag = true := by
  rw [Ty.tells_iff]
  by_cases hv : v.isNull = true
  · left
    unfold convert at h
    rw [if_pos hv] at h
    split at h
    · contradiction
    · obtain rfl := Except.ok.inj h
      rfl
  · have hv : v.isNull = false := by simpa using hv
    have built (hk : (OperandTag.ofTy target).isSome) : w.tag = Tag.ofTy target :=
      tag_convert h hv hk
    cases target with
    | any => exact absurd rfl known
    | primitive p => exact .inr (built (by cases p <;> rfl))
    | boxed p => exact .inr (built (by cases p <;> rfl))
    | bigInteger | bigDecimal | string => exact .inr (built rfl)
    | null =>
      simp [convert, hv] at h
    | hostClass c => exact object c rfl

namespace Arena

variable {ctx : BuildContext} {scope : Scope} {a final : Arena}

theorem fits_of_tells {op : Operator} {tag : OperandTag} {ty : Ty}
    (h : tag = none ∨ tag = OperandTag.ofTy ty) (other : ¬ (op = .add ∧ ty = .string)) {v : Value}
    (hv : ty.tells v.tag = true) : Kernel.Fits op (tag.resolve v) v := by
  by_cases hs : v.tag = .null ∧ ty = .string
  · exact .inr ⟨Value.eq_null_of_tag hs.1, fun hadd => other ⟨hadd.1, hs.2⟩⟩
  · exact fits_of_pushBinary h (Ty.admits_of_tells hv fun hnull hty => hs ⟨hnull, hty⟩)

theorem liveTag_string {v : Value} (h : Ty.string.tells v.tag = true) :
    Kernel.liveTag .string v = .string := by
  rcases Ty.tells_iff.mp h with hnull | hs
  · obtain rfl := Value.eq_null_of_tag hnull
    rfl
  · have hs : v.tag = .string := hs
    simp [Kernel.liveTag, hs]

/-- An operation that does not misjudge its operands, given that it is right on values of their
types. -/
theorem Exact.of_operation {n : BinaryNode} {id : NodeId} (node : a.node? id = some (.binary n))
    (ha : a.Ordered) (judged : a.judged = true) (left : a.Exact scope n.left)
    (right : a.Exact scope n.right)
    (leftTag : n.leftTag = none ∨ n.leftTag = OperandTag.ofTy (a.egress n.left))
    (rightTag : n.rightTag = none ∨ n.rightTag = OperandTag.ofTy (a.egress n.right))
    (other : ¬ (n.op = .add ∧ (a.egress n.left = .string ∨ a.egress n.right = .string)))
    (yields : ∀ w, n.op.yieldedTag? (Tag.ofTy (a.egress n.left)) (Tag.ofTy (a.egress n.right)) =
        some w → n.op.misjudges (Tag.ofTy n.egress) (Tag.ofTy (a.egress n.left))
          (Tag.ofTy (a.egress n.right)) = false → w = Tag.ofTy n.egress)
    (boolean : n.op.isArithmetic = false → n.op.isBitwise = false →
      n.egress = .primitive .boolean) : a.Exact scope id := by
  refine .binary node left right (fun r l v w hl hv hw => ?_) fun hop => ?_
  · have typedLeft := left.egress_tells ha hl
    have typedRight := right.egress_tells ha hv
    rw [Kernel.apply_eq_applyOwn r
      (fits_of_tells leftTag (fun h => other ⟨h.1, .inl h.2⟩) typedLeft)
      (fits_of_tells rightTag (fun h => other ⟨h.1, .inr h.2⟩) typedRight)] at hw
    have result := Kernel.yieldedTag?_applyOwn hw
    by_cases hop : n.op.isArithmetic = true ∨ n.op.isBitwise = true
    · -- No operand is null here, so both have the tags of their types.
      have noConcat : ¬ (n.op = .add ∧ (l.tag = .string ∨ v.tag = .string)) := by
        rintro ⟨hadd, hs⟩
        refine other ⟨hadd, hs.imp (fun hs => ?_) fun hs => ?_⟩
        · rw [hs, Ty.tells_iff] at typedLeft
          exact Tag.ofTy_eq_string.mp (typedLeft.resolve_left (by simp)).symm
        · rw [hs, Ty.tells_iff] at typedRight
          exact Tag.ofTy_eq_string.mp (typedRight.resolve_left (by simp)).symm
      obtain ⟨presentLeft, presentRight⟩ :=
        Operator.not_null_of_yieldedTag? noConcat result hop
      obtain ⟨ownLeft, tagLeft⟩ := left.tag_eq ha hl presentLeft
      obtain ⟨ownRight, tagRight⟩ := right.tag_eq ha hv presentRight
      have judges := judges_of_judged judged node
      simp only [Arena.judges, ← ownLeft, ← ownRight, Bool.not_eq_true'] at judges
      rw [tagLeft, tagRight] at judges result
      exact yields _ result judges
    · simp only [not_or, Bool.not_eq_true] at hop
      rw [boolean hop.1 hop.2]
      exact Operator.boolean_of_yieldedTag? hop.1 hop.2 result
  · rcases hop with hop | hop <;> rw [boolean (by rw [hop]; rfl) (by rw [hop]; rfl)] <;> rfl

/-- A sum with a string is a string: its tags are known, even of nulls. -/
theorem Exact.of_concat {left right id : NodeId} {lty rty : Ty} (ha : a.Ordered)
    (node : a.node? id = some (.binary
      ⟨.add, left, right, .string, OperandTag.ofTy lty, OperandTag.ofTy rty⟩))
    (exactLeft : a.Exact scope left) (exactRight : a.Exact scope right)
    (egressLeft : a.egress left = lty) (egressRight : a.egress right = rty)
    (string : lty = .string ∨ rty = .string) : a.Exact scope id := by
  refine .binary node exactLeft exactRight (fun r l v w hl hv hw => ?_) (by simp)
  have typedLeft := exactLeft.egress_tells ha hl
  have typedRight := exactRight.egress_tells ha hv
  rw [egressLeft] at typedLeft
  rw [egressRight] at typedRight
  have live : Kernel.liveTag ((OperandTag.ofTy lty).resolve l) l = .string ∨
      Kernel.liveTag ((OperandTag.ofTy rty).resolve v) v = .string := by
    rcases string with rfl | rfl
    · exact .inl (liveTag_string typedLeft)
    · exact .inr (liveTag_string typedRight)
  rw [Kernel.apply, Kernel.applyLive_string r ⟨rfl, live⟩] at hw
  obtain rfl := Except.ok.inj hw
  rfl

theorem not_assignable_of_converted {op : Operator} {right : NodeId} {lty rty target : Ty}
    (h : a.rightOperand ctx op right lty rty = .converted target) :
    lty.assignableFrom rty = false := by
  unfold rightOperand at h
  split at h
  · contradiction
  · rename_i hassign
    simp only [Bool.or_eq_true, not_or, Bool.not_eq_true] at hassign
    exact hassign.1

/-- The universal type takes every literal as it is. -/
theorem ne_any_of_converted {op : Operator} {right : NodeId} {lty target : Ty} {v : Value}
    (h : a.rightOperand ctx op right lty v.ty = .converted target) : lty ≠ .any ∧ v.ty ≠ .any := by
  constructor
  · rintro rfl
    have := not_assignable_of_converted h
    cases v <;> contradiction
  · cases v <;> simp [Value.ty]

/-- An operation whose literal was converted, of the type that it has beside the literal. -/
theorem Exact.of_converted {n : BinaryNode} {id place : NodeId} {lty : Ty} {v w : Value}
    (node : a.node? id = some (.binary n)) (ha : a.Ordered) (judged : a.judged = true)
    (left : a.Exact scope n.left) (egressLeft : a.egress n.left = lty)
    (egress : n.egress = n.op.resultTy lty v.ty)
    (other : ¬ (n.op = .add ∧ (lty = .string ∨ v.ty = .string)))
    (known : lty ≠ .any ∧ v.ty ≠ .any)
    (literal : a.node? n.right = some (.literal (w.heldBy place) (n.op.literalTy lty v.ty)))
    (conversion : ctx.conversions.convert v (n.op.literalTy lty v.ty) = .ok w)
    (leftTag : n.leftTag = none ∨ n.leftTag = OperandTag.ofTy lty)
    (rightTag : n.rightTag = none ∨ n.rightTag = OperandTag.ofTy (n.op.literalTy lty v.ty)) :
    a.Exact scope id := by
  have egressRight : a.egress n.right = n.op.literalTy lty v.ty := egress_eq ha literal
  have told : (n.op.literalTy lty v.ty).tells w.tag = true := by
    refine ConversionRegistry.tells_convert conversion
      (Ty.literalTy_ne_any other known.1 known.2) fun c hc => ?_
    rw [hc] at literal
    have judges := judges_of_judged judged literal
    simpa [Arena.judges, Value.tag_heldBy] using judges
  have right : a.Exact scope n.right := .literal literal (by rwa [Value.tag_heldBy])
  rw [← egressLeft] at leftTag
  rw [← egressRight] at rightTag
  refine .of_operation node ha judged left right leftTag rightTag ?_ ?_
    fun arithmetic bitwise => egress.trans (Operator.resultTy_boolean arithmetic bitwise _ _)
  · rintro ⟨hadd, hs⟩
    rw [egressLeft, egressRight] at hs
    rcases hs with hs | hs
    · exact other ⟨hadd, .inl hs⟩
    · exact ne_add_of_string other hs hadd
  · rw [egressLeft, egressRight, egress]
    exact fun w => Operator.tag_eq_ofTy_of_converted other known.1 known.2

theorem Joined.exact {op : Operator} {left right id : NodeId} {a' : Arena}
    (h : a.Joined ctx op left right (id, a')) (ha : a.Ordered) (hfinal : final.Ordered)
    (grows : a'.Grows final) (hl : left.index < a.size) (hr : right.index < a.size)
    (own : ∀ v ty, a.node? right = some (.literal v ty) → ty = v.ty)
    (judged : final.judged = true) (exactLeft : final.Exact scope left)
    (exactRight : final.Exact scope right) : final.Exact scope id := by
  have below := h.grows.trans grows
  have egressLeft := below.egress_eq ha hfinal hl
  have egressRight := below.egress_eq ha hfinal hr
  generalize hnext : (id, a') = next at h
  cases h with
  | concat plus string =>
    obtain ⟨rfl, rfl⟩ := Prod.mk.inj hnext
    subst plus
    exact .of_concat hfinal grows.pushed.1 exactLeft exactRight egressLeft egressRight string
  | plain other =>
    obtain ⟨ltag, rtag, hltag, hrtag, hpush⟩ := a.pushBinary_eq op left right
      (op.resultTy (a.egress left) (a.egress right)) (a.egress left) (a.egress right)
      (a.joinedSpan left right)
    rw [hpush] at hnext
    obtain ⟨rfl, rfl⟩ := Prod.mk.inj hnext
    have node := grows.pushed.1
    rw [← egressLeft, ← egressRight] at node other
    rw [← egressLeft] at hltag
    rw [← egressRight] at hrtag
    exact .of_operation node hfinal judged exactLeft exactRight hltag hrtag other
      (fun w => Operator.tag_eq_ofTy other)
      fun arithmetic bitwise => Operator.resultTy_boolean arithmetic bitwise _ _
  | @converted value v ty target other strong replaced literal conversion =>
    obtain rfl := target_of_converted replaced
    obtain rfl := own value ty literal
    have egressLiteral : a.egress right = value.ty := egress_eq ha literal
    rw [egressLiteral] at other replaced conversion hnext
    generalize hlit : a.push (.literal (v.heldBy ⟨a.size⟩)
      (op.literalTy (a.egress left) value.ty)) (a.span? right) = pushed at hnext
    obtain ⟨ltag, rtag, hltag, hrtag, hpush⟩ := pushed.2.pushBinary_eq op left ⟨a.size⟩
      (op.resultTy (a.egress left) value.ty) (a.egress left)
      (op.literalTy (a.egress left) value.ty) (a.joinedSpan left right)
    rw [hpush] at hnext
    obtain ⟨rfl, rfl⟩ := Prod.mk.inj hnext
    have growsLiteral : pushed.2.Grows final := (pushed.2.grows_push _ _).trans grows
    rw [← hlit] at growsLiteral
    exact .of_converted grows.pushed.1 hfinal judged exactLeft egressLeft rfl other
      (ne_any_of_converted replaced) growsLiteral.pushed.1 conversion hltag hrtag

end Arena

namespace Compile

open Arena

variable {ctx : BuildContext} {scope : Scope} {final : Arena}

theorem tag_applyUnary {op : UnaryOp} {ty : Ty} {v w : Value} (accepted : accepts op ty = true)
    (h : ty.tells v.tag = true) (hw : Kernel.applyUnary op v = .ok w) :
    w.tag = Tag.ofTy (unaryTy op ty) := by
  unfold Kernel.applyUnary at hw
  cases op with
  | neg =>
    simp only at hw
    split at hw
    · rename_i u hu
      obtain rfl := Except.ok.inj hw
      rw [unaryTy]
      rcases Ty.tells_iff.mp h with hnull | htag
      · obtain rfl := Value.eq_null_of_tag hnull
        contradiction
      · rw [← htag]
        have notChar : v.tag ≠ .char := by
          intro hchar
          rw [hchar] at htag
          simp only [accepts, Bool.or_eq_true, beq_iff_eq, Tag.isNumber_eq, ← htag] at accepted
          rcases accepted with number | rfl
          · contradiction
          · contradiction
        cases v <;> first | contradiction | (obtain rfl := Option.some.inj hu; rfl)
    · contradiction
  | not =>
    simp only at hw
    split at hw
    · rename_i u hu
      obtain rfl := Except.ok.inj hw
      cases v <;> first | contradiction | (obtain rfl := Option.some.inj hu; rfl)
    · contradiction

/-- A literal that is a whole formula has its own type. -/
theorem build_own {f : Formula} {a a' : Arena} {id : NodeId} (ha : a.Ordered)
    (h : f.build ctx scope a = .ok (id, a')) {v : Value} {ty : Ty}
    (hn : a'.node? id = some (.literal v ty)) : ty = v.ty := by
  obtain ⟨j, c, -, matched, -⟩ := build_twin ha .empty h
  exact matched.own v ty ((matched.literal v ty).mp hn)

theorem build_exact {f : Formula} {a a' : Arena} {id : NodeId} (strong : ctx.strongTyping = true)
    (ha : a.Ordered) (h : f.build ctx scope a = .ok (id, a')) (grows : a'.Grows final)
    (hfinal : final.Ordered) (judged : final.judged = true) : final.Exact scope id := by
  induction f generalizing a a' id with
  | leaf l span =>
    rcases compileLeaf_ok h with ⟨v, h⟩ | ⟨name, ty, declared, h⟩ <;>
      obtain ⟨rfl, rfl⟩ := Prod.mk.inj h
    · refine .literal (grows.node? (a.node?_push (.literal v v.ty) (some span))) ?_
      exact Ty.tells_iff.mpr (.inr v.tag_eq_ofTy)
    · refine .named (grows.node? (a.node?_push (.variable name ty) (some span))) ?_
      exact declared.resolve_right (by simp [strong])
  | group inner span ih =>
    obtain ⟨⟨i, a₁⟩, h₁, h⟩ := bind_eq_ok h
    obtain ⟨rfl, rfl⟩ := Prod.mk.inj (Except.ok.inj h)
    exact .group (grows.node? (a₁.node?_push (.group i) (some span)))
      (ih ha h₁ ((a₁.grows_push _ _).trans grows))
  | unary op operand span ih =>
    obtain ⟨⟨i, a₁⟩, h₁, h⟩ := bind_eq_ok h
    have planted := (build_planted ha h₁).2
    rcases compileUnary_ok h with ⟨v, w, ty, -, literal, folded, h⟩ | ⟨-, accepted, h⟩ <;>
      obtain ⟨rfl, rfl⟩ := Prod.mk.inj h
    · obtain rfl : ty = w.ty := (build_own ha h₁ literal).trans (ty_of_negateLiteral folded).symm
      refine .literal (grows.node? (a₁.node?_push (.literal w w.ty) (some span))) ?_
      exact Ty.tells_iff.mpr (.inr w.tag_eq_ofTy)
    · have below := (a₁.grows_push (.unary op i (unaryTy op (a₁.egress i))) (some span)).trans grows
      have egress := below.egress_eq planted.ordered hfinal planted.index_lt
      refine .unary (grows.node? (a₁.node?_push (.unary op i (unaryTy op (a₁.egress i)))
        (some span))) (ih ha h₁ below) fun v w hv hw => ?_
      rw [egress] at hv
      exact tag_applyUnary (accepted strong) hv hw
  | binary op left right ihl ihr =>
    obtain ⟨⟨l, a₁⟩, h₁, h⟩ := bind_eq_ok h
    obtain ⟨⟨r, a₂⟩, h₂, h⟩ := bind_eq_ok h
    have joined := joined_of_buildBinary (ofBuilt_ok h)
    have plantedLeft := (build_planted ha h₁).2
    obtain ⟨growsRight, plantedRight⟩ := build_planted plantedLeft.ordered h₂
    have below := joined.grows.trans grows
    exact joined.exact plantedRight.ordered hfinal grows
      (Nat.lt_of_lt_of_le plantedLeft.index_lt growsRight.size_le) plantedRight.index_lt
      (fun v ty => build_own plantedLeft.ordered h₂) judged
      (ihl ha h₁ (growsRight.trans below)) (ihr plantedLeft.ordered h₂ below)

theorem compileStatements_exact {lines : Option LineIndex} {a : Arena}
    {statements : List Grammar.Statement} {roots : List NodeId} (strong : ctx.strongTyping = true)
    (ha : a.Ordered) (h : compileStatements ctx lines scope a statements = .ok (roots, final))
    (judged : final.judged = true) : Evaluation.Exact final scope roots := by
  refine compileStatements_ind (motive := fun scope _ roots => Evaluation.Exact final scope roots)
    (fun _ => .nil) ?_ ?_ ha h
  · intro scope e rest id roots a a' ha hbuild grows hfinal later
    exact .value (build_exact strong ha hbuild grows hfinal judged) later
  · intro scope name nameSpan value rest id roots a a' ha hbuild grows hfinal later
    have planted := (build_planted ha hbuild).2
    have below := (a'.grows_push _ _).trans grows
    have node := grows.pushed.1
    rw [← below.egress_eq planted.ordered hfinal planted.index_lt] at node later
    exact .assign node (build_exact strong ha hbuild below hfinal judged) later

end Compile

/-- Bindings of declared inputs to values that are not null and have the tags of their types; the
last declaration of a name counts. -/
def Bindings.Typed (b : Bindings) (inputs : List (String × Ty)) : Prop :=
  ∀ name ty v, (Scope.ofInputs inputs).lookup? name = some ty → b.get? name = some v →
    v.isNull = false ∧ v.tag = Tag.ofTy ty

theorem Scope.mem_of_lookup?_foldl {inputs : List (String × Ty)} {scope : Scope} {name : String}
    {ty : Ty} (h : (inputs.foldl (fun s (name, ty) => s.declare name ty) scope).lookup? name =
      some ty) : (name, ty) ∈ inputs ∨ scope.lookup? name = some ty := by
  induction inputs generalizing scope with
  | nil => exact .inr h
  | cons input rest ih =>
    rcases ih h with h | h
    · exact .inl (List.mem_cons_of_mem _ h)
    · rw [Scope.lookup?_declare] at h
      split at h
      · rename_i hname
        obtain rfl := Option.some.inj h
        exact .inl (by simp [hname])
      · exact .inr h

theorem Scope.mem_of_lookup?_ofInputs {inputs : List (String × Ty)} {name : String} {ty : Ty}
    (h : (Scope.ofInputs inputs).lookup? name = some ty) : (name, ty) ∈ inputs :=
  (mem_of_lookup?_foldl h).resolve_right (by simp [Scope.empty, Scope.lookup?])

theorem Bindings.typed_of_all {b : Bindings} {inputs : List (String × Ty)}
    (h : (inputs.all fun input => (b.get? input.1).all fun v =>
      !v.isNull && v.tag == Tag.ofTy input.2) = true) : b.Typed inputs := by
  intro name ty v hty hv
  have := List.all_eq_true.mp h _ (Scope.mem_of_lookup?_ofInputs hty)
  simpa [hv] using this

/-- Under strong typing, and if no operation of the program misjudges its operands, the type of a
node tells the tag of each value that it has while a statement is run, and the type of the program
the tag of its value. -/
theorem egress_sound {ctx : BuildContext} {inputs : List (String × Ty)} {debugSymbols : Bool}
    {limit : Nat} {p : Program} (hp : compile ctx inputs debugSymbols limit = .ok p)
    (strong : ctx.strongTyping = true) (judged : p.arena.judged = true) {s : Evaluation}
    (hs : s.arena = p.arena) {b : Bindings} (hb : b.Typed inputs) :
    (∀ root b', s.Comes p.statements b root b' → ∀ id ∈ p.arena.order root, ∀ depth v b'',
      s.valueAt id depth b' = (.ok v, b'') → v.isNull = false →
        v.tag = Tag.ofTy (p.arena.egress id)) ∧
    ∀ v b', s.evalAll p.statements b = (.ok v, b') → v.isNull = false →
      v.tag = Tag.ofTy p.returnTy := by
  obtain ⟨script, -, h⟩ := compile_ok hp
  obtain ⟨ordered, within, -⟩ := compile_layout hp
  have exact := Compile.compileStatements_exact strong .empty h judged
  have tells : b.Tells (.ofInputs inputs) := fun name ty v hty hv =>
    Ty.tells_iff.mpr (.inr (hb name ty v hty hv).2)
  have present {ty : Ty} {v : Value} (told : ty.tells v.tag = true) (hv : v.isNull = false) :
      v.tag = Tag.ofTy ty := by
    refine (Ty.tells_iff.mp told).resolve_left ?_
    rw [← Value.isNull_iff_tag, hv]
    decide
  rw [← hs] at exact ordered within ⊢
  refine ⟨fun root b' comes id hid depth v b'' hv notNull =>
    present (exact.tells ordered tells comes hid hv) notNull, fun v b' hv notNull => ?_⟩
  rcases Evaluation.evalFrom_ok hv with ⟨-, rfl⟩ | ⟨root, b₁, last, comes, hv⟩
  · contradiction
  · obtain ⟨node, hn⟩ := Arena.node?_isSome (within root comes.mem)
    have here : root ∈ s.arena.order root := by simp [Arena.order_eq ordered hn]
    rw [returnTy_of_compile hp, Compile.returnTy, last, ← hs]
    exact present (exact.tells ordered tells comes here hv) notNull

theorem exists_of_tagOfRun {r : ConversionRegistry} {p : Program} {b : Bindings} {t : Tag}
    (h : tagOfRun r p true b = some t) :
    ∃ v b', Evaluation.evalAll ⟨p.arena, r, 16, .accelerated⟩ p.statements b = (.ok v, b') ∧
      v.tag = t := by
  simp only [tagOfRun, if_true] at h
  split at h
  · rename_i v b' hv
    exact ⟨v, b', hv, Option.some.inj h⟩
  · contradiction

theorem egress_sound_assigned :
    ∃ p, compile (strict "y = x + 1; y * z") [("x", .primitive .int), ("z", .primitive .long)]
        false 128 = .ok p ∧ p.arena.judged = true ∧
      (Bindings.ofList [("x", .int 5), ("z", .long 2)]).Typed
        [("x", .primitive .int), ("z", .primitive .long)] ∧
      p.returnTy = .primitive .long ∧
      ∃ v b, Evaluation.evalAll ⟨p.arena, .empty, 16, .accelerated⟩ p.statements
          (.ofList [("x", .int 5), ("z", .long 2)]) = (.ok v, b) ∧ v.isNull = false ∧
        v.tag = .long := by
  have computed : (compile (strict "y = x + 1; y * z")
      [("x", .primitive .int), ("z", .primitive .long)] false 128).map (fun p =>
        (p.arena.judged, p.returnTy,
          tagOfRun .empty p true (.ofList [("x", .int 5), ("z", .long 2)]))) =
      .ok (true, .primitive .long, some .long) := by
    decide +kernel
  obtain ⟨p, hp, computed⟩ := Kernel.map_eq_ok computed
  simp only [Prod.mk.injEq] at computed
  obtain ⟨judged, type, tag⟩ := computed
  obtain ⟨v, b, hv, htag⟩ := exists_of_tagOfRun tag
  have notNull : v.isNull = false := by
    cases v <;> first | rfl | contradiction
  have typed : (Bindings.ofList [("x", .int 5), ("z", .long 2)]).Typed
      [("x", .primitive .int), ("z", .primitive .long)] :=
    Bindings.typed_of_all rfl
  have sound := (egress_sound hp rfl judged
    (s := ⟨p.arena, .empty, 16, .accelerated⟩) rfl typed).2 v b hv notNull
  rw [type] at sound
  exact ⟨p, hp, judged, typed, type, v, b, hv, notNull, sound⟩

/-- Under strong typing, and with bindings of the declared types, the program has a value of
another tag than that of its type, which is not the universal one. -/
def Untold (ctx : BuildContext) (inputs : List (String × Ty)) (b : Bindings) : Prop :=
  ctx.strongTyping = true ∧ b.Typed inputs ∧ ∃ p v b', compile ctx inputs false 128 = .ok p ∧
    Evaluation.evalAll ⟨p.arena, ctx.conversions, 16, .accelerated⟩ p.statements b = (.ok v, b') ∧
    v.isNull = false ∧ p.returnTy ≠ .any ∧ v.tag ≠ Tag.ofTy p.returnTy

theorem untold_of_tags {ctx : BuildContext} {inputs : List (String × Ty)} {b : Bindings} {t : Tag}
    {u : Ty} (strong : ctx.strongTyping = true) (typed : b.Typed inputs)
    (h : (compile ctx inputs false 128).map (fun p =>
      (tagOfRun ctx.conversions p true b, p.returnTy)) = .ok (some t, u))
    (differs : t ≠ .null ∧ u ≠ .any ∧ t ≠ Tag.ofTy u) : Untold ctx inputs b := by
  obtain ⟨p, hp, h⟩ := Kernel.map_eq_ok h
  obtain ⟨tag, rfl⟩ := Prod.mk.inj h
  obtain ⟨v, b', hv, rfl⟩ := exists_of_tagOfRun tag
  refine ⟨strong, typed, p, v, b', hp, hv, ?_, differs.2⟩
  cases v <;> first | rfl | exact absurd rfl differs.1

/-- An object of the class of words. -/
def word : Value := .object ⟨⟨"Word", []⟩, .given 0, "word"⟩

/-- What is misjudged: a big integer in a bitwise operation, a literal that was `long` before its
conversion, a string literal that becomes a truth value, a character beside a string, a string
literal that becomes a character, and a string that a class has for a literal. -/
theorem egress_unsound :
    Untold (strict "x & 1") [("x", .bigInteger)] (.ofList [("x", .bigInteger 5)]) ∧
      Untold (strict "x & 1L") [("x", .primitive .int)] (.ofList [("x", .int 1)]) ∧
      Untold (strict "b & \"true\"") [("b", .primitive .boolean)]
        (.ofList [("b", .boolean true)]) ∧
      Untold (strict "s - c") [("s", .string), ("c", .primitive .char)]
        (.ofList [("s", .string "5"), ("c", .char 'a')]) ∧
      Untold (strict "c - \"5\"") [("c", .primitive .char)] (.ofList [("c", .char 'a')]) ∧
      Untold { strict "o + true" with
          conversions := ConversionRegistry.empty.register "Word" spellingHandler }
        [("o", .hostClass ⟨"Word", []⟩)] (.ofList [("o", word)]) := by
  refine ⟨untold_of_tags (t := .bigInteger) (u := .primitive .int) rfl
      (Bindings.typed_of_all rfl) ?_ ?_,
    untold_of_tags (t := .int) (u := .primitive .long) rfl (Bindings.typed_of_all rfl) ?_ ?_,
    untold_of_tags (t := .boolean) (u := .primitive .int) rfl (Bindings.typed_of_all rfl) ?_ ?_,
    untold_of_tags (t := .int) (u := .string) rfl (Bindings.typed_of_all rfl) ?_ ?_,
    untold_of_tags (t := .int) (u := .primitive .char) rfl (Bindings.typed_of_all rfl) ?_ ?_,
    untold_of_tags (t := .string) (u := .hostClass ⟨"Word", []⟩) rfl
      (Bindings.typed_of_all rfl) ?_ ?_⟩ <;> decide +kernel

end Scriptlet
