import Scriptlet.Proofs.Compile.Layout
import Scriptlet.Proofs.Conversion.Tags
import Scriptlet.Proofs.Eval.Tagged

/-!
# Types of compiled programs

The static types of a compiled program admit the tags of its values. Under strong typing this
takes that the conversions of literals are `faithful` to the types computed before them.
-/
namespace Scriptlet

namespace Arena

/-- A string that a conversion put in the place of an object. -/
def isSpelledObject (a : Arena) (id : NodeId) : Bool :=
  match a.node? id with
  | some (.literal (.string _) (.hostClass _)) => true
  | _ => false

/-- What conversions of literals can break: a bitwise operation of type `long` has an operand of
such a type itself, and no sum takes a string for an object. -/
def keepsType (a : Arena) : Node → Bool
  | .binary n =>
    (!(n.op.isBitwise && n.egress == .primitive .long) || (a.egress n.left).isWide ||
      (a.egress n.right).isWide) && !(n.op == .add && a.isSpelledObject n.right)
  | _ => true

/-- Conversions of literals kept the types that were computed before them. -/
def faithful (a : Arena) : Bool := a.cells.all fun c => a.keepsType c.node

theorem keepsType_of_faithful {a : Arena} (h : a.faithful = true) {id : NodeId} {node : Node}
    (hn : a.node? id = some node) : a.keepsType node = true := by
  obtain ⟨c, hc, rfl⟩ := Option.map_eq_some_iff.mp hn
  exact Array.all_eq_true_iff_forall_mem.mp h c (Array.mem_of_getElem? hc)

theorem wide_of_faithful {a : Arena} (h : a.faithful = true) {id : NodeId} {n : BinaryNode}
    (hn : a.node? id = some (.binary n)) (hb : n.op.isBitwise = true)
    (hlong : n.egress = .primitive .long) :
    (a.egress n.left).isWide = true ∨ (a.egress n.right).isWide = true := by
  have := keepsType_of_faithful h hn
  simp only [keepsType, hb, hlong, Bool.and_eq_true] at this
  simpa using this.1

theorem ne_add_of_faithful {a : Arena} (h : a.faithful = true) {id : NodeId} {n : BinaryNode}
    {v : Value} {c : ClassType} (hn : a.node? id = some (.binary n))
    (hr : a.node? n.right = some (.literal v (.hostClass c))) (hv : v.tag = .string) :
    n.op ≠ .add := by
  intro hadd
  have spelled : a.isSpelledObject n.right = true := by
    cases v <;> first | contradiction | simp only [isSpelledObject, hr]
  have := keepsType_of_faithful h hn
  simp [keepsType, hadd, spelled] at this

theorem Tagged.of_literal {scope : Scope} {a : Arena} {id : NodeId} {tags : Tag → Bool}
    {v : Value} {ty : Ty} (h : a.Tagged scope id tags) (hn : a.node? id = some (.literal v ty)) :
    tags v.tag = true := by
  cases h with
  | literal node mem =>
    rw [hn] at node
    cases node
    exact mem
  | named node | group node | unary node | binary node =>
    rw [hn] at node
    cases node

end Arena

theorem Value.tag_heldBy (v : Value) (id : NodeId) : (v.heldBy id).tag = v.tag := by
  cases v <;> rfl

theorem Value.heldBy_eq {v : Value} (h : v.tag ≠ .object) (id : NodeId) : v.heldBy id = v := by
  cases v <;> first | rfl | contradiction

namespace Kernel

theorem admits_negate {ty : Ty} {v w : Value} (h : ty.admits v.tag = true)
    (hw : negate? v = some w) : ty.admits w.tag = true := by
  have tags : v.tag.isNumeric = true ∧ Tag.below v.tag w.tag = true := by
    cases v <;> first | contradiction | (obtain rfl := Option.some.inj hw; exact ⟨rfl, rfl⟩)
  exact Ty.admits_above h tags.1 tags.2

end Kernel

namespace Arena

variable {ctx : BuildContext} {scope : Scope} {a final : Arena}

theorem fits_of_pushBinary {op : Operator} {tag : OperandTag} {ty : Ty}
    (h : tag = none ∨ tag = OperandTag.ofTy ty) {v : Value} (hv : ty.admits v.tag = true) :
    Kernel.Fits op (tag.resolve v) v := by
  rcases h with rfl | rfl
  · exact Kernel.fits_own op v
  · exact Kernel.fits_of_admits op hv

theorem literalTag_cases (a : Arena) (id : NodeId) (ty : Ty) :
    a.literalTag id ty = none ∨ a.literalTag id ty = OperandTag.ofTy ty := by
  unfold literalTag
  split
  · exact .inr rfl
  · exact .inl rfl

/-- The node of an operation: equal operand types are both known, others for literals. -/
theorem pushBinary_eq (a : Arena) (op : Operator) (left right : NodeId) (egress lty rty : Ty)
    (span : Option Span) :
    ∃ ltag rtag, (ltag = none ∨ ltag = OperandTag.ofTy lty) ∧
      (rtag = none ∨ rtag = OperandTag.ofTy rty) ∧
      a.pushBinary op left right egress lty rty span =
        a.push (.binary ⟨op, left, right, egress, ltag, rtag⟩) span := by
  by_cases h : lty = rty
  · subst h
    exact ⟨OperandTag.ofTy lty, OperandTag.ofTy lty, .inr rfl, .inr rfl, by simp [pushBinary]⟩
  · exact ⟨_, _, a.literalTag_cases left lty, a.literalTag_cases right rty, by
      simp [pushBinary, h]⟩

theorem conclusive {op : Operator} {lty rty : Ty} (h : op = .and ∨ op = .or) :
    (op.resultTy lty rty).admits .boolean = true := by
  rcases h with rfl | rfl <;> rfl

theorem Tagged.of_operation {n : BinaryNode} {id : NodeId}
    (node : final.node? id = some (.binary n)) (hfinal : final.Ordered) {lty : Ty}
    {rtags : Tag → Bool} (left : final.Tagged scope n.left lty.admits)
    (right : final.Tagged scope n.right rtags)
    (leftTag : n.leftTag = none ∨ n.leftTag = OperandTag.ofTy lty)
    (fitsRight : ∀ v, rtags v.tag = true → Kernel.Fits n.op (n.rightTag.resolve v) v)
    (yields : ∀ l r w, lty.admits l = true → rtags r = true → n.op.resultTag? l r = some w →
      n.egress.admits w = true)
    (decided : n.op = .and ∨ n.op = .or → n.egress.admits .boolean = true) :
    final.Tagged scope id (final.egress id).admits := by
  have egress : final.egress id = n.egress := egress_eq hfinal node
  rw [egress]
  exact .binary node left right (fun v hv => fits_of_pushBinary leftTag hv) fitsRight yields decided

/-- A literal beside an arithmetic operand becomes of the result type, else of the left one. -/
theorem target_of_converted {op : Operator} {right : NodeId} {lty rty target : Ty}
    (h : a.rightOperand ctx op right lty rty = .converted target) :
    target = op.literalTy lty rty := by
  unfold rightOperand at h
  split at h
  · contradiction
  · split at h
    · exact (RightOperand.converted.inj h).symm
    · split at h <;> contradiction

/-- Only a concatenation converts the literal of a sum into a string. -/
theorem ne_add_of_string {op : Operator} {lty rty : Ty}
    (other : ¬ (op = .add ∧ (lty = .string ∨ rty = .string)))
    (hs : op.literalTy lty rty = .string) : op ≠ .add := by
  rintro rfl
  have ha : Operator.add.isArithmetic = true := rfl
  rw [Operator.literalTy, if_pos ha, Operator.resultTy_arithmetic ha other] at hs
  have hne : lty ≠ .string ∧ rty ≠ .string := by simpa using other
  exact Ty.arithmeticResult_ne_string hne.1 hne.2 hs

theorem fits_converted {r : ConversionRegistry} {op : Operator} {lty rty : Ty} {v w : Value}
    {tag : OperandTag} (other : ¬ (op = .add ∧ (lty = .string ∨ rty = .string)))
    (h : r.convert v (op.literalTy lty rty) = .ok w)
    (htag : tag = none ∨ tag = OperandTag.ofTy (op.literalTy lty rty)) (place : NodeId) :
    Kernel.Fits op (tag.resolve (w.heldBy place)) (w.heldBy place) := by
  rcases ConversionRegistry.admits_convert h with hw | ⟨hw, hs⟩ | ⟨-, c, hc⟩
  · exact fits_of_pushBinary htag (by rwa [Value.tag_heldBy])
  · obtain rfl : w = .null := by cases w <;> first | rfl | contradiction
    exact .inr ⟨rfl, fun hadd => ne_add_of_string other hs hadd.1⟩
  · rw [hc] at htag
    obtain rfl : tag = none := by rcases htag with h | h <;> exact h
    exact Kernel.fits_own op _

/-- An operation with the null literal has a result only if it is an equality. -/
theorem yields_null {op : Operator} (hop : op ≠ .add) (lty rty : Ty) :
    ∀ l r w, lty.admits l = true → (r == Tag.null) = true → op.resultTag? l r = some w →
      (op.resultTy lty rty).admits w = true := by
  intro l r w hl hr h
  obtain rfl : r = .null := by simpa using hr
  by_cases ha : op.isArithmetic = true
  · rcases Operator.resultTag?_arithmetic ha h with ⟨hadd, -⟩ | h
    · exact absurd hadd hop
    · obtain ⟨-, hnum, -⟩ := Tag.numeric_of_widen h
      contradiction
  · by_cases hb : op.isBitwise = true
    · rw [Operator.resultTag?_bitwise hb] at h
      revert h
      cases l <;> simp [Tag.bitwise?, Tag.readBeside, Tag.isNumeric, Tag.isIntegral]
    · simp only [Bool.not_eq_true] at ha hb
      rw [Operator.resultTy_boolean ha hb]
      exact Operator.yields_boolean ha hb lty .any l .null w hl rfl h

/-- A string in the place of an object is read as a number, if it is not in a sum. -/
theorem yields_spelled {op : Operator} (hop : op ≠ .add) {lty rty : Ty} {c : ClassType}
    (hc : op.literalTy lty rty = .hostClass c)
    (wide : op.isBitwise = true → op.resultTy lty rty = .primitive .long → lty.isWide = true) :
    ∀ l r w, lty.admits l = true → (r == Tag.string) = true → op.resultTag? l r = some w →
      (op.resultTy lty rty).admits w = true := by
  intro l r w hl hr h
  by_cases ha : op.isArithmetic = true
  · rw [Operator.literalTy, if_pos ha] at hc
    rcases Operator.resultTag?_arithmetic ha h with ⟨hadd, -⟩ | h
    · exact absurd hadd hop
    · obtain ⟨-, -, hw⟩ := Tag.numeric_of_widen h
      have hs : w ≠ .string := by
        rintro rfl
        contradiction
      simp [hc, Ty.admits, hs]
  · rw [Operator.literalTy, if_neg ha] at hc
    subst hc
    by_cases hb : op.isBitwise = true
    · rw [Operator.resultTag?_bitwise hb] at h
      have hw := wide hb
      rw [Operator.resultTy_bitwise hb, Ty.bitwiseResult] at hw ⊢
      split
      · contradiction
      · split
        · rename_i hk
          rw [if_neg (by assumption), if_pos hk] at hw
          have := hw rfl
          contradiction
        · exact Ty.int_admits_bitwise h
    · simp only [Bool.not_eq_true] at ha hb
      rw [Operator.resultTy_boolean ha hb]
      exact Operator.yields_boolean ha hb (.hostClass c) .any l r w hl rfl h

/-- An operation whose literal was converted, of the type that it has beside the literal. -/
theorem Tagged.of_converted {n : BinaryNode} {id place : NodeId} {lty rty : Ty} {v w : Value}
    (node : final.node? id = some (.binary n)) (hfinal : final.Ordered)
    (faithful : final.faithful = true) (egressLeft : final.egress n.left = lty)
    (egress : n.egress = n.op.resultTy lty rty)
    (other : ¬ (n.op = .add ∧ (lty = .string ∨ rty = .string)))
    (literal : final.node? n.right = some (.literal (w.heldBy place) (n.op.literalTy lty rty)))
    (conversion : ctx.conversions.convert v (n.op.literalTy lty rty) = .ok w)
    (left : final.Tagged scope n.left lty.admits)
    (leftTag : n.leftTag = none ∨ n.leftTag = OperandTag.ofTy lty)
    (rightTag : n.rightTag = none ∨ n.rightTag = OperandTag.ofTy (n.op.literalTy lty rty)) :
    final.Tagged scope id (final.egress id).admits := by
  have fits : Kernel.Fits n.op (n.rightTag.resolve (w.heldBy place)) (w.heldBy place) :=
    fits_converted other conversion rightTag place
  have wide : n.op.isBitwise = true → n.op.resultTy lty rty = .primitive .long →
      lty.isWide = true := by
    intro hb hlong
    rcases wide_of_faithful faithful node hb (egress.trans hlong) with h | h
    · rwa [egressLeft] at h
    · have h : (n.op.literalTy lty rty).isWide = true := by rwa [egress_eq hfinal literal] at h
      rwa [Operator.literalTy, if_neg (by simp [Operator.not_arithmetic_of_bitwise hb])] at h
  rcases ConversionRegistry.admits_convert conversion with hw | ⟨hw, hs⟩ | ⟨hw, c, hc⟩
  · have tagged : final.Tagged scope n.right (n.op.literalTy lty rty).admits :=
      .literal literal (by rwa [Value.tag_heldBy])
    refine .of_operation node hfinal left tagged leftTag
      (fun v hv => fits_of_pushBinary rightTag hv) ?_ (egress ▸ conclusive)
    rw [egress]
    exact Operator.yields_converted other wide
  · have tagged : final.Tagged scope n.right (· == .null) :=
      .literal literal (by simp [Value.tag_heldBy, hw])
    have hop : n.op ≠ .add := ne_add_of_string other hs
    refine .of_operation node hfinal left tagged leftTag (fun u hu => ?_) ?_ (egress ▸ conclusive)
    · obtain rfl : u = .null := by cases u <;> first | rfl | contradiction
      exact .inr ⟨rfl, fun h => hop h.1⟩
    · rw [egress]
      exact yields_null hop _ _
  · have tagged : final.Tagged scope n.right (· == .string) :=
      .literal literal (by simp [Value.tag_heldBy, hw])
    have hop : n.op ≠ .add :=
      ne_add_of_faithful faithful node (hc ▸ literal) (by rw [Value.tag_heldBy, hw])
    have unknown : n.rightTag = none := by
      rw [hc] at rightTag
      rcases rightTag with h | h <;> exact h
    refine .of_operation node hfinal left tagged leftTag (fun u _ => ?_) ?_ (egress ▸ conclusive)
    · rw [unknown]
      exact Kernel.fits_own _ u
    · rw [egress]
      exact yields_spelled hop hc wide

theorem Joined.tagged {op : Operator} {left right id : NodeId} {a' : Arena}
    (h : a.Joined ctx op left right (id, a')) (ha : a.Ordered) (hfinal : final.Ordered)
    (grows : a'.Grows final) (hl : left.index < a.size) (hr : right.index < a.size)
    (faithful : ctx.strongTyping = true → final.faithful = true)
    (taggedLeft : final.Tagged scope left (final.egress left).admits)
    (taggedRight : final.Tagged scope right (final.egress right).admits) :
    final.Tagged scope id (final.egress id).admits := by
  have below := h.grows.trans grows
  have egressLeft := below.egress_eq ha hfinal hl
  have egressRight := below.egress_eq ha hfinal hr
  rw [egressLeft] at taggedLeft
  rw [egressRight] at taggedRight
  generalize hnext : (id, a') = next at h
  cases h with
  | concat plus string =>
    obtain ⟨rfl, rfl⟩ := Prod.mk.inj hnext
    subst plus
    exact .of_operation grows.pushed.1 hfinal taggedLeft taggedRight (.inr rfl)
      (fun v hv => Kernel.fits_of_admits _ hv) (Operator.yields_concat _ _) (by simp)
  | plain other fits =>
    obtain ⟨ltag, rtag, hltag, hrtag, hpush⟩ := a.pushBinary_eq op left right
      (op.resultTy (a.egress left) (a.egress right)) (a.egress left) (a.egress right)
      (a.joinedSpan left right)
    rw [hpush] at hnext
    obtain ⟨rfl, rfl⟩ := Prod.mk.inj hnext
    exact .of_operation grows.pushed.1 hfinal taggedLeft taggedRight hltag
      (fun v hv => fits_of_pushBinary hrtag hv) (Operator.yields_resultTy other) conclusive
  | @converted value v ty target other strong replaced literal conversion =>
    obtain rfl := target_of_converted replaced
    generalize hlit : a.push (.literal (v.heldBy ⟨a.size⟩)
      (op.literalTy (a.egress left) (a.egress right))) (a.span? right) = pushed at hnext
    obtain ⟨ltag, rtag, hltag, hrtag, hpush⟩ := pushed.2.pushBinary_eq op left ⟨a.size⟩
      (op.resultTy (a.egress left) (a.egress right)) (a.egress left)
      (op.literalTy (a.egress left) (a.egress right)) (a.joinedSpan left right)
    rw [hpush] at hnext
    obtain ⟨rfl, rfl⟩ := Prod.mk.inj hnext
    have growsLiteral : pushed.2.Grows final := (pushed.2.grows_push _ _).trans grows
    rw [← hlit] at growsLiteral
    exact .of_converted grows.pushed.1 hfinal (faithful strong) egressLeft rfl other
      growsLiteral.pushed.1 conversion taggedLeft hltag hrtag

end Arena

namespace Compile

open Arena

variable {ctx : BuildContext} {scope : Scope} {final : Arena}

theorem admits_applyUnary {op : UnaryOp} {ty : Ty} {v w : Value} (h : ty.admits v.tag = true)
    (hw : Kernel.applyUnary op v = .ok w) : (unaryTy op ty).admits w.tag = true := by
  unfold Kernel.applyUnary at hw
  cases op with
  | neg =>
    simp only at hw
    split at hw
    · rename_i u hu
      obtain rfl := Except.ok.inj hw
      exact Kernel.admits_negate h hu
    · contradiction
  | not =>
    simp only at hw
    split at hw
    · rename_i u hu
      obtain rfl := Except.ok.inj hw
      cases v <;> first | contradiction | (obtain rfl := Option.some.inj hu; rfl)
    · contradiction

theorem negate_of_negateLiteral {v w : Value} (h : negateLiteral? v = some w) :
    Kernel.negate? v = some w := by
  cases v <;> first | contradiction | exact h

/-- The nodes of a formula have values of their types. -/
theorem build_tagged {f : Formula} {a a' : Arena} {id : NodeId} (ha : a.Ordered)
    (h : f.build ctx scope a = .ok (id, a')) (grows : a'.Grows final) (hfinal : final.Ordered)
    (faithful : ctx.strongTyping = true → final.faithful = true) :
    final.Tagged scope id (final.egress id).admits := by
  induction f generalizing a a' id with
  | leaf l span =>
    rcases compileLeaf_ok h with ⟨v, h⟩ | ⟨name, ty, declared, h⟩ <;>
      obtain ⟨rfl, rfl⟩ := Prod.mk.inj h
    · have node := grows.node? (a.node?_push (.literal v v.ty) (some span))
      rw [egress_eq hfinal node]
      refine .literal node ?_
      rw [v.tag_eq_ofTy]
      exact v.ty.admits_self
    · have node := grows.node? (a.node?_push (.variable name ty) (some span))
      rw [egress_eq hfinal node]
      exact .named node (declared.imp_right And.right)
  | group inner span ih =>
    obtain ⟨⟨i, a₁⟩, h₁, h⟩ := bind_eq_ok h
    obtain ⟨rfl, rfl⟩ := Prod.mk.inj (Except.ok.inj h)
    have node := grows.node? (a₁.node?_push (.group i) (some span))
    have tagged := ih ha h₁ ((a₁.grows_push _ _).trans grows)
    rw [egress_eq hfinal node]
    exact .group node tagged
  | unary op operand span ih =>
    obtain ⟨⟨i, a₁⟩, h₁, h⟩ := bind_eq_ok h
    have planted := (build_planted ha h₁).2
    rcases compileUnary_ok h with ⟨v, w, ty, -, literal, folded, h⟩ | ⟨-, -, h⟩ <;>
      obtain ⟨rfl, rfl⟩ := Prod.mk.inj h
    · have below := (a₁.grows_push (.literal w ty) (some span)).trans grows
      have node := grows.node? (a₁.node?_push (.literal w ty) (some span))
      have tagged := (ih ha h₁ below).of_literal (below.node? literal)
      rw [egress_eq hfinal (below.node? literal)] at tagged
      rw [egress_eq hfinal node]
      exact .literal node (Kernel.admits_negate tagged (negate_of_negateLiteral folded))
    · have below := (a₁.grows_push (.unary op i (unaryTy op (a₁.egress i))) (some span)).trans grows
      have node := grows.node?
        (a₁.node?_push (.unary op i (unaryTy op (a₁.egress i))) (some span))
      have tagged := ih ha h₁ below
      rw [below.egress_eq planted.ordered hfinal planted.index_lt] at tagged
      rw [egress_eq hfinal node]
      exact .unary node tagged fun v w hv hw => admits_applyUnary hv hw
  | binary op left right ihl ihr =>
    obtain ⟨⟨l, a₁⟩, h₁, h⟩ := bind_eq_ok h
    obtain ⟨⟨r, a₂⟩, h₂, h⟩ := bind_eq_ok h
    have joined := joined_of_buildBinary (ofBuilt_ok h)
    have plantedLeft := (build_planted ha h₁).2
    obtain ⟨growsRight, plantedRight⟩ := build_planted plantedLeft.ordered h₂
    have below := joined.grows.trans grows
    exact joined.tagged plantedRight.ordered hfinal grows
      (Nat.lt_of_lt_of_le plantedLeft.index_lt growsRight.size_le) plantedRight.index_lt faithful
      (ihl ha h₁ (growsRight.trans below)) (ihr plantedLeft.ordered h₂ below)

theorem compileStatements_tagged {lines : Option LineIndex} {a : Arena}
    {statements : List Grammar.Statement} {roots : List NodeId} (ha : a.Ordered)
    (h : compileStatements ctx lines scope a statements = .ok (roots, final))
    (faithful : ctx.strongTyping = true → final.faithful = true) :
    Evaluation.Statements final scope roots := by
  refine compileStatements_ind (motive := fun scope _ roots =>
    Evaluation.Statements final scope roots) (fun _ => .nil) ?_ ?_ ha h
  · intro scope e rest id roots a a' ha hbuild grows hfinal later
    exact .value (build_tagged ha hbuild grows hfinal faithful) later
  · intro scope name nameSpan value rest id roots a a' ha hbuild grows hfinal later
    have planted := (build_planted ha hbuild).2
    have below := (a'.grows_push _ _).trans grows
    have tagged := build_tagged ha hbuild below hfinal faithful
    rw [below.egress_eq planted.ordered hfinal planted.index_lt] at tagged
    exact .assign grows.pushed.1 tagged later

end Compile

/-- What an input of a type is bound to: a value of the tag of the type. An input that is declared
null or with a class can be anything but a string, and one of the universal type anything. -/
def Ty.Binds : Ty → Value → Prop
  | .any, _ => True
  | .null, v | .hostClass _, v => v.tag ≠ .string
  | ty, v => v.tag = Tag.ofTy ty

theorem Ty.Binds.admits {ty : Ty} {v : Value} (h : ty.Binds v) : ty.admits v.tag = true := by
  cases ty with
  | any => rfl
  | null | hostClass c => simpa [Ty.admits, Ty.Binds] using h
  | primitive k => exact h ▸ Ty.admits_self (.primitive k)
  | boxed k => exact h ▸ Ty.admits_self (.boxed k)
  | bigInteger => exact h ▸ Ty.admits_self .bigInteger
  | bigDecimal => exact h ▸ Ty.admits_self .bigDecimal
  | string => exact h ▸ Ty.admits_self .string

/-- Bindings of the declared inputs; the last declaration of a name counts. Other names may be
bound to anything. -/
def Bindings.WellTyped (b : Bindings) (inputs : List (String × Ty)) : Prop :=
  ∀ name ty v, (Scope.ofInputs inputs).lookup? name = some ty → b.get? name = some v → ty.Binds v

theorem Bindings.wellTyped_singleton {name : String} {ty : Ty} {v : Value} (h : ty.Binds v) :
    (Bindings.ofList [(name, v)]).WellTyped [(name, ty)] := by
  intro other ty' v' hty hv
  have hty : (Scope.empty.declare name ty).lookup? other = some ty' := hty
  have hv : (Bindings.empty.set name v).get? other = some v' := hv
  rcases Bindings.bound_anew hty hv with ⟨rfl, rfl⟩ | ⟨hty, -⟩
  · exact h
  · contradiction

/-- The tags that operations keep for their operands cannot be observed: without them, every
operation asking the values, the program has the same answer and the same bindings. -/
theorem operand_tags_unobservable {ctx : BuildContext} {inputs : List (String × Ty)}
    {debugSymbols : Bool} {limit : Nat} {p : Program}
    (hp : compile ctx inputs debugSymbols limit = .ok p)
    (faithful : ctx.strongTyping = true → p.arena.faithful = true) {s : Evaluation}
    (hs : s.arena = p.arena) {b : Bindings} (hb : b.WellTyped inputs) :
    s.untagged.evalAll p.statements b = s.evalAll p.statements b := by
  obtain ⟨script, -, h⟩ := compile_ok hp
  have statements := Compile.compileStatements_tagged .empty h faithful
  rw [← hs] at statements
  exact Evaluation.evalFrom_untagged statements
    (fun name ty v hty hv => (hb name ty v hty hv).admits) .null

/-- A strongly typed source with the empty registry. -/
def strict (source : String) : BuildContext where
  strongTyping := true
  conversions := .empty
  equality := .rejectAll
  source := source.toList
  file := none

theorem operand_tags_unobservable_long :
    ∃ p, compile (strict "y = x + 1; y & 2") [("x", .primitive .long)] false 128 = .ok p ∧
      p.arena.faithful = true ∧
      (Bindings.ofList [("x", .long 5)]).WellTyped [("x", .primitive .long)] ∧
      (Evaluation.untagged ⟨p.arena, .empty, 16, .accelerated⟩).evalAll p.statements
          (.ofList [("x", .long 5)]) =
        Evaluation.evalAll ⟨p.arena, .empty, 16, .accelerated⟩ p.statements
          (.ofList [("x", .long 5)]) := by
  have faithful : (compile (strict "y = x + 1; y & 2") [("x", .primitive .long)] false 128).map
      (·.arena.faithful) = .ok true := by
    decide +kernel
  have welltyped : (Bindings.ofList [("x", .long 5)]).WellTyped [("x", .primitive .long)] :=
    Bindings.wellTyped_singleton rfl
  obtain ⟨p, hp, faithful⟩ := Kernel.map_eq_ok faithful
  exact ⟨p, hp, faithful, welltyped,
    operand_tags_unobservable hp (fun _ => faithful) rfl welltyped⟩

/-- A value with the tag of a declared type; of the universal type, null and classes any value. -/
def Ty.isExact : Ty → Value → Bool
  | .any, _ | .null, _ | .hostClass _, _ => true
  | ty, v => v.tag == Tag.ofTy ty

/-- The tag of the value that a program has, with the tags of its operands or without. -/
def tagOfRun (r : ConversionRegistry) (p : Program) (tagged : Bool) (b : Bindings) : Option Tag :=
  let s : Evaluation := ⟨p.arena, r, 16, .accelerated⟩
  let run := if tagged then s else s.untagged
  match run.evalAll p.statements b with
  | (.ok v, _) => some v.tag
  | (.error _, _) => none

/-- Bindings of the declared types tell the program of a source from the one without tags. -/
def OperandTagsObservable (ctx : BuildContext) (inputs : List (String × Ty)) (b : Bindings) :
    Prop :=
  (inputs.all fun input => (b.get? input.1).all input.2.isExact) = true ∧
    ∃ p, compile ctx inputs false 128 = .ok p ∧
      (Evaluation.untagged ⟨p.arena, ctx.conversions, 16, .accelerated⟩).evalAll p.statements b ≠
        Evaluation.evalAll ⟨p.arena, ctx.conversions, 16, .accelerated⟩ p.statements b

theorem observable_of_tags {ctx : BuildContext} {inputs : List (String × Ty)} {b : Bindings}
    {t u : Tag} (exact : (inputs.all fun input => (b.get? input.1).all input.2.isExact) = true)
    (h : (compile ctx inputs false 128).map (fun p =>
      (tagOfRun ctx.conversions p true b, tagOfRun ctx.conversions p false b)) =
        .ok (some t, some u)) (ne : t ≠ u) : OperandTagsObservable ctx inputs b := by
  refine ⟨exact, ?_⟩
  obtain ⟨p, hp, tags⟩ := Kernel.map_eq_ok h
  obtain ⟨tagged, untagged⟩ := Prod.mk.inj tags
  refine ⟨p, hp, fun same => ne ?_⟩
  simp only [tagOfRun, if_true, Bool.false_eq_true, if_false, same] at tagged untagged
  exact Option.some.inj (tagged.symm.trans untagged)

/-- A handler that has a string for every value. -/
def spellingHandler : ConversionHandler := ⟨fun _ => true, fun _ _ => .ok (.string "2")⟩

/-- Three ways to an `int` of the static type `long`, of which two are then added. The literal of
`x & 1L` becomes an `int` beside an `int`; a string that is bound to an input declared null is
read as the `int` beside it, and so is a string that a class has for a literal. -/
theorem operand_tags_observable :
    OperandTagsObservable (strict "(x & 1L) + (x & 1L)") [("x", .primitive .int)]
        (.ofList [("x", .int 1)]) ∧
      OperandTagsObservable { strict "((x + y) - 2) + ((x + y) - 2)" with strongTyping := false }
        [("x", .null), ("y", .primitive .long)] (.ofList [("x", .string "5"), ("y", .long 1)]) ∧
      OperandTagsObservable
        { strict "(((x + true) + y) - z) + (((x + true) + y) - z)" with
          conversions := ConversionRegistry.empty.register "Word" spellingHandler }
        [("x", .hostClass ⟨"Word", []⟩), ("y", .primitive .long), ("z", .primitive .int)]
        (.ofList [("x", .int 1), ("y", .long 1), ("z", .int 1)]) := by
  refine ⟨observable_of_tags (t := .long) (u := .int) ?_ ?_ ?_,
    observable_of_tags (t := .long) (u := .int) ?_ ?_ ?_,
    observable_of_tags (t := .long) (u := .int) ?_ ?_ ?_⟩ <;>
      decide +kernel

end Scriptlet
