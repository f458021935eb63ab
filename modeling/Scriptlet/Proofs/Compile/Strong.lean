import Scriptlet.Proofs.Compile.Typing
import Scriptlet.Proofs.Eval.Replaced
import Scriptlet.Proofs.Kernel.Lossless

/-!
# Strong typing

What compiles under strong typing compiles without it, into the same trees but for the literals
that strong typing converts. So it changes an answer only where an operation is performed whose
outcome the conversion of its literal changes.
-/
namespace Scriptlet

/-- The context without strong typing. -/
def BuildContext.loose (ctx : BuildContext) : BuildContext := { ctx with strongTyping := false }

theorem BuildContext.loose_eq {ctx : BuildContext} (h : ctx.strongTyping = false) :
    ctx.loose = ctx := by
  rw [loose, ← h]

namespace Arena

/-- Nodes that building cannot tell apart: of one type and span, and the same if literals. -/
structure Matched (a : Arena) (i : NodeId) (c : Arena) (j : NodeId) : Prop where
  egress : a.egress i = c.egress j
  span : a.span? i = c.span? j
  literal : ∀ v ty, a.node? i = some (.literal v ty) ↔ c.node? j = some (.literal v ty)
  own : ∀ v ty, c.node? j = some (.literal v ty) → ty = v.ty

variable {ctx : BuildContext} {scope : Scope} {a a' c c' : Arena} {i j l r : NodeId}

theorem Matched.grows (h : a.Matched i c j) (grows : a.Grows a') (ha : a.Ordered)
    (ha' : a'.Ordered) (hi : i.index < a.size) (grows' : c.Grows c') (hc : c.Ordered)
    (hc' : c'.Ordered) (hj : j.index < c.size) : a'.Matched i c' j where
  egress := by rw [grows.egress_eq ha ha' hi, grows'.egress_eq hc hc' hj, h.egress]
  span := by rw [grows.span?_eq i hi, grows'.span?_eq j hj, h.span]
  literal v ty := by rw [grows.node?_eq i hi, grows'.node?_eq j hj, h.literal]
  own v ty hn := h.own v ty (by rwa [grows'.node?_eq j hj] at hn)

theorem matched_push {node node' : Node} {span : Option Span}
    (ha : (a.push node span).2.Ordered) (hc : (c.push node' span).2.Ordered)
    (ty : typeOf (a.push node span).2.egress node = typeOf (c.push node' span).2.egress node')
    (hnode : node.operands ≠ []) (hnode' : node'.operands ≠ []) :
    (a.push node span).2.Matched ⟨a.size⟩ (c.push node' span).2 ⟨c.size⟩ where
  egress := by
    rw [egress_eq ha (a.node?_push node span), egress_eq hc (c.node?_push node' span), ty]
  span := by rw [span?_push, span?_push]
  literal v ty := by
    rw [node?_push, node?_push, Option.some.injEq, Option.some.injEq]
    constructor
    · rintro rfl
      exact absurd rfl hnode
    · rintro rfl
      exact absurd rfl hnode'
  own v ty h := by
    rw [node?_push, Option.some.injEq] at h
    subst h
    exact absurd rfl hnode'

theorem own_literal {v u : Value} {ty : Ty} (h : Node.literal v v.ty = .literal u ty) :
    ty = u.ty := by
  obtain ⟨rfl, rfl⟩ := Node.literal.inj h
  rfl

/-- A leaf that is appended to both arenas. -/
theorem twin_push_leaf (ha : a.Ordered) (hc : c.Ordered) {node : Node} (leaf : node.operands = [])
    (own : ∀ v ty, node = .literal v ty → ty = v.ty) (span : Option Span) :
    (a.push node span).2.Matched ⟨a.size⟩ (c.push node span).2 ⟨c.size⟩ ∧
      ∀ F G, (a.push node span).2.Grows F → (c.push node span).2.Grows G →
        F.Twin ctx scope G ⟨a.size⟩ ⟨c.size⟩ := by
  have ordered : (a.push node span).2.Ordered := ha.push (by simp [leaf]) span
  have ordered' : (c.push node span).2.Ordered := hc.push (by simp [leaf]) span
  constructor
  · refine ⟨?_, by rw [span?_push, span?_push], fun v ty => by rw [node?_push, node?_push],
      fun v ty h => ?_⟩
    · rw [egress_eq ordered (a.node?_push node span), egress_eq ordered' (c.node?_push node span)]
      cases node <;> first | rfl | contradiction
    · rw [node?_push, Option.some.injEq] at h
      exact own v ty h
  · intro F G growsF growsG
    obtain ⟨left, spanLeft⟩ := growsF.pushed
    obtain ⟨right, spanRight⟩ := growsG.pushed
    exact .leaf leaf left right (spanLeft.trans spanRight.symm)

theorem isLiteral_iff (a : Arena) (i : NodeId) :
    a.isLiteral i = true ↔ ∃ v ty, a.node? i = some (.literal v ty) := by
  unfold isLiteral
  split
  · rename_i v ty hn
    exact iff_of_true rfl ⟨v, ty, hn⟩
  · rename_i hn
    exact iff_of_false (by simp) fun ⟨v, ty, h⟩ => hn v ty h

theorem Matched.isLiteral (h : a.Matched i c j) : a.isLiteral i = c.isLiteral j := by
  rw [Bool.eq_iff_iff, isLiteral_iff, isLiteral_iff]
  simp only [h.literal]

theorem Matched.literalTag (h : a.Matched i c j) (ty : Ty) :
    a.literalTag i ty = c.literalTag j ty := by
  rw [Arena.literalTag, Arena.literalTag, h.isLiteral]

/-- What strong typing does to an operand depends on the arena only for being a literal. -/
theorem rightOperand_congr {op : Operator} (h : a.isLiteral r = c.isLiteral j) (lty rty : Ty) :
    a.rightOperand ctx op r lty rty = c.rightOperand ctx op j lty rty := by
  simp only [rightOperand, h]

theorem Matched.joinedSpan {k m : NodeId} (h : a.Matched i c j) (h' : a.Matched k c m) :
    a.joinedSpan i k = c.joinedSpan j m := by
  rw [Arena.joinedSpan, Arena.joinedSpan, h.span, h'.span]

theorem buildBinary_loose {op : Operator} (hl : l.index < c.size) (hr : r.index < c.size) :
    c.buildBinary ctx.loose op l r =
      .ok (if op = .add ∧ (c.egress l = .string ∨ c.egress r = .string) then
        c.push (.binary ⟨op, l, r, .string, OperandTag.ofTy (c.egress l),
          OperandTag.ofTy (c.egress r)⟩) (c.joinedSpan l r)
      else c.pushBinary op l r (op.resultTy (c.egress l) (c.egress r)) (c.egress l) (c.egress r)
        (c.joinedSpan l r)) := by
  obtain ⟨nl, hnl⟩ := node?_isSome hl
  obtain ⟨nr, hnr⟩ := node?_isSome hr
  simp only [buildBinary, hnl, hnr, Option.isNone_some, Bool.false_eq_true, if_false, joinBinary,
    BuildContext.loose]
  split <;> rfl

theorem Matched.pushBinary {l' r' : NodeId} (hl : a.Matched l c l') (hr : a.Matched r c r')
    (op : Operator) (egress lty rty : Ty) (span : Option Span) :
    ∃ ltag rtag,
      a.pushBinary op l r egress lty rty span =
        a.push (.binary ⟨op, l, r, egress, ltag, rtag⟩) span ∧
      c.pushBinary op l' r' egress lty rty span =
        c.push (.binary ⟨op, l', r', egress, ltag, rtag⟩) span := by
  by_cases h : lty = rty
  · subst h
    exact ⟨OperandTag.ofTy lty, OperandTag.ofTy lty, by simp [Arena.pushBinary], by
      simp [Arena.pushBinary]⟩
  · exact ⟨c.literalTag l' lty, c.literalTag r' rty, by
      simp [Arena.pushBinary, h, hl.literalTag, hr.literalTag], by simp [Arena.pushBinary, h]⟩

/-- A literal that strong typing converts is replaced in the tree without it. -/
theorem replaced_of_converted {G : Arena} {n : BinaryNode} {target ty : Ty} {v w : Value}
    (hl : a.Matched l c n.left) (hr : a.Matched r c n.right)
    (other : ¬ (n.op = .add ∧ (a.egress l = .string ∨ a.egress r = .string)))
    (replaced : a.rightOperand ctx n.op r (a.egress l) (a.egress r) = .converted target)
    (literal : a.node? r = some (.literal v ty))
    (conversion : ctx.conversions.convert v target = .ok w) (place : NodeId) (hc : c.Ordered)
    (grows : c.Grows G) (hG : G.Ordered) (hll : n.left.index < c.size)
    (hrr : n.right.index < c.size) : G.Replaced ctx n v (w.heldBy place) := by
  have literal' := (hr.literal v ty).mp literal
  obtain rfl : ty = v.ty := hr.own v ty literal'
  have same : G.isLiteral n.right = a.isLiteral r := by
    rw [(G.isLiteral_iff n.right).mpr ⟨v, _, grows.node? literal'⟩,
      (a.isLiteral_iff r).mpr ⟨v, _, literal⟩]
  have left : G.egress n.left = a.egress l := by rw [grows.egress_eq hc hG hll, hl.egress]
  have right : G.egress n.right = a.egress r := by rw [grows.egress_eq hc hG hrr, hr.egress]
  refine ⟨by rwa [left, right], grows.node? literal', target, w, place, ?_, conversion, rfl⟩
  rw [left, right, rightOperand_congr same, replaced]

section Join

variable {op : Operator} {l' r' : NodeId} (ha : a.Ordered) (hc : c.Ordered)
  (hl : a.Matched l c l') (hr : a.Matched r c r') (hll : l.index < a.size) (hrr : r.index < a.size)
  (hll' : l'.index < c.size) (hrr' : r'.index < c.size)

include ha hc hll hrr hll' hrr'

/-- Operations that are appended with the same tags are matched, and twins if their operands
are. -/
theorem twin_push (egress : Ty) (ltag rtag : OperandTag) (span : Option Span) :
    (a.push (.binary ⟨op, l, r, egress, ltag, rtag⟩) span).2.Matched ⟨a.size⟩
        (c.push (.binary ⟨op, l', r', egress, ltag, rtag⟩) span).2 ⟨c.size⟩ ∧
      ∀ F G, (a.push (.binary ⟨op, l, r, egress, ltag, rtag⟩) span).2.Grows F →
        (c.push (.binary ⟨op, l', r', egress, ltag, rtag⟩) span).2.Grows G →
        F.Twin ctx scope G l l' → F.Twin ctx scope G r r' →
        F.Twin ctx scope G ⟨a.size⟩ ⟨c.size⟩ := by
  refine ⟨matched_push (ha.push_pair rfl hll hrr span) (hc.push_pair rfl hll' hrr' span) rfl
    (by simp [Node.operands]) (by simp [Node.operands]), fun F G growsF growsG twinL twinR => ?_⟩
  obtain ⟨left, spanLeft⟩ := growsF.pushed
  obtain ⟨right, spanRight⟩ := growsG.pushed
  exact .binary left right (spanLeft.trans spanRight.symm) twinL twinR

include hl hr

omit hrr in
/-- An operation whose literal is converted, and the one on the literal itself. -/
theorem twin_converted {v w : Value} {ty : Ty} {ltag rtag ltag' rtag' : OperandTag}
    (other : ¬ (op = .add ∧ (a.egress l = .string ∨ a.egress r = .string)))
    (replaced : a.rightOperand ctx op r (a.egress l) (a.egress r) =
      .converted (op.literalTy (a.egress l) (a.egress r)))
    (literal : a.node? r = some (.literal v ty))
    (conversion : ctx.conversions.convert v (op.literalTy (a.egress l) (a.egress r)) = .ok w)
    (hltag : ltag = none ∨ ltag = OperandTag.ofTy (a.egress l))
    (hrtag : rtag = none ∨ rtag = OperandTag.ofTy (op.literalTy (a.egress l) (a.egress r)))
    (hltag' : ltag' = none ∨ ltag' = OperandTag.ofTy (a.egress l))
    (hrtag' : rtag' = none ∨ rtag' = OperandTag.ofTy (a.egress r)) (egress : Ty)
    (span : Option Span) {b : Arena} (hb : b = (a.push (.literal (w.heldBy ⟨a.size⟩)
      (op.literalTy (a.egress l) (a.egress r))) (a.span? r)).2) :
    (b.push (.binary ⟨op, l, ⟨a.size⟩, egress, ltag, rtag⟩) span).2.Matched ⟨b.size⟩
        (c.push (.binary ⟨op, l', r', egress, ltag', rtag'⟩) span).2 ⟨c.size⟩ ∧
      ∀ F G, (b.push (.binary ⟨op, l, ⟨a.size⟩, egress, ltag, rtag⟩) span).2.Grows F →
        (c.push (.binary ⟨op, l', r', egress, ltag', rtag'⟩) span).2.Grows G → G.Ordered →
        F.Twin ctx scope G l l' → G.Tagged scope l' (G.egress l').admits →
        F.Twin ctx scope G ⟨b.size⟩ ⟨c.size⟩ := by
  have ordered : b.Ordered := hb ▸ ha.push (by simp [Node.operands]) _
  have size : b.size = a.size + 1 := hb ▸ a.size_push _ _
  have below : l.index < b.size := by omega
  have last : a.size < b.size := by omega
  have ofLiteral : a.egress r = v.ty := by
    rw [egress_eq ha literal]
    exact hr.own v ty ((hr.literal v ty).mp literal)
  refine ⟨matched_push (ordered.push_pair rfl below last span)
    (hc.push_pair rfl hll' hrr' span) rfl (by simp [Node.operands]) (by simp [Node.operands]),
    fun F G growsF growsG hG twinL tagged => ?_⟩
  obtain ⟨left, spanLeft⟩ := growsF.pushed
  obtain ⟨right, spanRight⟩ := growsG.pushed
  have growsLiteral : b.Grows F := (b.grows_push _ _).trans growsF
  have growsLoose : c.Grows G := (c.grows_push _ _).trans growsG
  rw [hb] at growsLiteral
  obtain ⟨converted, spanConverted⟩ := growsLiteral.pushed
  refine .converted left right (spanLeft.trans spanRight.symm) rfl rfl twinL converted
    (replaced_of_converted hl hr other replaced literal conversion ⟨a.size⟩ hc growsLoose hG
      hll' hrr') ?_ tagged (fun x hx => ?_) ⟨fits_converted other conversion hrtag _, ?_⟩
  · rw [spanConverted, hr.span, growsLoose.span?_eq r' hrr']
  · rw [growsLoose.egress_eq hc hG hll', ← hl.egress] at hx
    exact ⟨fits_of_pushBinary hltag hx, fits_of_pushBinary hltag' hx⟩
  · refine fits_of_pushBinary hrtag' ?_
    rw [ofLiteral, v.tag_eq_ofTy]
    exact v.ty.admits_self

theorem Joined.twin (h : a.Joined ctx op l r (i, a')) :
    ∃ j c', c.buildBinary ctx.loose op l' r' = .ok (j, c') ∧ a'.Matched i c' j ∧
      ∀ F G, a'.Grows F → c'.Grows G → G.Ordered → F.Twin ctx scope G l l' →
        F.Twin ctx scope G r r' → G.Tagged scope l' (G.egress l').admits →
        F.Twin ctx scope G i j := by
  rw [buildBinary_loose hll' hrr', ← hl.egress, ← hr.egress, ← hl.joinedSpan hr]
  generalize hnext : (i, a') = next at h
  cases h with
  | concat plus string =>
    rw [if_pos ⟨plus, string⟩]
    obtain ⟨rfl, rfl⟩ := Prod.mk.inj hnext
    obtain ⟨matched, twin⟩ := twin_push ha hc hll hrr hll' hrr' .string
      (OperandTag.ofTy (a.egress l)) (OperandTag.ofTy (a.egress r)) (a.joinedSpan l r)
    exact ⟨_, _, rfl, matched, fun F G growsF growsG _ twinL twinR _ =>
      twin F G growsF growsG twinL twinR⟩
  | plain other fits =>
    rw [if_neg other]
    obtain ⟨ltag, rtag, strong, loose⟩ := hl.pushBinary hr op
      (op.resultTy (a.egress l) (a.egress r)) (a.egress l) (a.egress r) (a.joinedSpan l r)
    rw [strong] at hnext
    rw [loose]
    obtain ⟨rfl, rfl⟩ := Prod.mk.inj hnext
    obtain ⟨matched, twin⟩ := twin_push ha hc hll hrr hll' hrr'
      (op.resultTy (a.egress l) (a.egress r)) ltag rtag (a.joinedSpan l r)
    exact ⟨_, _, rfl, matched, fun F G growsF growsG _ twinL twinR _ =>
      twin F G growsF growsG twinL twinR⟩
  | @converted value v ty target other _ replaced literal conversion =>
    rw [if_neg other]
    obtain rfl := target_of_converted replaced
    obtain ⟨ltag', rtag', hltag', hrtag', loose⟩ := c.pushBinary_eq op l' r'
      (op.resultTy (a.egress l) (a.egress r)) (a.egress l) (a.egress r) (a.joinedSpan l r)
    rw [loose]
    generalize hb : (a.push (.literal (v.heldBy ⟨a.size⟩)
      (op.literalTy (a.egress l) (a.egress r))) (a.span? r)).2 = b at hnext
    obtain ⟨ltag, rtag, hltag, hrtag, strong⟩ := b.pushBinary_eq op l ⟨a.size⟩
      (op.resultTy (a.egress l) (a.egress r)) (a.egress l)
      (op.literalTy (a.egress l) (a.egress r)) (a.joinedSpan l r)
    rw [strong] at hnext
    obtain ⟨rfl, rfl⟩ := Prod.mk.inj hnext
    obtain ⟨matched, twin⟩ := twin_converted ha hc hl hr hll hll' hrr' other replaced
      literal conversion hltag hrtag hltag' hrtag'
      (op.resultTy (a.egress l) (a.egress r)) (a.joinedSpan l r) hb.symm
    exact ⟨_, _, rfl, matched, fun F G growsF growsG hG twinL _ tagged =>
      twin F G growsF growsG hG twinL tagged⟩

end Join

theorem kept_of_lossless {n : BinaryNode} {l v w : Value} (ha : a.Ordered)
    (replaced : a.Replaced ctx n v w) (lossless : Kernel.Lossless n.op (a.egress n.left) v w)
    (hl : l.tag = Tag.ofTy (a.egress n.left)) (r : ConversionRegistry) :
    Kernel.Kept r n.op l v w := by
  obtain ⟨-, literal, target, u, place, converted, conversion, rfl⟩ := replaced
  have htarget : target = n.op.literalTy (a.egress n.left) v.ty := by
    rw [target_of_converted converted, egress_eq ha literal, typeOf]
  subst htarget
  rcases lossless.target with same | ⟨hv, known⟩
  · rw [same]
    exact .refl _
  · have hu : u.tag ≠ .object := by
      rw [ConversionRegistry.tag_convert conversion hv (Kernel.operandTag_isSome known)]
      rintro ho
      rw [ho] at known
      rcases known with h | h <;> contradiction
    rw [Value.heldBy_eq hu] at lossless ⊢
    exact lossless.kept conversion hl r

end Arena

namespace Compile

open Arena

variable {ctx : BuildContext} {scope : Scope}

theorem compileLeaf_loose {a : Arena} {l : Grammar.Leaf} {span : Span} {next : NodeId × Arena}
    (h : compileLeaf ctx scope a span l = .ok next) (c : Arena) :
    ∃ node, node.operands = [] ∧ (∀ v ty, node = .literal v ty → ty = v.ty) ∧
      next = a.push node (some span) ∧
      compileLeaf ctx.loose scope c span l = .ok (c.push node (some span)) := by
  have pushed (v : Value) : ∃ node : Node, node.operands = [] ∧
      (∀ u ty, node = .literal u ty → ty = u.ty) ∧
      pushLiteral a v span = a.push node (some span) ∧
      Except.ok (pushLiteral c v span) = (Except.ok (c.push node (some span)) : Compiled) :=
    ⟨.literal v v.ty, rfl, fun _ _ => own_literal, rfl, rfl⟩
  have named (name : String) (ty : Ty) :
      ∀ v ty', Node.variable name ty = .literal v ty' → ty' = v.ty := by
    intro v ty' h
    contradiction
  cases l with
  | null =>
    obtain rfl := Except.ok.inj h
    exact pushed .null
  | boolean b =>
    obtain rfl := Except.ok.inj h
    exact pushed (.boolean b)
  | number text =>
    simp only [compileLeaf, compileNumber] at h ⊢
    split at h
    · obtain rfl := Except.ok.inj h
      exact pushed _
    · contradiction
  | string quote body =>
    simp only [compileLeaf, compileString] at h ⊢
    split at h
    · obtain rfl := Except.ok.inj h
      exact pushed _
    · contradiction
  | ident name =>
    simp only [compileLeaf, compileName, BuildContext.loose] at h ⊢
    split at h
    · rename_i ty hty
      exact ⟨_, rfl, named _ ty, (Except.ok.inj h).symm, rfl⟩
    · split at h
      · contradiction
      · exact ⟨_, rfl, named _ .any, (Except.ok.inj h).symm, rfl⟩

theorem folded?_none {a : Arena} {op : UnaryOp} {id : NodeId}
    (h : ∀ v ty, a.node? id ≠ some (.literal v ty)) : folded? a op id = none := by
  unfold folded?
  split
  · rename_i v ty hn
    exact absurd hn (h v ty)
  · rfl

theorem folded?_congr {a c : Arena} {i j : NodeId} (h : a.Matched i c j) (op : UnaryOp) :
    folded? a op i = folded? c op j := by
  by_cases hl : ∃ v ty, a.node? i = some (.literal v ty)
  · obtain ⟨v, ty, hn⟩ := hl
    have hn' := (h.literal v ty).mp hn
    cases op <;> simp only [folded?, hn, hn']
  · simp only [not_exists] at hl
    rw [folded?_none hl, folded?_none fun v ty hn => hl v ty ((h.literal v ty).mpr hn)]

theorem ty_of_negateLiteral {v w : Value} (h : negateLiteral? v = some w) : w.ty = v.ty := by
  cases v <;> first | contradiction | (obtain rfl := Option.some.inj h; rfl)

theorem compileUnary_loose {a c : Arena} {op : UnaryOp} {i j : NodeId} {span : Span}
    {next : NodeId × Arena} (hm : a.Matched i c j) (h : compileUnary ctx a op i span = .ok next) :
    (∃ v, next = a.push (.literal v v.ty) (some span) ∧
        compileUnary ctx.loose c op j span = .ok (c.push (.literal v v.ty) (some span))) ∨
      ∃ ty, next = a.push (.unary op i ty) (some span) ∧
        compileUnary ctx.loose c op j span = .ok (c.push (.unary op j ty) (some span)) := by
  rcases compileUnary_ok h with ⟨v, w, ty, rfl, literal, folded, rfl⟩ | ⟨hf, -, rfl⟩
  · have literal' := (hm.literal v ty).mp literal
    obtain rfl : ty = w.ty := (hm.own v ty literal').trans (ty_of_negateLiteral folded).symm
    refine .inl ⟨w, rfl, ?_⟩
    simp only [compileUnary, folded?, literal', folded, Option.map_some]
  · refine .inr ⟨unaryTy op (a.egress i), rfl, ?_⟩
    rw [folded?_congr hm] at hf
    simp only [compileUnary, hf, BuildContext.loose, Bool.false_and, Bool.false_eq_true, if_false,
      hm.egress]

/-- A formula that compiles under strong typing compiles without it, into a twin. -/
theorem build_twin {f : Formula} {a a' c : Arena} {i : NodeId} (ha : a.Ordered) (hc : c.Ordered)
    (h : f.build ctx scope a = .ok (i, a')) :
    ∃ j c', f.build ctx.loose scope c = .ok (j, c') ∧ a'.Matched i c' j ∧
      ∀ F G, a'.Grows F → F.Ordered → c'.Grows G → G.Ordered → F.Twin ctx scope G i j := by
  induction f generalizing a a' c i with
  | leaf l span =>
    obtain ⟨node, leaf, own, h, loose⟩ := compileLeaf_loose h c
    obtain ⟨rfl, rfl⟩ := Prod.mk.inj h
    obtain ⟨matched, twin⟩ := twin_push_leaf ha hc leaf own (some span)
    exact ⟨_, _, loose, matched, fun F G growsF _ growsG _ => twin F G growsF growsG⟩
  | group inner span ih =>
    obtain ⟨⟨k, a₁⟩, h₁, h⟩ := bind_eq_ok h
    obtain ⟨rfl, rfl⟩ := Prod.mk.inj (Except.ok.inj h)
    obtain ⟨m, c₁, loose, matched, twin⟩ := ih ha hc h₁
    obtain ⟨-, planted⟩ := build_planted ha h₁
    obtain ⟨-, planted'⟩ := build_planted hc loose
    have ordered : (a₁.push (.group k) (some span)).2.Ordered := (planted.over rfl _).ordered
    have ordered' : (c₁.push (.group m) (some span)).2.Ordered := (planted'.over rfl _).ordered
    have growsPush := a₁.grows_push (.group k) (some span)
    have growsPush' := c₁.grows_push (.group m) (some span)
    refine ⟨⟨c₁.size⟩, (c₁.push (.group m) (some span)).2, ?_, ?_,
      fun F G growsF hF growsG hG => ?_⟩
    · rw [Formula.build, loose]
      rfl
    · refine matched_push ordered ordered' ?_ (by simp [Node.operands]) (by simp [Node.operands])
      rw [typeOf, typeOf, growsPush.egress_eq planted.ordered ordered planted.index_lt,
        growsPush'.egress_eq planted'.ordered ordered' planted'.index_lt, matched.egress]
    · obtain ⟨left, spanLeft⟩ := growsF.pushed
      obtain ⟨right, spanRight⟩ := growsG.pushed
      exact .group left right (spanLeft.trans spanRight.symm)
        (twin F G (growsPush.trans growsF) hF (growsPush'.trans growsG) hG)
  | unary op operand span ih =>
    obtain ⟨⟨k, a₁⟩, h₁, h⟩ := bind_eq_ok h
    obtain ⟨m, c₁, loose, matched, twin⟩ := ih ha hc h₁
    obtain ⟨-, planted⟩ := build_planted ha h₁
    obtain ⟨-, planted'⟩ := build_planted hc loose
    rcases compileUnary_loose matched h with ⟨v, h, loose'⟩ | ⟨ty, h, loose'⟩
    · obtain ⟨rfl, rfl⟩ := Prod.mk.inj h
      obtain ⟨matched, twin⟩ :=
        twin_push_leaf planted.ordered planted'.ordered rfl (fun _ _ => own_literal) (some span)
      exact ⟨_, _, by rw [Formula.build, loose]; exact loose', matched,
        fun F G growsF _ growsG _ => twin F G growsF growsG⟩
    · obtain ⟨rfl, rfl⟩ := Prod.mk.inj h
      refine ⟨_, _, by rw [Formula.build, loose]; exact loose', ?_,
        fun F G growsF hF growsG hG => ?_⟩
      · exact matched_push (planted.over rfl _).ordered (planted'.over rfl _).ordered rfl
          (by simp [Node.operands]) (by simp [Node.operands])
      · obtain ⟨left, spanLeft⟩ := growsF.pushed
        obtain ⟨right, spanRight⟩ := growsG.pushed
        exact .unary left right (spanLeft.trans spanRight.symm)
          (twin F G ((a₁.grows_push _ _).trans growsF) hF ((c₁.grows_push _ _).trans growsG) hG)
  | binary op left right ihl ihr =>
    obtain ⟨⟨l, a₁⟩, h₁, h⟩ := bind_eq_ok h
    obtain ⟨⟨r, a₂⟩, h₂, h⟩ := bind_eq_ok h
    have joined := joined_of_buildBinary (ofBuilt_ok h)
    obtain ⟨l', c₁, loose₁, matchedLeft, twinLeft⟩ := ihl ha hc h₁
    obtain ⟨-, plantedLeft⟩ := build_planted ha h₁
    obtain ⟨-, plantedLeft'⟩ := build_planted hc loose₁
    obtain ⟨r', c₂, loose₂, matchedRight, twinRight⟩ :=
      ihr plantedLeft.ordered plantedLeft'.ordered h₂
    obtain ⟨grows, plantedRight⟩ := build_planted plantedLeft.ordered h₂
    obtain ⟨grows', plantedRight'⟩ := build_planted plantedLeft'.ordered loose₂
    have matchedLeft := matchedLeft.grows grows plantedLeft.ordered plantedRight.ordered
      plantedLeft.index_lt grows' plantedLeft'.ordered plantedRight'.ordered plantedLeft'.index_lt
    obtain ⟨j, c', loose, matched, twin⟩ := joined.twin plantedRight.ordered plantedRight'.ordered
      matchedLeft matchedRight (Nat.lt_of_lt_of_le plantedLeft.index_lt grows.size_le)
      plantedRight.index_lt (Nat.lt_of_lt_of_le plantedLeft'.index_lt grows'.size_le)
      plantedRight'.index_lt
    refine ⟨j, c', ?_, matched, fun F G growsF hF growsG hG => ?_⟩
    · simp only [Formula.build, loose₁, loose₂, loose, bind, Except.bind, ofBuilt,
        Except.mapError]
    · have growsF₂ := joined.grows.trans growsF
      have growsG₂ := (joined_of_buildBinary loose).grows.trans growsG
      exact twin F G growsF growsG hG
        (twinLeft F G (grows.trans growsF₂) hF (grows'.trans growsG₂) hG)
        (twinRight F G growsF₂ hF growsG₂ hG)
        (build_tagged hc loose₁ (grows'.trans growsG₂) hG fun strong => by contradiction)

theorem compileStatement_twin {s : Grammar.Statement} {a a' c : Arena} {scope' : Scope}
    {i : NodeId} (ha : a.Ordered) (hc : c.Ordered)
    (h : compileStatement ctx scope a s = .ok (i, scope', a')) :
    ∃ j c', compileStatement ctx.loose scope c s = .ok (j, scope', c') ∧
      ∀ F G is js, a'.Grows F → F.Ordered → c'.Grows G → G.Ordered →
        Evaluation.Twins ctx F G scope' is js →
          Evaluation.Twins ctx F G scope (i :: is) (j :: js) := by
  cases s with
  | expression e =>
    obtain ⟨k, a₁, hbuild, h⟩ := compileStatement_expression h
    cases h
    obtain ⟨j, c₁, loose, -, twin⟩ := build_twin ha hc hbuild
    refine ⟨j, c₁, ?_, fun F G is js growsF hF growsG hG rest => ?_⟩
    · rw [compileStatement, Formula.compileExpression_eq, loose]
    · exact .value (twin F G growsF hF growsG hG) rest
  | assignment name nameSpan value =>
    obtain ⟨k, a₁, hbuild, h⟩ := compileStatement_assignment h
    cases h
    obtain ⟨m, c₁, loose, matched, twin⟩ := build_twin ha hc hbuild
    obtain ⟨-, planted⟩ := build_planted hc loose
    rw [matched.egress]
    refine ⟨⟨c₁.size⟩, (c₁.push (.assign (String.ofList name) m (c₁.egress m))
      (some (Grammar.Statement.assignment name nameSpan value).span)).2, ?_,
      fun F G is js growsF hF growsG hG rest => ?_⟩
    · rw [compileStatement, Formula.compileExpression_eq, loose]
      rfl
    · obtain ⟨left, spanLeft⟩ := growsF.pushed
      obtain ⟨right, spanRight⟩ := growsG.pushed
      have growsValue := (c₁.grows_push _ _).trans growsG
      have tagged := build_tagged hc loose growsValue hG fun strong => by contradiction
      rw [growsValue.egress_eq planted.ordered hG planted.index_lt] at tagged
      exact .assign left right (spanLeft.trans spanRight.symm)
        (twin F G ((a₁.grows_push _ _).trans growsF) hF growsValue hG) tagged rest

theorem compileStatements_twins {lines : Option LineIndex} {statements : List Grammar.Statement}
    {a c F : Arena} {is : List NodeId} (ha : a.Ordered) (hc : c.Ordered)
    (h : compileStatements ctx lines scope a statements = .ok (is, F)) :
    ∃ js G, compileStatements ctx.loose lines scope c statements = .ok (js, G) ∧
      Evaluation.Twins ctx F G scope is js := by
  induction statements generalizing scope a c is with
  | nil =>
    rw [compileStatements] at h
    obtain ⟨rfl, rfl⟩ := Prod.mk.inj (Except.ok.inj h)
    exact ⟨[], c, rfl, .nil⟩
  | cons s rest ih =>
    obtain ⟨i, is', scope', a₁, h₁, h₂, rfl⟩ := compileStatements_cons h
    obtain ⟨j, c₁, loose₁, twins⟩ := compileStatement_twin ha hc h₁
    have planted := (compileStatement_planted ha h₁).2
    have planted' := (compileStatement_planted hc loose₁).2
    obtain ⟨located, -, ordered⟩ := located_layout ctx lines i planted.ordered
    obtain ⟨located', -, ordered'⟩ := located_layout ctx.loose lines j planted'.ordered
    obtain ⟨js', G, loose₂, restTwins⟩ := ih ordered ordered' h₂
    obtain ⟨growsF, hF, -⟩ := compileStatements_layout ordered h₂
    obtain ⟨growsG, hG, -⟩ := compileStatements_layout ordered' loose₂
    exact ⟨j :: js', G, compileStatements_eq_ok loose₁ loose₂,
      twins F G is' js' (located.trans growsF) hF (located'.trans growsG) hG restTwins⟩

end Compile

/-- Strong typing changes an answer only through the literals it converts. What compiles with it
compiles without it. A conversion that loses nothing keeps the outcome of its operation on every
left operand of the static type. If all operations that are performed without strong typing, and
whose literal strong typing converts, keep their outcomes, then with it the program has the same
value, or an error of the same kind at the same place, and the same bindings. -/
theorem strong_typing_agrees {ctx : BuildContext} {inputs : List (String × Ty)}
    {debugSymbols : Bool} {limit : Nat} {p : Program}
    (hp : compile ctx inputs debugSymbols limit = .ok p) :
    ∃ q, compile ctx.loose inputs debugSymbols limit = .ok q ∧
      (∀ n l v w r, q.arena.Replaced ctx n v w →
        Kernel.Lossless n.op (q.arena.egress n.left) v w →
        l.tag = Tag.ofTy (q.arena.egress n.left) → Kernel.Kept r n.op l v w) ∧
      ∀ (s : Evaluation) (b : Bindings), s.arena = q.arena → b.WellTyped inputs →
        (∀ n l v w, s.Performs q.statements b n l v → q.arena.Replaced ctx n v w →
          Kernel.Kept s.conversions n.op l v w) →
        Evaluation.Answer.Agrees ((s.on p.arena).evalAll p.statements b)
          (s.evalAll q.statements b) := by
  obtain ⟨script, parsed, h⟩ := compile_ok hp
  obtain ⟨js, G, loose, twins⟩ := Compile.compileStatements_twins .empty .empty h
  obtain ⟨-, ordered, -⟩ := Compile.compileStatements_layout .empty loose
  refine ⟨⟨G, js, Compile.returnTy js G⟩, compile_eq_ok parsed loose, ?_, ?_⟩
  · intro n l v w r replaced lossless hl
    exact Arena.kept_of_lossless ordered replaced lossless hl r
  · intro s b hs hb kept
    have respect : b.Respect (.ofInputs inputs) := fun name ty v hty hv =>
      (hb name ty v hty hv).admits
    subst hs
    exact Evaluation.evalFrom_twins twins respect kept .null

/-- The program is the sum of a variable and an `int` literal. -/
def isSum (name : String) (ty : Ty) (k : Int32) (q : Program) : Bool :=
  match q.arena.node? ⟨0⟩, q.arena.node? ⟨1⟩, q.arena.node? ⟨2⟩ with
  | some (.variable x xTy), some (.literal (.int i) _), some (.binary n) =>
    q.statements = [⟨2⟩] ∧ x = name ∧ xTy = ty ∧ i = k ∧ n.op = .add ∧ n.left = ⟨0⟩ ∧ n.right = ⟨1⟩
  | _, _, _ => false

theorem sum_of_isSum {name : String} {ty : Ty} {k : Int32} {q : Program}
    (h : isSum name ty k q = true) :
    q.statements = [⟨2⟩] ∧ q.arena.node? ⟨0⟩ = some (.variable name ty) ∧
      (∃ kTy, q.arena.node? ⟨1⟩ = some (.literal (.int k) kTy)) ∧
      ∃ n, q.arena.node? ⟨2⟩ = some (.binary n) ∧ n.op = .add ∧ n.left = ⟨0⟩ ∧ n.right = ⟨1⟩ := by
  unfold isSum at h
  split at h
  · rename_i x xTy i iTy n h₀ h₁ h₂
    obtain ⟨roots, rfl, rfl, rfl, op, left, right⟩ := of_decide_eq_true h
    exact ⟨roots, h₀, ⟨iTy, h₁⟩, n, h₂, op, left, right⟩
  · contradiction

theorem strong_typing_agrees_sum :
    ∃ p q, compile (strict "x + 1") [("x", .primitive .long)] false 128 = .ok p ∧
      compile (strict "x + 1").loose [("x", .primitive .long)] false 128 = .ok q ∧
      Evaluation.Answer.Agrees
        (Evaluation.evalAll ⟨p.arena, .empty, 16, .accelerated⟩ p.statements
          (.ofList [("x", .long 5)]))
        (Evaluation.evalAll ⟨q.arena, .empty, 16, .accelerated⟩ q.statements
          (.ofList [("x", .long 5)])) := by
  have compiled : (compile (strict "x + 1") [("x", .primitive .long)] false 128).map
      (·.statements.length) = .ok 1 := by
    decide +kernel
  have shape : (compile (strict "x + 1").loose [("x", .primitive .long)] false 128).map
      (isSum "x" (.primitive .long) 1) = .ok true := by
    decide +kernel
  obtain ⟨p, hp, -⟩ := Kernel.map_eq_ok compiled
  obtain ⟨q, hq, lossless, agrees⟩ := strong_typing_agrees hp
  rw [hq] at shape
  obtain ⟨roots, hx, ⟨ty, hone⟩, m, hsum, op, left, right⟩ := sum_of_isSum (Except.ok.inj shape)
  have egress : q.arena.egress ⟨0⟩ = .primitive .long :=
    Arena.egress_eq (compile_layout hq).1 hx
  refine ⟨p, q, hp, hq, agrees ⟨q.arena, .empty, 16, .accelerated⟩ _ rfl
    (Bindings.wellTyped_singleton rfl) fun n l v w performs replaced => ?_⟩
  rw [roots] at performs
  obtain ⟨rfl, rfl⟩ := Evaluation.performed_on_variable hsum (left ▸ hx) (right ▸ hone) rfl
    (show 1 < 16 by decide) rfl (by simp [Evaluation.decided]) performs
  refine lossless n _ v w _ replaced ?_ (by rw [left, egress]; rfl)
  obtain ⟨-, literal, target, u, place, converted, conversion, rfl⟩ := replaced
  rw [right, hone] at literal
  obtain ⟨rfl, rfl⟩ := Node.literal.inj (Option.some.inj literal)
  have htarget := Arena.target_of_converted converted
  rw [op, left, right, egress, Arena.egress_eq (compile_layout hq).1 hone] at htarget
  have htarget : target = .primitive .long := htarget
  rw [htarget] at conversion
  obtain rfl : Value.long 1 = u := Except.ok.inj conversion
  rw [left, egress]
  exact .arithmetic (by rw [op]; rfl) rfl rfl (by simp [Value.heldBy, Value.tag])

/-- The answer of a program for one input, if it is a truth value. -/
def truthOfRun (p : Program) (name : String) (v : Value) : Option Bool :=
  let s : Evaluation := ⟨p.arena, .empty, 16, .accelerated⟩
  match s.evalAll p.statements (.ofList [(name, v)]) with
  | (.ok w, _) => w.toBool?
  | (.error _, _) => none

/-- The literal of `x < 2147483648` becomes the `int` of the lowest number. -/
theorem strong_typing_observable :
    ∃ p q, compile (strict "x < 2147483648") [("x", .primitive .int)] false 128 = .ok p ∧
      compile (strict "x < 2147483648").loose [("x", .primitive .int)] false 128 = .ok q ∧
      (Bindings.ofList [("x", .int 1)]).WellTyped [("x", .primitive .int)] ∧
      ¬ Evaluation.Answer.Agrees
        (Evaluation.evalAll ⟨p.arena, .empty, 16, .accelerated⟩ p.statements
          (.ofList [("x", .int 1)]))
        (Evaluation.evalAll ⟨q.arena, .empty, 16, .accelerated⟩ q.statements
          (.ofList [("x", .int 1)])) := by
  have strong : (compile (strict "x < 2147483648") [("x", .primitive .int)] false 128).map
      (truthOfRun · "x" (.int 1)) = .ok (some false) := by
    decide +kernel
  have loose : (compile (strict "x < 2147483648").loose [("x", .primitive .int)] false 128).map
      (truthOfRun · "x" (.int 1)) = .ok (some true) := by
    decide +kernel
  obtain ⟨p, hp, strong⟩ := Kernel.map_eq_ok strong
  obtain ⟨q, hq, loose⟩ := Kernel.map_eq_ok loose
  refine ⟨p, q, hp, hq, Bindings.wellTyped_singleton rfl, fun agrees => ?_⟩
  simp only [truthOfRun] at strong loose
  generalize Evaluation.evalAll ⟨p.arena, .empty, 16, .accelerated⟩ p.statements
    (.ofList [("x", .int 1)]) = r at agrees strong
  generalize Evaluation.evalAll ⟨q.arena, .empty, 16, .accelerated⟩ q.statements
    (.ofList [("x", .int 1)]) = r' at agrees loose
  cases agrees with
  | value v b =>
    rw [loose] at strong
    contradiction
  | failure b same => contradiction

end Scriptlet
