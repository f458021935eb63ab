import Scriptlet.Proofs.Compile.Lines
import Scriptlet.Proofs.Compile.Shape

/-!
# The locations of a statement

Along the order of a tree the spans start later and later, so the order turns to each line of a
statement once. Locations are all that debug symbols add to a program.
-/
namespace Scriptlet

/-- A later offset is on the same line or on a later one. -/
theorem LineIndex.line_mono (index : LineIndex) {m n : Nat} (h : m ≤ n) :
    index.line m ≤ index.line n := by
  obtain ⟨starts⟩ := index
  simp only [line]
  induction starts with
  | nil => exact Nat.le_refl _
  | cons start rest ih =>
    by_cases hm : start ≤ m
    · have hn : start ≤ n := Nat.le_trans hm h
      rw [List.takeWhile_cons_of_pos (by simpa using hm),
        List.takeWhile_cons_of_pos (by simpa using hn)]
      exact Nat.succ_le_succ ih
    · rw [List.takeWhile_cons_of_neg (by simpa using hm)]
      exact Nat.zero_le _

/-- A list is sorted if every member stands in relation to those before it. -/
theorem pairwise_of_split {α : Type} {R : α → α → Prop} {l : List α}
    (h : ∀ front y back, l = front ++ y :: back → ∀ x ∈ front, R x y) : l.Pairwise R := by
  induction l with
  | nil => exact .nil
  | cons x rest ih =>
    refine List.pairwise_cons.mpr ⟨fun y hy => ?_, ih fun front y back hsplit z hz => ?_⟩
    · obtain ⟨front, back, rfl⟩ := List.append_of_mem hy
      exact h (x :: front) y back rfl x (by simp)
    · exact h (x :: front) y back (by rw [hsplit]; rfl) z (by simp [hz])

namespace Arena

variable {ctx : BuildContext} {source : List Char} {a : Arena} {root x : NodeId}

/-! ## Starts along an order -/

/-- The spans of a tree lie in that of its root. -/
theorem Shaped.within_of_mem_order (h : a.Shaped source) (hx : x ∈ a.order root) :
    ∃ s t, a.span? root = some s ∧ a.span? x = some t ∧ t.Within s := by
  induction hi : root.index using Nat.strongRecOn generalizing root with
  | ind i ih =>
    subst hi
    obtain ⟨node, hn⟩ : ∃ node, a.node? root = some node := by
      cases hn : a.node? root with
      | some node => exact ⟨node, rfl⟩
      | none => cases hs : a.size <;> simp [order, orderWithin, hn, hs] at hx
    rw [order_eq h.ordered hn, List.mem_cons, List.mem_flatMap] at hx
    rcases hx with rfl | ⟨y, hy, hx⟩
    · obtain ⟨s, hs, -⟩ := h.spans x node hn
      exact ⟨s, s, hs, hs, Nat.le_refl _, Nat.le_refl _⟩
    · obtain ⟨s, t, hs, ht, within⟩ := h.within root node hn y hy
      obtain ⟨t', u, ht', hu, within'⟩ := ih y.index (h.ordered root node hn y hy) hx rfl
      obtain rfl := Option.some.inj (ht.symm.trans ht')
      exact ⟨s, u, hs, hu, Nat.le_trans within.1 within'.1, Nat.le_trans within'.2 within.2⟩

/-- The node `x` does not start after `y`. -/
def StartsBy (a : Arena) (x y : NodeId) : Prop :=
  ∀ s t, a.span? x = some s → a.span? y = some t → s.start ≤ t.start

/-- The operands of a node start one after the other, and so do the trees under them. -/
theorem Shaped.operands_startsBy (h : a.Shaped source) {node : Node}
    (hn : a.node? root = some node) :
    node.operands.Pairwise fun y z => ∀ u ∈ a.order y, ∀ v ∈ a.order z, a.StartsBy u v := by
  cases node with
  | binary b =>
    refine List.pairwise_pair.mpr fun u hu v hv s t hs ht => ?_
    obtain ⟨l, r, hl, hr, apart⟩ := h.apart root b hn
    obtain ⟨l', s', hl', hs', withinLeft⟩ := h.within_of_mem_order hu
    obtain ⟨r', t', hr', ht', withinRight⟩ := h.within_of_mem_order hv
    obtain rfl := Option.some.inj (hl.symm.trans hl')
    obtain rfl := Option.some.inj (hr.symm.trans hr')
    obtain rfl := Option.some.inj (hs.symm.trans hs')
    obtain rfl := Option.some.inj (ht.symm.trans ht')
    have present := (h.solid hs).present
    have := withinLeft.2
    have := withinRight.1
    omega
  | group | unary | assign => exact List.pairwise_singleton _ _
  | _ => exact .nil

/-- Along the order of a tree no node starts before an earlier one. -/
theorem Shaped.order_startsBy (h : a.Shaped source) (root : NodeId) :
    (a.order root).Pairwise a.StartsBy := by
  induction hi : root.index using Nat.strongRecOn generalizing root with
  | ind i ih =>
    subst hi
    cases hn : a.node? root with
    | none => cases hs : a.size <;> simp [order, orderWithin, hn, hs]
    | some node =>
      rw [order_eq h.ordered hn]
      refine List.pairwise_cons.mpr ⟨fun x hx s t hs ht => ?_, List.pairwise_flatMap.mpr
        ⟨fun y hy => ih y.index (h.ordered root node hn y hy) y rfl, h.operands_startsBy hn⟩⟩
      have inside : x ∈ a.order root := by
        rw [order_eq h.ordered hn]
        exact List.mem_cons_of_mem _ hx
      obtain ⟨s', t', hs', ht', within⟩ := h.within_of_mem_order inside
      obtain rfl := Option.some.inj (hs.symm.trans hs')
      obtain rfl := Option.some.inj (ht.symm.trans ht')
      exact within.1

/-! ## Lines along an order -/

theorem StartsBy.line_le {y : NodeId} (h : a.StartsBy x y) {m n : Nat}
    (hx : ctx.line? a x = some m) (hy : ctx.line? a y = some n) : m ≤ n := by
  obtain ⟨s, hs, rfl⟩ := Option.map_eq_some_iff.mp hx
  obtain ⟨t, ht, rfl⟩ := Option.map_eq_some_iff.mp hy
  have mono := (LineIndex.ofSource ctx.source).line_mono (h s t hs ht)
  rwa [LineIndex.line_ofSource ctx.fileName, LineIndex.line_ofSource ctx.fileName] at mono

/-- After nodes that start in order the line is that of one of them, and no earlier line than
those of the others. -/
theorem exists_lineAfter {ids : List NodeId} {m : Nat} (sorted : ids.Pairwise a.StartsBy)
    (hx : x ∈ ids) (hm : ctx.line? a x = some m) :
    ∃ y ∈ ids, ∃ k, ctx.line? a y = some k ∧ ctx.lineAfter a none ids = some k ∧ m ≤ k := by
  induction ids using List.reverseRecOn with
  | nil => contradiction
  | append_singleton front y ih =>
    obtain ⟨sortedFront, -, cross⟩ := List.pairwise_append.mp sorted
    have after : ctx.lineAfter a none (front ++ [y]) =
        (ctx.line? a y).or (ctx.lineAfter a none front) := by
      simp [BuildContext.lineAfter]
    rw [after]
    cases hy : ctx.line? a y with
    | some k =>
      refine ⟨y, by simp, k, hy, rfl, ?_⟩
      rcases List.mem_append.mp hx with hx | hx
      · exact (cross x hx y (by simp)).line_le hm hy
      · obtain rfl := List.mem_singleton.mp hx
        exact Nat.le_of_eq (Option.some.inj (hm.symm.trans hy))
    | none =>
      have hx : x ∈ front := by
        rcases List.mem_append.mp hx with hx | hx
        · exact hx
        · obtain rfl := List.mem_singleton.mp hx
          rw [hy] at hm
          contradiction
      obtain ⟨z, hz, k, hk, after, le⟩ := ih sortedFront hx
      exact ⟨z, by simp [hz], k, hk, after, le⟩

/-- The lines of the located nodes of a tree, in the order of evaluation. -/
def locatedLines (a : Arena) (root : NodeId) : List Nat :=
  ((a.order root).filterMap a.location?).map (·.line)

end Arena

namespace Compile

open Arena

variable {ctx : BuildContext} {scope : Scope}

/-- Only nodes of statements are located. -/
theorem compileStatements_unlocated {lines : Option LineIndex} {a a' : Arena}
    {statements : List Grammar.Statement} {roots : List NodeId} (ha : a.Ordered)
    (h : compileStatements ctx lines scope a statements = .ok (roots, a')) {x : NodeId}
    (low : a.size ≤ x.index) (outside : ∀ root ∈ roots, x ∉ a'.order root) :
    a'.location? x = none := by
  induction statements generalizing scope a roots with
  | nil =>
    rw [compileStatements] at h
    obtain ⟨rfl, rfl⟩ := Prod.mk.inj (Except.ok.inj h)
    rw [location?, cell?_of_le low]
    rfl
  | cons s rest ih =>
    obtain ⟨root, roots', scope', a₁, h₁, h₂, rfl⟩ := compileStatements_cons h
    obtain ⟨here, later⟩ := List.forall_mem_cons.mp outside
    obtain ⟨-, planted⟩ := compileStatement_planted ha h₁
    obtain ⟨growsLocated, size, ordered⟩ := located_layout ctx lines root planted.ordered
    by_cases hx : x.index < a₁.size
    · obtain ⟨growsRest, hfinal, -⟩ := compileStatements_layout ordered h₂
      rw [(growsLocated.trans growsRest).order_eq planted.ordered hfinal planted.index_lt] at here
      have kept : (located ctx lines root a₁).cell? x = a₁.cell? x := by
        cases lines with
        | none => rfl
        | some lines => exact cell?_locateNodes lines none here a₁
      rw [location?, compileStatements_cells ordered h₂ x (by omega), kept]
      exact (compileStatement_extends ha h₁).unlocated x low
    · exact ih ordered h₂ (by omega) later

end Compile

/-! ## Debug symbols add locations only -/

/-- The arena without its locations. -/
def Arena.unlocated (a : Arena) : Arena := ⟨a.cells.map ({ · with location := none })⟩

/-- The program without its locations. -/
def Program.unlocated (p : Program) : Program := { p with arena := p.arena.unlocated }

namespace Arena

variable (a : Arena)

theorem cell?_unlocated (id : NodeId) :
    a.unlocated.cell? id = (a.cell? id).map ({ · with location := none }) := by
  simp [unlocated, cell?]

theorem nodes_unlocated : a.unlocated.nodes = a.nodes := by
  simp [unlocated, nodes, Function.comp_def]

theorem size_unlocated : a.unlocated.size = a.size := by
  simp [unlocated, size]

theorem node?_unlocated (id : NodeId) : a.unlocated.node? id = a.node? id :=
  node?_congr a.nodes_unlocated id

theorem span?_unlocated (id : NodeId) : a.unlocated.span? id = a.span? id := by
  rw [span?, span?, cell?_unlocated]
  cases a.cell? id <;> rfl

theorem egress_unlocated (id : NodeId) : a.unlocated.egress id = a.egress id :=
  egress_congr a.nodes_unlocated id

theorem push_unlocated (node : Node) (span : Option Span) :
    a.unlocated.push node span = ((a.push node span).1, (a.push node span).2.unlocated) := by
  simp [push, unlocated, size]

theorem setLocation_unlocated (id : NodeId) (l : Location) :
    (a.setLocation id l).unlocated = a.unlocated := by
  obtain ⟨i⟩ := id
  simp only [setLocation, modify, unlocated, Arena.mk.injEq]
  refine Array.ext (by simp) fun j h₁ h₂ => ?_
  simp only [Array.getElem_map, Array.getElem_modify]
  split <;> rfl

theorem empty_unlocated : Arena.empty.unlocated = Arena.empty := by
  simp [unlocated, empty]

end Arena

namespace Compile

open Arena

variable {ctx : BuildContext} {scope : Scope}

/-- The result without locations. -/
def unlocatedNode (r : NodeId × Arena) : NodeId × Arena := (r.1, r.2.unlocated)

theorem pushBinary_unlocated (a : Arena) (op : Operator) (left right : NodeId)
    (egress leftTy rightTy : Ty) (span : Option Span) :
    a.unlocated.pushBinary op left right egress leftTy rightTy span =
      unlocatedNode (a.pushBinary op left right egress leftTy rightTy span) := by
  simp only [pushBinary, push_unlocated, literalTag_congr a.nodes_unlocated, unlocatedNode]

theorem convertLiteral_unlocated (a : Arena) (r : ConversionRegistry) (id : NodeId) (target : Ty) :
    a.unlocated.convertLiteral r id target = (a.convertLiteral r id target).map unlocatedNode := by
  simp only [convertLiteral, node?_unlocated, span?_unlocated, size_unlocated, push_unlocated]
  split
  · split <;> rfl
  · rfl

theorem buildBinary_unlocated (a : Arena) (op : Operator) (left right : NodeId) :
    a.unlocated.buildBinary ctx op left right =
      (a.buildBinary ctx op left right).map unlocatedNode := by
  have joined : a.unlocated.joinedSpan left right = a.joinedSpan left right := by
    simp only [joinedSpan, span?_unlocated]
  have rightOperand (leftTy rightTy : Ty) :
      a.unlocated.rightOperand ctx op right leftTy rightTy =
        a.rightOperand ctx op right leftTy rightTy := by
    simp only [Arena.rightOperand, isLiteral_congr a.nodes_unlocated]
  have incompatible (leftTy rightTy : Ty) :
      a.unlocated.incompatible ctx op left right leftTy rightTy =
        a.incompatible ctx op left right leftTy rightTy := by
    simp only [Arena.incompatible, span?_unlocated]
  simp only [buildBinary, node?_unlocated, joinBinary, egress_unlocated, joined, push_unlocated,
    pushBinary_unlocated, rightOperand, incompatible, convertLiteral_unlocated]
  split
  · rfl
  split
  · rfl
  split
  · rfl
  split
  · split
    · rfl
    · cases a.convertLiteral ctx.conversions right _ with
      | error e => rfl
      | ok r => exact congrArg _ (pushBinary_unlocated r.2 ..)
    · rfl
  · rfl

theorem compileLeaf_unlocated (a : Arena) (span : Span) (l : Grammar.Leaf) :
    compileLeaf ctx scope a.unlocated span l =
      (compileLeaf ctx scope a span l).map unlocatedNode := by
  cases l with
  | null | boolean => simp only [compileLeaf, pushLiteral, push_unlocated]; rfl
  | number text =>
    simp only [compileLeaf, compileNumber, pushLiteral, push_unlocated]
    split <;> rfl
  | string quote body =>
    simp only [compileLeaf, compileString, pushLiteral, push_unlocated]
    split <;> rfl
  | ident name =>
    simp only [compileLeaf, compileName, push_unlocated]
    split
    · rfl
    · split <;> rfl

theorem compileUnary_unlocated (a : Arena) (op : UnaryOp) (operand : NodeId) (span : Span) :
    compileUnary ctx a.unlocated op operand span =
      (compileUnary ctx a op operand span).map unlocatedNode := by
  simp only [compileUnary, folded?, node?_unlocated, egress_unlocated, push_unlocated]
  split
  · rfl
  · split <;> rfl

theorem build_unlocated (f : Formula) (a : Arena) :
    f.build ctx scope a.unlocated = (f.build ctx scope a).map unlocatedNode := by
  induction f generalizing a with
  | leaf l span => exact compileLeaf_unlocated a span l
  | group inner span ih =>
    rw [Formula.build, Formula.build, ih]
    cases inner.build ctx scope a with
    | error e => rfl
    | ok r => exact congrArg Except.ok (push_unlocated r.2 _ _)
  | unary op operand span ih =>
    rw [Formula.build, Formula.build, ih]
    cases operand.build ctx scope a with
    | error e => rfl
    | ok r => exact compileUnary_unlocated r.2 op r.1 span
  | binary op left right ihl ihr =>
    rw [Formula.build, Formula.build, ihl]
    cases left.build ctx scope a with
    | error e => rfl
    | ok l =>
      have second : right.build ctx scope (unlocatedNode l).2 =
          (right.build ctx scope l.2).map unlocatedNode := ihr l.2
      dsimp only [bind, Except.bind, Except.map]
      rw [second]
      cases right.build ctx scope l.2 with
      | error e => rfl
      | ok r =>
        have built : r.2.unlocated.buildBinary ctx op l.1 r.1 =
            (r.2.buildBinary ctx op l.1 r.1).map unlocatedNode :=
          buildBinary_unlocated r.2 op l.1 r.1
        dsimp only [Except.map, unlocatedNode]
        rw [built]
        cases r.2.buildBinary ctx op l.1 r.1 <;> rfl

theorem compileStatement_unlocated (a : Arena) (s : Grammar.Statement) :
    compileStatement ctx scope a.unlocated s =
      (compileStatement ctx scope a s).map fun r => (r.1, r.2.1, r.2.2.unlocated) := by
  cases s with
  | expression e =>
    rw [compileStatement, compileStatement, Formula.compileExpression_eq,
      Formula.compileExpression_eq, build_unlocated]
    cases (Formula.ofExpression e).build ctx scope a <;> rfl
  | assignment name nameSpan value =>
    rw [compileStatement, compileStatement, Formula.compileExpression_eq,
      Formula.compileExpression_eq, build_unlocated]
    cases (Formula.ofExpression value).build ctx scope a with
    | error e => rfl
    | ok r =>
      dsimp only [Except.map, unlocatedNode]
      rw [egress_unlocated, push_unlocated]

theorem locate_unlocated (lines : Option LineIndex) (root : NodeId) (a : Arena) :
    (located ctx lines root a).unlocated = a.unlocated := by
  have located (lines : LineIndex) (previous : Option Nat) (ids : List NodeId) (a : Arena) :
      (locateNodes ctx lines previous ids a).unlocated = a.unlocated := by
    induction ids generalizing previous a with
    | nil => rfl
    | cons id rest ih =>
      rw [locateNodes]
      split
      · exact ih previous a
      · dsimp only
        split
        · exact ih previous a
        · rw [ih, setLocation_unlocated]
  cases lines with
  | none => rfl
  | some lines => exact located lines none (a.order root) a

/-- Without debug symbols statements become the same nodes with the same spans. -/
theorem compileStatements_unlocatedRun (ctx : BuildContext) (lines : Option LineIndex)
    (scope : Scope) (a : Arena) (ss : List Grammar.Statement) :
    compileStatements ctx none scope a.unlocated ss =
      (compileStatements ctx lines scope a ss).map fun r => (r.1, r.2.unlocated) := by
  induction ss generalizing scope a with
  | nil => rfl
  | cons s rest ih =>
    rw [compileStatements, compileStatements, compileStatement_unlocated]
    cases compileStatement ctx scope a s with
    | error e => rfl
    | ok r =>
      obtain ⟨root, scope', a₁⟩ := r
      have later := ih scope' (located ctx lines root a₁)
      rw [locate_unlocated] at later
      have plain : located ctx none root a₁.unlocated = a₁.unlocated := rfl
      dsimp only [Except.map]
      rw [plain, later]
      cases compileStatements ctx lines scope' (located ctx lines root a₁) rest <;> rfl

end Compile

/-- Without debug symbols a source compiles to the same program without its locations, or fails
in the same way. -/
theorem compile_unlocated (ctx : BuildContext) (inputs : List (String × Ty)) (limit : Nat) :
    compile ctx inputs false limit = (compile ctx inputs true limit).map Program.unlocated := by
  unfold compile
  cases Grammar.parse limit ctx.source with
  | error e => rfl
  | ok script =>
    have same := Compile.compileStatements_unlocatedRun ctx (debugLines ctx true)
      (.ofInputs inputs) .empty script.statements
    rw [Arena.empty_unlocated] at same
    have plain : debugLines ctx false = none := rfl
    simp only [plain, same]
    cases Compile.compileStatements ctx (debugLines ctx true) (.ofInputs inputs) .empty
      script.statements with
    | error e => rfl
    | ok r =>
      have ty : Compile.returnTy r.1 r.2.unlocated = Compile.returnTy r.1 r.2 :=
        Compile.returnTy_same r.2.nodes_unlocated r.1
      simp only [Except.map, ty, Program.unlocated]

/-! ## Programs -/

section

variable {ctx : BuildContext} {inputs : List (String × Ty)} {limit : Nat} {p : Program}

/-- A node of a statement is located, at the start of its span, just if the node before it in the
order starts on another line. -/
theorem location?_eq_of_order (hp : compile ctx inputs true limit = .ok p) {root : NodeId}
    (hroot : root ∈ p.statements) {front back : List NodeId} {x : NodeId}
    (hsplit : p.arena.order root = front ++ x :: back) :
    p.arena.location? x = ((p.arena.span? x).map ctx.locate).filter
      fun l => decide (ctx.lineAfter p.arena none front ≠ some l.line) := by
  obtain ⟨script, -, h⟩ := compile_ok hp
  exact Compile.compileStatements_located .empty h root hroot front x back hsplit

/-- A location is at the start of the span of its node, which is on that line. -/
theorem of_location?_eq_some (hp : compile ctx inputs true limit = .ok p) {root x : NodeId}
    (hroot : root ∈ p.statements) (hx : x ∈ p.arena.order root) {l : Location}
    (hl : p.arena.location? x = some l) :
    (∃ s, p.arena.span? x = some s ∧ l = ctx.locate s) ∧ ctx.line? p.arena x = some l.line := by
  obtain ⟨front, back, hsplit⟩ := List.append_of_mem hx
  rw [location?_eq_of_order hp hroot hsplit, Option.filter_eq_some_iff, Option.map_eq_some_iff]
    at hl
  obtain ⟨⟨s, hs, rfl⟩, -⟩ := hl
  exact ⟨⟨s, hs, rfl⟩, by rw [BuildContext.line?, hs, Option.map_some]⟩

theorem mem_locatedLines (hp : compile ctx inputs true limit = .ok p) {root : NodeId}
    (hroot : root ∈ p.statements) {line : Nat} :
    line ∈ p.arena.locatedLines root ↔
      ∃ x ∈ p.arena.order root, ctx.line? p.arena x = some line := by
  rw [Arena.locatedLines, List.mem_map]
  constructor
  · rintro ⟨l, hl, rfl⟩
    obtain ⟨x, hx, hlx⟩ := List.mem_filterMap.mp hl
    exact ⟨x, hx, (of_location?_eq_some hp hroot hx hlx).2⟩
  · rintro ⟨x, hx, hline⟩
    obtain ⟨y, -, -, -, first, -⟩ := Arena.exists_firstOn hx hline
    have hy : y ∈ p.arena.order root := by
      obtain ⟨front, back, hsplit, -⟩ := first
      rw [hsplit]
      simp
    obtain ⟨l, hl, -, rfl⟩ := (location?_iff_turns hp hroot hy line).mpr first.turns
    exact ⟨l, List.mem_filterMap.mpr ⟨y, hy, hl⟩, rfl⟩

/-- A located node is on a later line than all located nodes before it: the line of the node right
before it is another one, and no later one. -/
theorem locatedLines_pairwise (hp : compile ctx inputs true limit = .ok p) {root : NodeId}
    (hroot : root ∈ p.statements) : (p.arena.locatedLines root).Pairwise (· < ·) := by
  have sorted := (wellFormed_of_compile hp).shaped.order_startsBy root
  rw [Arena.locatedLines, List.pairwise_map, List.pairwise_filterMap]
  refine pairwise_of_split fun front y back hsplit x hx l hl l' hl' => ?_
  have inside : x ∈ p.arena.order root := by simp [hsplit, hx]
  obtain ⟨-, hm⟩ := of_location?_eq_some hp hroot inside hl
  obtain ⟨-, hn⟩ := of_location?_eq_some hp hroot (by simp [hsplit]) hl'
  rw [hsplit] at sorted
  obtain ⟨sortedFront, -, cross⟩ := List.pairwise_append.mp sorted
  obtain ⟨z, hz, k, hk, after, le⟩ := Arena.exists_lineAfter sortedFront hx hm
  have upper : k ≤ l'.line := (cross z hz y (by simp)).line_le hk hn
  rw [location?_eq_of_order hp hroot hsplit, Option.filter_eq_some_iff] at hl'
  have turned : ctx.lineAfter p.arena none front ≠ some l'.line := of_decide_eq_true hl'.2
  have ne : k ≠ l'.line := fun h => turned (after.trans (congrArg some h))
  omega

theorem location?_root (hp : compile ctx inputs true limit = .ok p) {root : NodeId}
    (hroot : root ∈ p.statements) : (p.arena.location? root).isSome = true := by
  have formed := wellFormed_of_compile hp
  obtain ⟨node, hn⟩ := Arena.node?_isSome (formed.within root hroot)
  obtain ⟨s, hs, -⟩ := formed.shaped.spans root node hn
  have first : p.arena.order root = [] ++ root :: node.operands.flatMap p.arena.order :=
    Arena.order_eq formed.shaped.ordered hn
  rw [location?_eq_of_order hp hroot first, hs]
  rfl

end

/-- With debug symbols every statement is located, the lines of its located nodes rise along the
order of evaluation, and they are all lines on which a node of it starts. Locations stand at the
starts of nodes of statements. But for them the program is that without debug symbols. -/
theorem locations_cover_lines {ctx : BuildContext} {inputs : List (String × Ty)} {limit : Nat}
    {p : Program} (hp : compile ctx inputs true limit = .ok p) :
    (∀ root ∈ p.statements, (p.arena.location? root).isSome = true ∧
      (p.arena.locatedLines root).Pairwise (· < ·) ∧
      ∀ line, line ∈ p.arena.locatedLines root ↔
        ∃ x ∈ p.arena.order root, ctx.line? p.arena x = some line) ∧
    (∀ x l, p.arena.location? x = some l →
      (∃ root ∈ p.statements, x ∈ p.arena.order root) ∧
      ∃ s, p.arena.span? x = some s ∧ l = .ofOffset ctx.fileName ctx.source s.start) ∧
    compile ctx inputs false limit = .ok p.unlocated := by
  refine ⟨fun root hroot => ⟨location?_root hp hroot, locatedLines_pairwise hp hroot,
    fun line => mem_locatedLines hp hroot⟩, fun x l hl => ?_, ?_⟩
  · have inside : ∃ root ∈ p.statements, x ∈ p.arena.order root := by
      by_contra outside
      obtain ⟨script, -, h⟩ := compile_ok hp
      have unlocated := Compile.compileStatements_unlocated .empty h (x := x) (Nat.zero_le _)
        fun root hroot hx => outside ⟨root, hroot, hx⟩
      rw [unlocated] at hl
      contradiction
    obtain ⟨root, hroot, hx⟩ := inside
    exact ⟨⟨root, hroot, hx⟩, (of_location?_eq_some hp hroot hx hl).1⟩
  · rw [compile_unlocated, hp]
    rfl

/-- The second statement starts on the line that the first one ends on. Nothing of it starts on its
last line, since the signs there are part of a literal that starts before. -/
theorem locations_cover_lines_folded :
    ∃ p, compile (strict "x = a *\n(a\n+ 2L); x\n- -\n-7") [("a", .primitive .int)] true 128 =
        .ok p ∧
      p.statements.map p.arena.locatedLines = [[1, 2, 3], [3, 4]] ∧
      (∀ root ∈ p.statements, (p.arena.locatedLines root).Pairwise (· < ·)) ∧
      compile (strict "x = a *\n(a\n+ 2L); x\n- -\n-7") [("a", .primitive .int)] false 128 =
        .ok p.unlocated := by
  have lines : (compile (strict "x = a *\n(a\n+ 2L); x\n- -\n-7") [("a", .primitive .int)] true
      128).map (fun p => p.statements.map p.arena.locatedLines) = .ok [[1, 2, 3], [3, 4]] := by
    decide +kernel
  obtain ⟨p, hp, located⟩ := Kernel.map_eq_ok lines
  obtain ⟨covered, -, plain⟩ := locations_cover_lines hp
  exact ⟨p, hp, located, fun root hroot => (covered root hroot).2.1, plain⟩

end Scriptlet
