import Mathlib.Data.List.Nodup
import Scriptlet.Proofs.Compile.Layout
import Scriptlet.Proofs.Source.Positions

/-!
# The located nodes of a program

With debug symbols a node carries a location just if the order of evaluation of its statement
turns to another line with it. Later statements leave the locations of earlier ones.
-/
namespace Scriptlet

/-- The line that a node starts on. -/
def BuildContext.line? (ctx : BuildContext) (a : Arena) (id : NodeId) : Option Nat :=
  (a.span? id).map fun span => (ctx.locate span).line

/-- The line after some nodes: that of the last one which has a line. -/
def BuildContext.lineAfter (ctx : BuildContext) (a : Arena) (previous : Option Nat)
    (ids : List NodeId) : Option Nat :=
  ids.foldl (fun line id => (ctx.line? a id).or line) previous

namespace Arena

/-- The order turns to a line with a node, which starts there while the node before does not. -/
def Turns (ctx : BuildContext) (a : Arena) (ids : List NodeId) (x : NodeId) (line : Nat) : Prop :=
  ∃ front back, ids = front ++ x :: back ∧ ctx.line? a x = some line ∧
    ctx.lineAfter a none front ≠ some line

/-- The first node of the order that starts on a line. -/
def FirstOn (ctx : BuildContext) (a : Arena) (ids : List NodeId) (x : NodeId) (line : Nat) :
    Prop :=
  ∃ front back, ids = front ++ x :: back ∧ ctx.line? a x = some line ∧
    ∀ y ∈ front, ctx.line? a y ≠ some line

variable {ctx : BuildContext} {a a' a'' : Arena}

theorem lineAfter_ne {previous : Option Nat} {line : Nat} {ids : List NodeId}
    (hprevious : previous ≠ some line) (h : ∀ y ∈ ids, ctx.line? a y ≠ some line) :
    ctx.lineAfter a previous ids ≠ some line := by
  induction ids generalizing previous with
  | nil => exact hprevious
  | cons y rest ih =>
    rw [List.forall_mem_cons] at h
    have next : (ctx.line? a y).or previous ≠ some line := by
      cases hy : ctx.line? a y with
      | none => exact hprevious
      | some other =>
        rw [hy] at h
        exact h.1
    exact ih next h.2

theorem FirstOn.turns {ids : List NodeId} {x : NodeId} {line : Nat}
    (h : a.FirstOn ctx ids x line) : a.Turns ctx ids x line := by
  obtain ⟨front, back, hids, hline, before⟩ := h
  exact ⟨front, back, hids, hline, lineAfter_ne (by simp) before⟩

theorem exists_firstOn {ids : List NodeId} {n : NodeId} {line : Nat} (hn : n ∈ ids)
    (hline : ctx.line? a n = some line) :
    ∃ x front back, ids = front ++ n :: back ∧ a.FirstOn ctx ids x line ∧
      (x = n ∨ x ∈ front) := by
  induction ids with
  | nil => contradiction
  | cons y rest ih =>
    by_cases hy : ctx.line? a y = some line
    · rcases List.mem_cons.mp hn with rfl | hn
      · exact ⟨n, [], rest, rfl, ⟨[], rest, rfl, hy, by simp⟩, .inl rfl⟩
      · obtain ⟨front, back, rfl⟩ := List.append_of_mem hn
        exact ⟨y, y :: front, back, rfl, ⟨[], _, rfl, hy, by simp⟩, .inr (by simp)⟩
    · have hn : n ∈ rest := by
        rcases List.mem_cons.mp hn with rfl | hn
        · exact absurd hline hy
        · exact hn
      obtain ⟨x, front, back, hrest, ⟨before, after, hsplit, hx, other⟩, hpos⟩ := ih hn
      refine ⟨x, y :: front, back, by simp [hrest], ⟨y :: before, after, by simp [hsplit], hx,
        ?_⟩, hpos.imp_right (List.mem_cons_of_mem y)⟩
      exact List.forall_mem_cons.mpr ⟨hy, other⟩

/-! ## Cells that stay -/

/-- The first arena is a part of the second one; the nodes after it carry no locations. -/
structure Extends (a a' : Arena) : Prop where
  cell?_eq : ∀ id : NodeId, id.index < a.size → a'.cell? id = a.cell? id
  unlocated : ∀ id : NodeId, a.size ≤ id.index → a'.location? id = none

theorem cell?_of_le {id : NodeId} (h : a.size ≤ id.index) : a.cell? id = none :=
  Array.getElem?_eq_none h

theorem Extends.trans (h : a.Extends a') (k : a'.Extends a'') (size : a.size ≤ a'.size) :
    a.Extends a'' where
  cell?_eq id hid := by rw [k.cell?_eq id (Nat.lt_of_lt_of_le hid size), h.cell?_eq id hid]
  unlocated id hid := by
    rcases Nat.lt_or_ge id.index a'.size with hlt | hge
    · rw [location?, k.cell?_eq id hlt]
      exact h.unlocated id hid
    · exact k.unlocated id hge

theorem extends_push (a : Arena) (node : Node) (span : Option Span) :
    a.Extends (a.push node span).2 where
  cell?_eq id hid := cell?_push_of_lt a node span hid
  unlocated id hid := by
    rw [location?, cell?_push]
    split
    · rfl
    · rw [cell?_of_le hid]
      rfl

theorem Joined.extends {op : Operator} {left right id : NodeId}
    (h : a.Joined ctx op left right (id, a')) : a.Extends a' := by
  rcases h.operands with ⟨node, span, -, h⟩ | ⟨literal, node, span, span', -, -, h⟩
  · rw [(Prod.mk.inj h).2]
    exact a.extends_push node span
  · rw [(Prod.mk.inj h).2]
    exact (a.extends_push literal span).trans (extends_push _ node span')
      (a.grows_push literal span).size_le

end Arena

namespace Compile

open Arena

variable {ctx : BuildContext} {scope : Scope}

theorem build_extends {f : Formula} {a a' : Arena} {id : NodeId} (ha : a.Ordered)
    (h : f.build ctx scope a = .ok (id, a')) : a.Extends a' := by
  induction f generalizing a a' id with
  | leaf l span =>
    rcases compileLeaf_ok h with ⟨v, h⟩ | ⟨name, ty, -, h⟩ <;> obtain ⟨rfl, rfl⟩ := Prod.mk.inj h
    · exact a.extends_push _ _
    · exact a.extends_push _ _
  | group inner span ih =>
    obtain ⟨⟨i, a₁⟩, h₁, h⟩ := bind_eq_ok h
    obtain ⟨rfl, rfl⟩ := Prod.mk.inj (Except.ok.inj h)
    exact (ih ha h₁).trans (a₁.extends_push _ _) (build_planted ha h₁).1.size_le
  | unary op operand span ih =>
    obtain ⟨⟨i, a₁⟩, h₁, h⟩ := bind_eq_ok h
    have size := (build_planted ha h₁).1.size_le
    rcases compileUnary_ok h with ⟨v, w, ty, -, -, -, h⟩ | ⟨-, -, h⟩ <;>
      obtain ⟨rfl, rfl⟩ := Prod.mk.inj h
    · exact (ih ha h₁).trans (a₁.extends_push _ _) size
    · exact (ih ha h₁).trans (a₁.extends_push _ _) size
  | binary op left right ihl ihr =>
    obtain ⟨⟨l, a₁⟩, h₁, h⟩ := bind_eq_ok h
    obtain ⟨⟨r, a₂⟩, h₂, h⟩ := bind_eq_ok h
    obtain ⟨growsLeft, plantedLeft⟩ := build_planted ha h₁
    have growsRight := (build_planted plantedLeft.ordered h₂).1
    have joined := joined_of_buildBinary (ofBuilt_ok h)
    have right := (ihr plantedLeft.ordered h₂).trans joined.extends growsRight.size_le
    exact (ihl ha h₁).trans right growsLeft.size_le

theorem compileStatement_extends {s : Grammar.Statement} {a a' : Arena} {scope' : Scope}
    {id : NodeId} (ha : a.Ordered) (h : compileStatement ctx scope a s = .ok (id, scope', a')) :
    a.Extends a' := by
  cases s with
  | expression e =>
    obtain ⟨id', a'', h₁, h⟩ := compileStatement_expression h
    cases h
    exact build_extends ha h₁
  | assignment name nameSpan value =>
    obtain ⟨id', a'', h₁, h⟩ := compileStatement_assignment h
    cases h
    exact (build_extends ha h₁).trans (a''.extends_push _ _) (build_planted ha h₁).1.size_le

/-! ## Locations of a statement -/

theorem cell?_locateNodes (lines : LineIndex) (previous : Option Nat) {ids : List NodeId}
    {x : NodeId} (hx : x ∉ ids) (a : Arena) :
    (locateNodes ctx lines previous ids a).cell? x = a.cell? x := by
  induction ids generalizing previous a with
  | nil => rfl
  | cons id rest ih =>
    rw [List.mem_cons, not_or] at hx
    rw [locateNodes]
    split
    · exact ih previous hx.2 a
    · dsimp only
      split
      · exact ih previous hx.2 a
      · rw [ih _ hx.2, cell?_setLocation, if_neg fun h => hx.1 h.symm]

theorem location?_setLocation {a : Arena} {x : NodeId} {span : Span} (l : Location)
    (h : a.span? x = some span) : (a.setLocation x l).location? x = some l := by
  rw [location?, cell?_setLocation, if_pos rfl]
  cases hc : a.cell? x with
  | none =>
    rw [span?, hc] at h
    contradiction
  | some c => rfl

theorem line?_setLocation (a : Arena) (id : NodeId) (l : Location) (x : NodeId) :
    ctx.line? (a.setLocation id l) x = ctx.line? a x := by
  have span : (a.setLocation id l).span? x = a.span? x := by
    rw [span?, span?, cell?_setLocation]
    split
    · cases a.cell? x <;> rfl
    · rfl
  rw [BuildContext.line?, BuildContext.line?, span]

/-- A node without location gets one just if the nodes turn to another line with it. -/
theorem location?_locateNodes {previous : Option Nat} {front back : List NodeId} {x : NodeId}
    {a : Arena} (nodup : (front ++ x :: back).Nodup) (unlocated : a.location? x = none) :
    (locateNodes ctx (.ofSource ctx.source) previous (front ++ x :: back) a).location? x =
      ((a.span? x).map ctx.locate).filter
        fun l => decide (ctx.lineAfter a previous front ≠ some l.line) := by
  have hline (span : Span) :
      (LineIndex.ofSource ctx.source).line span.start = (ctx.locate span).line :=
    LineIndex.line_ofSource _ _ _
  induction front generalizing previous a with
  | nil =>
    have hx : x ∉ back := (List.nodup_cons.mp nodup).1
    rw [List.nil_append, locateNodes]
    have later (previous : Option Nat) (a : Arena) :
        (locateNodes ctx (.ofSource ctx.source) previous back a).location? x = a.location? x := by
      rw [location?, location?, cell?_locateNodes _ _ hx]
    cases hspan : a.span? x with
    | none => simpa using (later previous a).trans unlocated
    | some span =>
      simp only [hline, BuildContext.lineAfter, List.foldl_nil, Option.map_some]
      by_cases hp : previous = some (ctx.locate span).line
      · rw [if_pos hp, later, unlocated, Option.filter, if_neg (by simp [hp])]
      · rw [if_neg hp, later, location?_setLocation _ hspan, Option.filter,
          if_pos (by simp [hp])]
  | cons id front ih =>
    have nodup' : (front ++ x :: back).Nodup := (List.nodup_cons.mp nodup).2
    have hne : id ≠ x := by
      rintro rfl
      exact (List.nodup_cons.mp nodup).1 (by simp)
    rw [List.cons_append, locateNodes]
    cases hspan : a.span? id with
    | none =>
      have none : ctx.line? a id = none := by simp [BuildContext.line?, hspan]
      simp only [BuildContext.lineAfter, List.foldl_cons, none, Option.none_or]
      exact ih nodup' unlocated
    | some span =>
      have some : ctx.line? a id = some (ctx.locate span).line := by
        simp [BuildContext.line?, hspan]
      simp only [BuildContext.lineAfter, List.foldl_cons, some, Option.some_or, hline]
      by_cases hp : previous = Option.some (ctx.locate span).line
      · rw [if_pos hp, hp]
        exact ih nodup' unlocated
      · rw [if_neg hp]
        have stays : (a.setLocation id (ctx.locate span)).cell? x = a.cell? x := by
          rw [cell?_setLocation, if_neg hne]
        have unlocated' : (a.setLocation id (ctx.locate span)).location? x = none := by
          rw [location?, stays]
          exact unlocated
        rw [ih nodup' unlocated', span?, stays]
        simp only [BuildContext.lineAfter, line?_setLocation]
        rfl

theorem lineAfter_congr {a a' : Arena} {ids : List NodeId} (previous : Option Nat)
    (h : ∀ y ∈ ids, a'.span? y = a.span? y) :
    ctx.lineAfter a' previous ids = ctx.lineAfter a previous ids := by
  induction ids generalizing previous with
  | nil => rfl
  | cons y rest ih =>
    rw [List.forall_mem_cons] at h
    simp only [BuildContext.lineAfter, BuildContext.line?, List.foldl_cons, h.1]
    exact ih _ h.2

theorem compileStatements_cells {lines : Option LineIndex} {a a' : Arena}
    {statements : List Grammar.Statement} {roots : List NodeId} (ha : a.Ordered)
    (h : compileStatements ctx lines scope a statements = .ok (roots, a')) :
    ∀ x : NodeId, x.index < a.size → a'.cell? x = a.cell? x := by
  induction statements generalizing scope a roots with
  | nil =>
    rw [compileStatements] at h
    obtain ⟨rfl, rfl⟩ := Prod.mk.inj (Except.ok.inj h)
    exact fun x _ => rfl
  | cons s rest ih =>
    obtain ⟨root, roots', scope', a₁, h₁, h₂, rfl⟩ := compileStatements_cons h
    obtain ⟨grows, planted⟩ := compileStatement_planted ha h₁
    obtain ⟨-, size, ordered⟩ := located_layout ctx lines root planted.ordered
    intro x hx
    have hx₁ : x.index < a₁.size := Nat.lt_of_lt_of_le hx grows.size_le
    have outside : x ∉ a₁.order root := by
      intro hmem
      have := planted.low_le x hmem
      omega
    have kept : (located ctx lines root a₁).cell? x = a₁.cell? x := by
      cases lines with
      | none => rfl
      | some lines => exact cell?_locateNodes lines none outside a₁
    rw [ih ordered h₂ x (by omega), kept]
    exact (compileStatement_extends ha h₁).cell?_eq x hx

/-- With debug symbols the nodes of a statement have their locations at the end. -/
theorem compileStatements_located {a a' : Arena} {statements : List Grammar.Statement}
    {roots : List NodeId} (ha : a.Ordered)
    (h : compileStatements ctx (some (.ofSource ctx.source)) scope a statements =
      .ok (roots, a')) :
    ∀ root ∈ roots, ∀ front x back, a'.order root = front ++ x :: back →
      a'.location? x = ((a'.span? x).map ctx.locate).filter
        fun l => decide (ctx.lineAfter a' none front ≠ some l.line) := by
  induction statements generalizing scope a roots with
  | nil =>
    rw [compileStatements] at h
    obtain ⟨rfl, rfl⟩ := Prod.mk.inj (Except.ok.inj h)
    simp
  | cons s rest ih =>
    obtain ⟨root, roots', scope', a₁, h₁, h₂, rfl⟩ := compileStatements_cons h
    have planted := (compileStatement_planted ha h₁).2
    obtain ⟨growsLocated, size, ordered⟩ :=
      located_layout ctx (some (.ofSource ctx.source)) root planted.ordered
    obtain ⟨growsRest, hfinal, -⟩ := compileStatements_layout ordered h₂
    have grows := growsLocated.trans growsRest
    intro r hr front x back hsplit
    rcases List.mem_cons.mp hr with rfl | hr
    · rw [grows.order_eq planted.ordered hfinal planted.index_lt] at hsplit
      have within : ∀ y ∈ a₁.order r, y.index < a₁.size := fun y hy =>
        Nat.lt_of_le_of_lt (le_of_mem_order planted.ordered hy) planted.index_lt
      rw [hsplit] at within
      have hx : x.index < a₁.size := within x (by simp)
      have low : a.size ≤ x.index := planted.low_le x (by simp [hsplit])
      have unlocated : a₁.location? x = none :=
        (compileStatement_extends ha h₁).unlocated x low
      have kept : a'.location? x =
          (located ctx (some (.ofSource ctx.source)) r a₁).location? x := by
        rw [location?, compileStatements_cells ordered h₂ x (by omega)]
        rfl
      rw [kept, located, locate, hsplit,
        location?_locateNodes (hsplit ▸ planted.nodup) unlocated, grows.span?_eq x hx,
        lineAfter_congr none fun y hy => grows.span?_eq y (within y (by simp [hy]))]
    · exact ih ordered h₂ r hr front x back hsplit

end Compile

/-- The located nodes of a program with debug symbols are those with which the order of a
statement turns to another line. -/
theorem location?_iff_turns {ctx : BuildContext} {inputs : List (String × Ty)} {limit : Nat}
    {p : Program} (hp : compile ctx inputs true limit = .ok p) {root : NodeId}
    (hroot : root ∈ p.statements) {x : NodeId} (hx : x ∈ p.arena.order root) (line : Nat) :
    (∃ l, p.arena.location? x = some l ∧ l.file = ctx.fileName ∧ l.line = line) ↔
      p.arena.Turns ctx (p.arena.order root) x line := by
  obtain ⟨script, -, h⟩ := compile_ok hp
  have located := Compile.compileStatements_located .empty h root hroot
  have nodup : (p.arena.order root).Nodup :=
    (List.nodup_flatMap.mp (compile_layout hp).2.2).1 root hroot
  constructor
  · rintro ⟨l, hl, -, rfl⟩
    obtain ⟨front, back, hsplit⟩ := List.append_of_mem hx
    rw [located front x back hsplit, Option.filter_eq_some_iff, Option.map_eq_some_iff] at hl
    obtain ⟨⟨span, hspan, rfl⟩, other⟩ := hl
    refine ⟨front, back, hsplit, ?_, of_decide_eq_true other⟩
    rw [BuildContext.line?, hspan]
    rfl
  · rintro ⟨front, back, hsplit, hline, other⟩
    obtain ⟨span, hspan, rfl⟩ := Option.map_eq_some_iff.mp hline
    refine ⟨ctx.locate span, ?_, rfl, rfl⟩
    rw [located front x back hsplit, hspan, Option.map_some, Option.filter_eq_some_iff]
    exact ⟨rfl, decide_eq_true other⟩

end Scriptlet
