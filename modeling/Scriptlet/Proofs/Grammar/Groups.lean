import Mathlib.Data.List.Chain
import Mathlib.Data.List.Perm.Subperm
import Scriptlet.Grammar.Outline
import Scriptlet.Proofs.Grammar.Yield

/-!
# Groups

A group lies in the groups around it. How many these are can be told from the ranges alone, from
the tree, and by counting parentheses in the tokens.
-/
namespace Scriptlet

namespace Span

/-- No byte stands outside of the outer span. -/
def Within (inner outer : Span) : Prop := outer.start ≤ inner.start ∧ inner.stop ≤ outer.stop

instance (inner outer : Span) : Decidable (inner.Within outer) := by
  unfold Within
  infer_instance

/-- The outer span goes further on both sides. -/
def Inside (inner outer : Span) : Prop := outer.start < inner.start ∧ inner.stop < outer.stop

end Span

namespace Grammar

/-- The number of groups that the span lies in, itself counted. -/
def nesting (groups : List Span) (s : Span) : Nat := groups.countP fun g => decide (s.Within g)

theorem nesting_append (groups groups' : List Span) (s : Span) :
    nesting (groups ++ groups') s = nesting groups s + nesting groups' s := List.countP_append ..

theorem nesting_cons_of_within {s g : Span} (h : s.Within g) (groups : List Span) :
    nesting (g :: groups) s = nesting groups s + 1 :=
  List.countP_cons_of_pos (decide_eq_true h)

theorem nesting_eq_zero {groups : List Span} {s : Span} (h : ∀ g ∈ groups, ¬ s.Within g) :
    nesting groups s = 0 :=
  List.countP_eq_zero.mpr fun g hg around => h g hg (of_decide_eq_true around)

/-- Groups each inside of the one before. -/
def Nested (chain : List Span) : Prop := chain.IsChain fun outer inner => inner.Inside outer

theorem Nested.pairwise {chain : List Span} (h : Nested chain) :
    chain.Pairwise fun outer inner => inner.Inside outer := by
  have : Trans (fun outer inner : Span => inner.Inside outer)
      (fun outer inner : Span => inner.Inside outer)
      (fun outer inner : Span => inner.Inside outer) :=
    ⟨fun h h' => ⟨Nat.lt_trans h.1 h'.1, Nat.lt_trans h'.2 h.2⟩⟩
  exact List.isChain_iff_pairwise.mp h

/-- A chain of groups is no longer than its last group is nested. -/
theorem Nested.length_le {groups front : List Span} {last : Span} (h : Nested (front ++ [last]))
    (all : ∀ g ∈ front ++ [last], g ∈ groups) :
    (front ++ [last]).length ≤ nesting groups last := by
  have nodup : (front ++ [last]).Nodup :=
    h.pairwise.imp fun inside heq => by
      subst heq
      exact Nat.lt_irrefl _ inside.1
  have around : ∀ g ∈ front ++ [last], last.Within g := by
    intro g hg
    rcases List.mem_append.mp hg with hg | hg
    · obtain ⟨hstart, hstop⟩ :=
        (List.pairwise_append.mp h.pairwise).2.2 g hg last (List.mem_singleton_self last)
      exact ⟨Nat.le_of_lt hstart, Nat.le_of_lt hstop⟩
    · rw [List.mem_singleton.mp hg]
      exact ⟨Nat.le_refl _, Nat.le_refl _⟩
  have covered : front ++ [last] ⊆ groups.filter fun g => decide (last.Within g) := by
    intro g hg
    exact List.mem_filter.mpr ⟨all g hg, decide_eq_true (around g hg)⟩
  rw [nesting, List.countP_eq_length_filter]
  exact (List.Nodup.subperm nodup covered).length_le

/-! ## Levels of groups -/

mutual

/-- The groups of a tree under `depth` parentheses, in source order, each with its nesting. -/
def Primary.levels (depth : Nat) : Primary → List (Nat × Span)
  | .leaf _ _ => []
  | .group inner span => (depth + 1, span) :: inner.levels (depth + 1)

def Operand.levels (depth : Nat) : Operand → List (Nat × Span)
  | .mk _ primary => primary.levels depth

def Links.levels (depth : Nat) : Links → List (Nat × Span)
  | .nil => []
  | .cons _ _ operand rest => operand.levels depth ++ rest.levels depth

def Expression.levels (depth : Nat) : Expression → List (Nat × Span)
  | .mk first links _ => first.levels depth ++ links.levels depth

end

def Statement.levels : Statement → List (Nat × Span)
  | .expression e => e.levels 0
  | .assignment _ _ value => value.levels 0

/-- The ranges of the groups of a script, in source order. -/
def Script.groups (s : Script) : List Span := spansOf (· = .grouped) s.outline

mutual

theorem Primary.groups_outline (depth nesting : Nat) :
    ∀ p : Primary, spansOf (· = .grouped) (p.outline depth) = (p.levels nesting).map (·.2)
  | .leaf l span => by
    refine spansOf_eq_nil fun r hr => ?_
    cases l <;>
      simp only [Primary.outline, Leaf.outline, List.mem_cons, List.not_mem_nil, or_false] at hr
    case string quote body =>
      rcases hr with rfl | rfl
      · simp
      · dsimp only
        split <;> simp
    all_goals simp [hr]
  | .group inner span => by
    rw [Primary.outline, Primary.levels, List.map_cons, ← inner.groups_outline (depth + 1)]
    rfl

theorem Operand.groups_outline (depth nesting : Nat) :
    ∀ o : Operand, spansOf (· = .grouped) (o.outline depth) = (o.levels nesting).map (·.2)
  | .mk signs primary => by
    have unsigned : spansOf (· = .grouped) (signs.map (·.row (depth + 1))) = [] := by
      refine spansOf_eq_nil fun r hr => ?_
      obtain ⟨sign, -, rfl⟩ := List.mem_map.mp hr
      unfold Sign.row
      dsimp only
      split <;> simp
    rw [Operand.outline, spansOf_cons (by simp), spansOf_append, unsigned, List.nil_append,
      Operand.levels, primary.groups_outline]

theorem Links.groups_outline (depth nesting : Nat) :
    ∀ links : Links, spansOf (· = .grouped) (links.outline depth) = (links.levels nesting).map (·.2)
  | .nil => rfl
  | .cons op span operand rest => by
    rw [Links.outline, spansOf_cons (by simp), spansOf_append, Links.levels, List.map_append,
      operand.groups_outline, rest.groups_outline]

theorem Expression.groups_outline (depth nesting : Nat) :
    ∀ e : Expression, spansOf (· = .grouped) (e.outline depth) = (e.levels nesting).map (·.2)
  | .mk first links span => by
    rw [Expression.outline, spansOf_cons (by simp), spansOf_append, Expression.levels,
      List.map_append, first.groups_outline, links.groups_outline]

end

theorem Statement.groups_outline (depth : Nat) (s : Statement) :
    spansOf (· = .grouped) (s.outline depth) = s.levels.map (·.2) := by
  cases s with
  | expression e => exact e.groups_outline depth 0
  | assignment name nameSpan value =>
    rw [outline, spansOf_cons (by simp), spansOf_cons (by simp), levels,
      value.groups_outline]

theorem Script.groups_eq (s : Script) :
    s.groups = (s.statements.flatMap Statement.levels).map (·.2) := by
  have statements (ss : List Statement) :
      spansOf (· = .grouped) (ss.flatMap (·.outline 1)) =
        (ss.flatMap Statement.levels).map (·.2) := by
    induction ss with
    | nil => rfl
    | cons s rest ih =>
      rw [List.flatMap_cons, List.flatMap_cons, spansOf_append, s.groups_outline, ih,
        List.map_append]
  rw [groups, outline, spansOf_cons (by simp), spansOf_append, statements,
    spansOf_eq_nil (by simp), List.append_nil]

/-! ## Where groups stand -/

/-- Tokens one after the other, each with characters. -/
structure Ordered (ts : List Lexeme) : Prop where
  sorted : ts.Pairwise fun a b => a.span.stop ≤ b.span.start
  present : ∀ t ∈ ts, t.span.start < t.span.stop

theorem Ordered.append {ts ts' : List Lexeme} (h : Ordered (ts ++ ts')) :
    Ordered ts ∧ Ordered ts' ∧ ∀ a ∈ ts, ∀ b ∈ ts', a.span.stop ≤ b.span.start := by
  obtain ⟨left, right, cross⟩ := List.pairwise_append.mp h.sorted
  obtain ⟨present, present'⟩ := List.forall_mem_append.mp h.present
  exact ⟨⟨left, present⟩, ⟨right, present'⟩, cross⟩

theorem Ordered.tail {t : Lexeme} {ts : List Lexeme} (h : Ordered (t :: ts)) : Ordered ts :=
  ⟨h.sorted.tail, (List.forall_mem_cons.mp h.present).2⟩

/-- Levels of groups that stand among the tokens, under `depth` parentheses. -/
structure Placed (depth : Nat) (ts : List Lexeme) (levels : List (Nat × Span)) : Prop where
  present : ∀ l ∈ levels, l.2.start < l.2.stop
  opened : ∀ l ∈ levels, ∃ t ∈ ts, t.span.start = l.2.start
  closed : ∀ l ∈ levels, ∃ t ∈ ts, t.span.stop = l.2.stop
  sorted : levels.Pairwise fun l l' => l.2.start < l'.2.start
  counted : ∀ l ∈ levels, l.1 = depth + nesting (levels.map (·.2)) l.2
  chained : ∀ l ∈ levels, ∃ chain, Nested chain ∧ (∀ g ∈ chain, g ∈ levels.map (·.2)) ∧
    l.1 = depth + chain.length

variable {depth : Nat} {ts ts' : List Lexeme} {levels levels' : List (Nat × Span)}

theorem Placed.nil : Placed depth ts [] := by
  constructor <;> simp

theorem Placed.mono (h : Placed depth ts levels) (sub : ts ⊆ ts') : Placed depth ts' levels :=
  { h with
    opened := fun l hl => (h.opened l hl).imp fun _ ht => ⟨sub ht.1, ht.2⟩
    closed := fun l hl => (h.closed l hl).imp fun _ ht => ⟨sub ht.1, ht.2⟩ }

/-- Groups of other tokens lie neither around nor inside. -/
theorem Placed.append (h : Placed depth ts levels) (h' : Placed depth ts' levels')
    (cross : ∀ a ∈ ts, ∀ b ∈ ts', a.span.stop ≤ b.span.start) :
    Placed depth (ts ++ ts') (levels ++ levels') := by
  have apart : ∀ l ∈ levels, ∀ l' ∈ levels', l.2.stop ≤ l'.2.start := by
    intro l hl l' hl'
    obtain ⟨a, ha, hstop⟩ := h.closed l hl
    obtain ⟨b, hb, hstart⟩ := h'.opened l' hl'
    rw [← hstop, ← hstart]
    exact cross a ha b hb
  have left (l) (hl : l ∈ levels) : nesting (levels'.map (·.2)) l.2 = 0 := by
    refine nesting_eq_zero fun g hg around => ?_
    obtain ⟨l', hl', rfl⟩ := List.mem_map.mp hg
    have := around.1
    have := apart l hl l' hl'
    have := h.present l hl
    omega
  have right (l') (hl' : l' ∈ levels') : nesting (levels.map (·.2)) l'.2 = 0 := by
    refine nesting_eq_zero fun g hg around => ?_
    obtain ⟨l, hl, rfl⟩ := List.mem_map.mp hg
    have := around.2
    have := apart l hl l' hl'
    have := h'.present l' hl'
    omega
  refine ⟨?_, ?_, ?_, ?_, ?_, ?_⟩
  · exact List.forall_mem_append.mpr ⟨h.present, h'.present⟩
  · exact List.forall_mem_append.mpr ⟨(h.mono (List.subset_append_left ..)).opened,
      (h'.mono (List.subset_append_right ..)).opened⟩
  · exact List.forall_mem_append.mpr ⟨(h.mono (List.subset_append_left ..)).closed,
      (h'.mono (List.subset_append_right ..)).closed⟩
  · refine List.pairwise_append.mpr ⟨h.sorted, h'.sorted, fun l hl l' hl' => ?_⟩
    exact Nat.lt_of_lt_of_le (h.present l hl) (apart l hl l' hl')
  · simp only [List.map_append, nesting_append]
    refine List.forall_mem_append.mpr ⟨fun l hl => ?_, fun l' hl' => ?_⟩
    · rw [left l hl, Nat.add_zero, h.counted l hl]
    · rw [right l' hl', Nat.zero_add, h'.counted l' hl']
  · rw [List.map_append]
    refine List.forall_mem_append.mpr ⟨fun l hl => ?_, fun l' hl' => ?_⟩
    · obtain ⟨chain, nested, all, length⟩ := h.chained l hl
      exact ⟨chain, nested, fun g hg => List.mem_append_left _ (all g hg), length⟩
    · obtain ⟨chain, nested, all, length⟩ := h'.chained l' hl'
      exact ⟨chain, nested, fun g hg => List.mem_append_right _ (all g hg), length⟩

/-- A group lies around the groups between its parentheses. -/
theorem Placed.group {o c : Lexeme} {span : Span} (h : Placed (depth + 1) ts levels)
    (ordered : Ordered (o :: (ts ++ [c]))) (opens : o.span.start = span.start)
    (closes : c.span.stop = span.stop) :
    Placed depth (o :: (ts ++ [c])) ((depth + 1, span) :: levels) := by
  have first : o.span.start < o.span.stop := ordered.present o (List.mem_cons_self ..)
  have last : c.span.start < c.span.stop := ordered.present c (by simp)
  have after : ∀ t ∈ ts ++ [c], o.span.stop ≤ t.span.start :=
    (List.pairwise_cons.mp ordered.sorted).1
  have before : ∀ t ∈ ts, t.span.stop ≤ c.span.start := fun t ht =>
    (List.pairwise_append.mp (List.pairwise_cons.mp ordered.sorted).2).2.2 t ht c (by simp)
  have inside : ∀ l ∈ levels, l.2.Inside span := by
    intro l hl
    obtain ⟨a, ha, hstart⟩ := h.opened l hl
    obtain ⟨b, hb, hstop⟩ := h.closed l hl
    have := after a (List.mem_append_left _ ha)
    have := before b hb
    exact ⟨by omega, by omega⟩
  have whole : span.start < span.stop := by
    have := after c (by simp)
    omega
  have sub : ts ⊆ o :: (ts ++ [c]) := fun t ht => List.mem_cons_of_mem _ (List.mem_append_left _ ht)
  refine ⟨?_, ?_, ?_, ?_, ?_, ?_⟩
  · exact List.forall_mem_cons.mpr ⟨whole, h.present⟩
  · exact List.forall_mem_cons.mpr ⟨⟨o, List.mem_cons_self .., opens⟩, (h.mono sub).opened⟩
  · exact List.forall_mem_cons.mpr ⟨⟨c, by simp, closes⟩, (h.mono sub).closed⟩
  · exact List.pairwise_cons.mpr ⟨fun l hl => (inside l hl).1, h.sorted⟩
  · rw [List.map_cons]
    refine List.forall_mem_cons.mpr ⟨?_, fun l hl => ?_⟩
    · have alone : nesting (levels.map (·.2)) span = 0 := by
        refine nesting_eq_zero fun g hg around => ?_
        obtain ⟨l, hl, rfl⟩ := List.mem_map.mp hg
        exact absurd around.1 (Nat.not_le_of_lt (inside l hl).1)
      rw [nesting_cons_of_within ⟨Nat.le_refl _, Nat.le_refl _⟩, alone]
    · have within : l.2.Within span :=
        ⟨Nat.le_of_lt (inside l hl).1, Nat.le_of_lt (inside l hl).2⟩
      rw [nesting_cons_of_within within, h.counted l hl]
      omega
  · rw [List.map_cons]
    refine List.forall_mem_cons.mpr ⟨?_, fun l hl => ?_⟩
    · exact ⟨[span], .singleton _, by simp, rfl⟩
    · obtain ⟨chain, nested, all, length⟩ := h.chained l hl
      refine ⟨span :: chain, List.isChain_cons.mpr ⟨fun g hg => ?_, nested⟩, ?_, ?_⟩
      · obtain ⟨l', hl', rfl⟩ := List.mem_map.mp (all g (List.mem_of_mem_head? hg))
        exact inside l' hl'
      · exact List.forall_mem_cons.mpr ⟨List.mem_cons_self ..,
          fun g hg => List.mem_cons_of_mem _ (all g hg)⟩
      · rw [length, List.length_cons]
        omega

mutual

theorem Primary.placed (depth : Nat) :
    ∀ p : Primary, Ordered p.lexemes → Placed depth p.lexemes (p.levels depth)
  | .leaf l span, _ => by
    rw [Primary.levels]
    exact .nil
  | .group inner span, ordered => by
    rw [Primary.lexemes] at ordered ⊢
    exact (inner.placed (depth + 1) ordered.tail.append.1).group ordered rfl rfl

theorem Operand.placed (depth : Nat) :
    ∀ o : Operand, Ordered o.lexemes → Placed depth o.lexemes (o.levels depth)
  | .mk signs primary, ordered => by
    rw [Operand.lexemes] at ordered ⊢
    exact (primary.placed depth ordered.append.2.1).mono (List.subset_append_right ..)

theorem Links.placed (depth : Nat) :
    ∀ links : Links, Ordered links.lexemes → Placed depth links.lexemes (links.levels depth)
  | .nil, _ => by
    rw [Links.levels]
    exact .nil
  | .cons op span operand rest, ordered => by
    rw [Links.lexemes] at ordered ⊢
    obtain ⟨left, right, cross⟩ := ordered.tail.append
    exact ((operand.placed depth left).append (rest.placed depth right) cross).mono
      (List.subset_cons_self ..)

theorem Expression.placed (depth : Nat) :
    ∀ e : Expression, Ordered e.lexemes → Placed depth e.lexemes (e.levels depth)
  | .mk first links span, ordered => by
    rw [Expression.lexemes] at ordered ⊢
    obtain ⟨left, right, cross⟩ := ordered.append
    exact (first.placed depth left).append (links.placed depth right) cross

end

theorem Statement.Spelled.placed {s : Statement} {ts : List Lexeme} (h : s.Spelled ts)
    (ordered : Ordered ts) : Placed 0 ts s.levels := by
  cases h with
  | expression e => exact e.placed 0 ordered
  | assignment name nameSpan span value =>
    exact (value.placed 0 ordered.tail.tail).mono
      (List.Subset.trans (List.subset_cons_self ..) (List.subset_cons_self ..))

theorem Ordered.skipSemicolons {ts : List Lexeme} (h : Ordered ts) :
    Ordered (skipSemicolons ts) := by
  obtain ⟨semicolons, heq, -⟩ := skipSemicolons_append ts
  rw [heq] at h
  exact h.append.2.1

theorem Sequence.placed {ts : List Lexeme} {ss : List Statement} (h : Sequence ts ss)
    (ordered : Ordered ts) : Placed 0 ts (ss.flatMap Statement.levels) := by
  induction h with
  | nil => exact .nil
  | last spelled => simpa using spelled.placed ordered
  | @more s ts rest t ss spelled semicolon later ih =>
    obtain ⟨left, right, cross⟩ := ordered.append
    have sub : skipSemicolons rest ⊆ t :: rest :=
      List.Subset.trans (List.dropWhile_subset ..) (List.subset_cons_self ..)
    rw [List.flatMap_cons]
    exact (spelled.placed left).append ((ih right.tail.skipSemicolons).mono sub) cross

/-! ## Counting parentheses -/

/-- The start of the first parenthesis that has `limit` open ones before it. -/
def deepStart? (limit depth : Nat) : List Lexeme → Option Nat
  | [] => none
  | t :: rest =>
    match t.token with
    | .lparen => if limit ≤ depth then some t.span.start else deepStart? limit (depth + 1) rest
    | .rparen => deepStart? limit (depth - 1) rest
    | _ => deepStart? limit depth rest

theorem deepStart?_other {limit : Nat} {t : Lexeme} (h : t.token ≠ .lparen ∧ t.token ≠ .rparen)
    (rest : List Lexeme) : deepStart? limit depth (t :: rest) = deepStart? limit depth rest := by
  rw [deepStart?]
  split
  · rename_i h'
    exact absurd h' h.1
  · rename_i h'
    exact absurd h' h.2
  · rfl

section

variable (limit depth : Nat)

/-- The start of the first group that is nested too deep. -/
def deepGroup? (levels : List (Nat × Span)) : Option Nat :=
  (levels.find? fun l => decide (limit < l.1)).map (·.2.start)

theorem deepGroup?_append (levels levels' : List (Nat × Span)) :
    deepGroup? limit (levels ++ levels') =
      (deepGroup? limit levels).or (deepGroup? limit levels') := by
  rw [deepGroup?, List.find?_append, Option.map_or]
  rfl

variable {limit} {levels : List (Nat × Span)} {ts : List Lexeme}

theorem Placed.nesting_eq (h : Placed 0 ts levels) {l : Nat × Span} (hl : l ∈ levels) :
    l.1 = nesting (levels.map (·.2)) l.2 := by
  rw [h.counted l hl, Nat.zero_add]

/-- Where no group is nested too deep, no chain is too long. -/
theorem Placed.length_le (h : Placed 0 ts levels) (shallow : deepGroup? limit levels = none)
    {chain : List Span} (nested : Nested chain) (all : ∀ g ∈ chain, g ∈ levels.map (·.2)) :
    chain.length ≤ limit := by
  rcases List.eq_nil_or_concat chain with rfl | ⟨front, last, rfl⟩
  · exact Nat.zero_le _
  · rw [List.concat_eq_append] at nested all ⊢
    obtain ⟨l, hl, rfl⟩ := List.mem_map.mp (all last (by simp))
    rw [deepGroup?, Option.map_eq_none_iff, List.find?_eq_none] at shallow
    have := shallow l hl
    have := h.nesting_eq hl
    have := nested.length_le all
    simp only [decide_eq_true_eq] at *
    omega

/-- The first group that is nested too deep starts first among those. -/
theorem Placed.first_deep (h : Placed 0 ts levels) {start : Nat}
    (deep : deepGroup? limit levels = some start) :
    ∃ l ∈ levels, limit < l.1 ∧ (∀ g ∈ levels.map (·.2), limit < nesting (levels.map (·.2)) g →
      l.2.start ≤ g.start) ∧ l.2.start = start := by
  obtain ⟨l, hl, rfl⟩ := Option.map_eq_some_iff.mp deep
  obtain ⟨hdeep, front, back, heq, shallow⟩ := List.find?_eq_some_iff_append.mp hl
  refine ⟨l, List.mem_of_find?_eq_some hl, of_decide_eq_true hdeep, fun g hg gdeep => ?_, rfl⟩
  obtain ⟨l', hl', rfl⟩ := List.mem_map.mp hg
  rw [← h.nesting_eq hl'] at gdeep
  have sorted := h.sorted
  rw [heq] at hl' sorted
  rcases List.mem_append.mp hl' with hl' | hl'
  · simpa [gdeep] using shallow l' hl'
  · rcases List.mem_cons.mp hl' with rfl | hl'
    · exact Nat.le_refl _
    · exact Nat.le_of_lt ((List.pairwise_cons.mp (List.pairwise_append.mp sorted).2.1).1 l' hl')

variable (limit)

theorem deepStart?_signs (signs : List Sign) (ts : List Lexeme) :
    deepStart? limit depth (signs.map Sign.lexeme ++ ts) = deepStart? limit depth ts := by
  induction signs with
  | nil => rfl
  | cons sign rest ih =>
    have unmarked : sign.lexeme.token ≠ .lparen ∧ sign.lexeme.token ≠ .rparen := by
      unfold Sign.lexeme
      dsimp only
      split <;> simp
    rw [List.map_cons, List.cons_append, deepStart?_other unmarked, ih]

mutual

theorem Primary.deepStart?_lexemes (depth : Nat) (ts : List Lexeme) : ∀ p : Primary,
    deepStart? limit depth (p.lexemes ++ ts) =
      (deepGroup? limit (p.levels depth)).or (deepStart? limit depth ts)
  | .leaf l span => by
    rw [Primary.lexemes, List.singleton_append, deepStart?_other (by simp), Primary.levels]
    rfl
  | .group inner span => by
    rw [Primary.lexemes, List.cons_append, List.append_assoc, List.singleton_append, deepStart?,
      Primary.levels]
    by_cases deep : limit ≤ depth
    · have hdeep : limit < depth + 1 := Nat.lt_succ_of_le deep
      simp [deep, deepGroup?, hdeep]
    · have hdeep : ¬ limit < depth + 1 := by omega
      rw [if_neg deep, inner.deepStart?_lexemes, deepStart?, Nat.add_sub_cancel]
      simp [deepGroup?, hdeep]

theorem Operand.deepStart?_lexemes (depth : Nat) (ts : List Lexeme) : ∀ o : Operand,
    deepStart? limit depth (o.lexemes ++ ts) =
      (deepGroup? limit (o.levels depth)).or (deepStart? limit depth ts)
  | .mk signs primary => by
    rw [Operand.lexemes, List.append_assoc, deepStart?_signs, primary.deepStart?_lexemes,
      Operand.levels]

theorem Links.deepStart?_lexemes (depth : Nat) (ts : List Lexeme) : ∀ links : Links,
    deepStart? limit depth (links.lexemes ++ ts) =
      (deepGroup? limit (links.levels depth)).or (deepStart? limit depth ts)
  | .nil => rfl
  | .cons op span operand rest => by
    rw [Links.lexemes, List.cons_append, List.append_assoc, deepStart?_other (by simp),
      operand.deepStart?_lexemes, rest.deepStart?_lexemes, Links.levels, deepGroup?_append,
      Option.or_assoc]

theorem Expression.deepStart?_lexemes (depth : Nat) (ts : List Lexeme) : ∀ e : Expression,
    deepStart? limit depth (e.lexemes ++ ts) =
      (deepGroup? limit (e.levels depth)).or (deepStart? limit depth ts)
  | .mk first links span => by
    rw [Expression.lexemes, List.append_assoc, first.deepStart?_lexemes,
      links.deepStart?_lexemes, Expression.levels, deepGroup?_append, Option.or_assoc]

end

theorem Statement.Spelled.deepStart? {s : Statement} {ts : List Lexeme} (h : s.Spelled ts)
    (rest : List Lexeme) : deepStart? limit 0 (ts ++ rest) =
      (deepGroup? limit s.levels).or (Grammar.deepStart? limit 0 rest) := by
  cases h with
  | expression e => exact e.deepStart?_lexemes limit 0 rest
  | assignment name nameSpan span value =>
    rw [List.cons_append, List.cons_append, deepStart?_other (by simp),
      deepStart?_other (by simp), value.deepStart?_lexemes limit]
    rfl

theorem deepStart?_semicolons {semicolons : List Lexeme}
    (h : ∀ t ∈ semicolons, t.token = .semicolon) (ts : List Lexeme) :
    deepStart? limit depth (semicolons ++ ts) = deepStart? limit depth ts := by
  induction semicolons with
  | nil => rfl
  | cons t rest ih =>
    obtain ⟨first, h⟩ := List.forall_mem_cons.mp h
    rw [List.cons_append, deepStart?_other (by simp [first]), ih h]

theorem deepStart?_skipSemicolons (ts : List Lexeme) :
    deepStart? limit depth (skipSemicolons ts) = deepStart? limit depth ts := by
  obtain ⟨semicolons, heq, all⟩ := skipSemicolons_append ts
  conv_rhs => rw [heq, deepStart?_semicolons limit depth all]

/-- Counting parentheses finds the first group that is nested too deep. -/
theorem Sequence.deepStart? {ts : List Lexeme} {ss : List Statement} (h : Sequence ts ss) :
    deepStart? limit 0 ts = deepGroup? limit (ss.flatMap Statement.levels) := by
  induction h with
  | nil => rfl
  | @last s ts spelled =>
    have read := spelled.deepStart? limit []
    rw [List.append_nil] at read
    rw [read, List.flatMap_singleton]
    exact Option.or_none
  | @more s ts rest t ss spelled semicolon _ ih =>
    rw [spelled.deepStart? limit, deepStart?_other (by simp [semicolon]),
      ← deepStart?_skipSemicolons, ih, List.flatMap_cons, deepGroup?_append]

end

end Grammar

end Scriptlet
