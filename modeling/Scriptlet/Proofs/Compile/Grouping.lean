import Scriptlet.Proofs.Compile.Formula

/-!
# Grouping by precedence

A chain of operands and operators can be grouped into a tree in many ways. Of those that read back
as the chain just one goes `ByPrecedence`, and it is the one that a formula has.
-/
namespace Scriptlet

namespace Operator

/-- An operation with `q` can be the left operand: `q` binds tighter, or equally and the operator
is left associative. -/
def TakesLeft (op q : Operator) : Prop :=
  op.precedence < q.precedence ∨ (q.precedence = op.precedence ∧ op.isRightAssociative = false)

/-- An operation with `q` can be the right operand: `q` binds tighter, or both are powers. -/
def TakesRight (op q : Operator) : Prop :=
  op.precedence < q.precedence ∨ (op = .pow ∧ q = .pow)

instance (op q : Operator) : Decidable (op.TakesLeft q) := inferInstanceAs (Decidable (_ ∨ _))

instance (op q : Operator) : Decidable (op.TakesRight q) := inferInstanceAs (Decidable (_ ∨ _))

theorem eq_pow_of_le {q : Operator} (h : Operator.pow.precedence ≤ q.precedence) : q = .pow := by
  revert h
  cases q <;> decide

theorem TakesLeft.le {op q : Operator} (h : op.TakesLeft q) : op.precedence ≤ q.precedence := by
  rcases h with h | ⟨h, -⟩ <;> omega

theorem TakesRight.le {op q : Operator} (h : op.TakesRight q) :
    op.precedence ≤ q.precedence := by
  rcases h with h | ⟨rfl, rfl⟩ <;> omega

theorem TakesLeft.of_le {op p q : Operator} (h : op.TakesLeft p)
    (hle : p.precedence ≤ q.precedence) : op.TakesLeft q := by
  rcases h with h | ⟨h, hassoc⟩
  · exact .inl (Nat.lt_of_lt_of_le h hle)
  · rcases Nat.lt_or_ge op.precedence q.precedence with hlt | hge
    · exact .inl hlt
    · exact .inr ⟨by omega, hassoc⟩

theorem TakesRight.of_le {op p q : Operator} (h : op.TakesRight p)
    (hle : p.precedence ≤ q.precedence) : op.TakesRight q := by
  rcases h with h | ⟨rfl, rfl⟩
  · exact .inl (Nat.lt_of_lt_of_le h hle)
  · exact .inr ⟨rfl, eq_pow_of_le hle⟩

/-- Of two operators in a row just one takes the operand between them. -/
theorem not_takesRight_of_takesLeft {op q : Operator} (h : op.TakesLeft q) : ¬ q.TakesRight op := by
  intro k
  have hle := k.le
  rcases h with h | ⟨h, hassoc⟩
  · omega
  · rcases k with k | ⟨-, rfl⟩
    · omega
    · contradiction

theorem reducesBefore_iff {top next : Operator} :
    top.reducesBefore next = true ↔ next.TakesLeft top := by
  simp only [reducesBefore, TakesLeft, Bool.or_eq_true, Bool.and_eq_true, decide_eq_true_eq,
    beq_iff_eq, Bool.not_eq_true']

theorem takesRight_of_not_reducesBefore {top next : Operator}
    (h : ¬ top.reducesBefore next = true) : top.TakesRight next := by
  have table : ∀ p ∈ all, ∀ q ∈ all, p.reducesBefore q = true ∨ p.TakesRight q := by
    decide +kernel
  exact (table top (mem_all top) next (mem_all next)).resolve_left h

end Operator

/-- A tree of operations on operands. -/
inductive Grouping (α : Type) where
  | operand (x : α)
  | operation (op : Operator) (left right : Grouping α)

namespace Grouping

variable {α : Type}

/-- The operands in order. -/
def operands : Grouping α → List α
  | operand x => [x]
  | operation _ left right => left.operands ++ right.operands

/-- The operators in order. -/
def operators : Grouping α → List Operator
  | operand _ => []
  | operation op left right => left.operators ++ op :: right.operators

/-- The operator of the whole. -/
def top? : Grouping α → Option Operator
  | operand _ => none
  | operation op _ _ => some op

/-- Every operation has operands that its operator takes. -/
def ByPrecedence : Grouping α → Prop
  | operand _ => True
  | operation op left right =>
    (∀ q ∈ left.top?, op.TakesLeft q) ∧ (∀ q ∈ right.top?, op.TakesRight q) ∧
      left.ByPrecedence ∧ right.ByPrecedence

theorem length_operands (g : Grouping α) : g.operands.length = g.operators.length + 1 := by
  induction g with
  | operand x => rfl
  | operation op left right ihl ihr =>
    simp only [operands, operators, List.length_append, List.length_cons, ihl, ihr]
    omega

theorem ByPrecedence.top_le {g : Grouping α} (h : g.ByPrecedence) {op : Operator}
    (hop : g.top? = some op) : ∀ q ∈ g.operators, op.precedence ≤ q.precedence := by
  induction g generalizing op with
  | operand x => contradiction
  | operation p left right ihl ihr =>
    obtain rfl := Option.some.inj hop
    obtain ⟨takesLeft, takesRight, hleft, hright⟩ := h
    intro q hq
    rcases List.mem_append.mp hq with hq | hq
    · cases left with
      | operand x => contradiction
      | operation l _ _ =>
        exact Nat.le_trans (takesLeft l rfl).le (ihl hleft rfl q hq)
    · rcases List.mem_cons.mp hq with rfl | hq
      · exact Nat.le_refl _
      · cases right with
        | operand x => contradiction
        | operation r _ _ =>
          exact Nat.le_trans (takesRight r rfl).le (ihr hright rfl q hq)

theorem ByPrecedence.takesLeft {op : Operator} {left right : Grouping α}
    (h : (operation op left right).ByPrecedence) : ∀ q ∈ left.operators, op.TakesLeft q := by
  intro q hq
  obtain ⟨takes, -, hleft, -⟩ := h
  cases left with
  | operand x => contradiction
  | operation p _ _ => exact (takes p rfl).of_le (hleft.top_le rfl q hq)

theorem ByPrecedence.takesRight {op : Operator} {left right : Grouping α}
    (h : (operation op left right).ByPrecedence) : ∀ q ∈ right.operators, op.TakesRight q := by
  intro q hq
  obtain ⟨-, takes, -, hright⟩ := h
  cases right with
  | operand x => contradiction
  | operation p _ _ => exact (takes p rfl).of_le (hright.top_le rfl q hq)

theorem ByPrecedence.operators_left_eq {op op' : Operator} {left right left' right' : Grouping α}
    (h : (operation op left right).ByPrecedence) (h' : (operation op' left' right').ByPrecedence)
    (operators : (operation op left right).operators = (operation op' left' right').operators) :
    left.operators = left'.operators ∧ op = op' ∧ right.operators = right'.operators := by
  -- If the first operator stood in the left operand of the other whole, then the other one would
  -- stand in the right operand of the first, and each would take the other.
  rcases List.append_eq_append_iff.mp operators with
    ⟨between, hleft, hright⟩ | ⟨between, hleft, hright⟩
  · cases between with
    | nil =>
      simp only [List.nil_append, List.cons.injEq] at hright
      obtain ⟨rfl, hright⟩ := hright
      exact ⟨by simpa using hleft.symm, rfl, hright⟩
    | cons p between =>
      simp only [List.cons_append, List.cons.injEq] at hright
      obtain ⟨rfl, hright⟩ := hright
      have first := h'.takesLeft op (by simp [hleft])
      have second := h.takesRight op' (by simp [hright])
      exact absurd second (Operator.not_takesRight_of_takesLeft first)
  · cases between with
    | nil =>
      simp only [List.nil_append, List.cons.injEq] at hright
      obtain ⟨rfl, hright⟩ := hright
      exact ⟨by simpa using hleft, rfl, hright.symm⟩
    | cons p between =>
      simp only [List.cons_append, List.cons.injEq] at hright
      obtain ⟨rfl, hright⟩ := hright
      have first := h.takesLeft op' (by simp [hleft])
      have second := h'.takesRight op (by simp [hright])
      exact absurd second (Operator.not_takesRight_of_takesLeft first)

/-- A chain has one grouping by precedence at most. -/
theorem ByPrecedence.unique {g g' : Grouping α} (h : g.ByPrecedence) (h' : g'.ByPrecedence)
    (operators : g.operators = g'.operators) (operands : g.operands = g'.operands) : g = g' := by
  induction g generalizing g' with
  | operand x =>
    cases g' with
    | operand y => exact congrArg operand (List.singleton_inj.mp operands)
    | operation op left right => simp [Grouping.operators] at operators
  | operation op left right ihl ihr =>
    cases g' with
    | operand y => simp [Grouping.operators] at operators
    | operation op' left' right' =>
      obtain ⟨hleft, rfl, hright⟩ := h.operators_left_eq h' operators
      have length : left.operands.length = left'.operands.length := by
        rw [length_operands, length_operands, hleft]
      obtain ⟨xleft, xright⟩ := List.append_inj operands length
      rw [ihl h.2.2.1 h'.2.2.1 hleft xleft, ihr h.2.2.2 h'.2.2.2 hright xright]

end Grouping

namespace Grammar

def Links.operators : Links → List Operator
  | .nil => []
  | .cons op _ _ rest => op :: rest.operators

def Links.operands : Links → List Operand
  | .nil => []
  | .cons _ _ operand rest => operand :: rest.operands

/-- The operators of a chain in order. -/
def Expression.operators : Expression → List Operator
  | .mk _ links _ => links.operators

/-- The operands of a chain in order. -/
def Expression.operands : Expression → List Operand
  | .mk first links _ => first :: links.operands

end Grammar

namespace Compile.Formula

/-- The operations of a formula down to its operands. -/
def chain : Formula → Grouping Formula
  | .binary op left right => .operation op left.chain right.chain
  | f => .operand f

theorem chain_signed (span : Span) (signs : List Grammar.Sign) {f : Formula}
    (h : f.chain = .operand f) : (signed span signs f).chain = .operand (signed span signs f) := by
  induction signs generalizing f with
  | nil => exact h
  | cons sign outer ih => exact ih rfl

theorem chain_ofPrimary (p : Grammar.Primary) : (ofPrimary p).chain = .operand (ofPrimary p) := by
  cases p <;> simp only [ofPrimary, chain]

theorem chain_ofOperand (o : Grammar.Operand) : (ofOperand o).chain = .operand (ofOperand o) := by
  cases o with
  | mk signs primary =>
    rw [ofOperand.eq_def]
    simp only
    split
    · exact chain_signed _ _ rfl
    · exact chain_signed _ _ (chain_ofPrimary _)

/-! ## The chain is kept -/

def waitingOperands : Waiting → List Formula
  | [] => []
  | (f, _) :: rest => waitingOperands rest ++ f.chain.operands

def waitingOperators : Waiting → List Operator
  | [] => []
  | (f, op) :: rest => waitingOperators rest ++ f.chain.operators ++ [op]

theorem operands_groupBefore (next : Operator) (waiting : Waiting) (last : Formula) :
    waitingOperands (groupBefore next waiting last).1 ++
        (groupBefore next waiting last).2.chain.operands =
      waitingOperands waiting ++ last.chain.operands := by
  induction waiting generalizing last with
  | nil => rfl
  | cons entry rest ih =>
    obtain ⟨left, op⟩ := entry
    rw [groupBefore]
    split
    · rw [ih]
      simp [waitingOperands, chain, Grouping.operands]
    · rfl

theorem operators_groupBefore (next : Operator) (waiting : Waiting) (last : Formula) :
    waitingOperators (groupBefore next waiting last).1 ++
        (groupBefore next waiting last).2.chain.operators =
      waitingOperators waiting ++ last.chain.operators := by
  induction waiting generalizing last with
  | nil => rfl
  | cons entry rest ih =>
    obtain ⟨left, op⟩ := entry
    rw [groupBefore]
    split
    · rw [ih]
      simp [waitingOperators, chain, Grouping.operators]
    · rfl

theorem operands_groupAll (waiting : Waiting) (last : Formula) :
    (groupAll waiting last).chain.operands = waitingOperands waiting ++ last.chain.operands := by
  induction waiting generalizing last with
  | nil => rfl
  | cons entry rest ih =>
    obtain ⟨left, op⟩ := entry
    rw [groupAll, ih]
    simp [waitingOperands, chain, Grouping.operands]

theorem operators_groupAll (waiting : Waiting) (last : Formula) :
    (groupAll waiting last).chain.operators =
      waitingOperators waiting ++ last.chain.operators := by
  induction waiting generalizing last with
  | nil => rfl
  | cons entry rest ih =>
    obtain ⟨left, op⟩ := entry
    rw [groupAll, ih]
    simp [waitingOperators, chain, Grouping.operators]

theorem operands_ofLinks (waiting : Waiting) (last : Formula) (links : Grammar.Links) :
    (ofLinks waiting last links).chain.operands =
      waitingOperands waiting ++ last.chain.operands ++ links.operands.map ofOperand := by
  cases links with
  | nil =>
    rw [ofLinks, operands_groupAll]
    simp [Grammar.Links.operands]
  | cons op span operand rest =>
    rw [ofLinks, operands_ofLinks _ _ rest, waitingOperands, operands_groupBefore, chain_ofOperand]
    simp [Grouping.operands, Grammar.Links.operands]

theorem operators_ofLinks (waiting : Waiting) (last : Formula) (links : Grammar.Links) :
    (ofLinks waiting last links).chain.operators =
      waitingOperators waiting ++ last.chain.operators ++ links.operators := by
  cases links with
  | nil =>
    rw [ofLinks, operators_groupAll]
    simp [Grammar.Links.operators]
  | cons op span operand rest =>
    rw [ofLinks, operators_ofLinks _ _ rest, waitingOperators, operators_groupBefore,
      chain_ofOperand]
    simp [Grouping.operators, Grammar.Links.operators]

/-! ## The stack of waiting operators -/

/-- Each waiting operator takes the formula before it, and is taken by the operator before. -/
def Rising : Waiting → Prop
  | [] => True
  | (f, op) :: rest =>
    f.chain.ByPrecedence ∧ (∀ q ∈ f.chain.top?, op.TakesLeft q) ∧
      (∀ entry ∈ rest.head?, entry.2.TakesRight op) ∧ Rising rest

/-- The last waiting operator takes the formula after it. -/
structure Fits (waiting : Waiting) (last : Formula) : Prop where
  rising : Rising waiting
  byPrecedence : last.chain.ByPrecedence
  takes : ∀ entry ∈ waiting.head?, ∀ q ∈ last.chain.top?, entry.2.TakesRight q

theorem Fits.apply {left last : Formula} {op : Operator} {rest : Waiting}
    (h : Fits ((left, op) :: rest) last) : Fits rest (.binary op left last) := by
  obtain ⟨⟨hleft, takesLeft, taken, hrest⟩, hlast, takesRight⟩ := h
  refine ⟨hrest, ⟨takesLeft, takesRight _ rfl, hleft, hlast⟩, ?_⟩
  intro entry hentry q hq
  obtain rfl : op = q := Option.some.inj hq
  exact taken entry hentry

theorem rising_groupBefore (next : Operator) {waiting : Waiting} {last : Formula}
    (h : Fits waiting last) (hnext : ∀ q ∈ last.chain.top?, next.TakesLeft q) :
    Rising (((groupBefore next waiting last).2, next) :: (groupBefore next waiting last).1) := by
  induction waiting generalizing last with
  | nil => exact ⟨h.byPrecedence, hnext, by simp [groupBefore], trivial⟩
  | cons entry rest ih =>
    obtain ⟨left, op⟩ := entry
    rw [groupBefore]
    by_cases hop : op.reducesBefore next = true
    · rw [if_pos hop]
      refine ih h.apply fun q hq => ?_
      obtain rfl : op = q := Option.some.inj hq
      exact Operator.reducesBefore_iff.mp hop
    · rw [if_neg hop]
      refine ⟨h.byPrecedence, hnext, fun entry hentry => ?_, h.rising⟩
      obtain rfl : (left, op) = entry := Option.some.inj hentry
      exact Operator.takesRight_of_not_reducesBefore hop

theorem byPrecedence_groupAll {waiting : Waiting} {last : Formula} (h : Fits waiting last) :
    (groupAll waiting last).chain.ByPrecedence := by
  induction waiting generalizing last with
  | nil => exact h.byPrecedence
  | cons entry rest ih => exact ih h.apply

theorem Rising.fits {waiting : Waiting} (h : Rising waiting) {f : Formula}
    (hf : f.chain = .operand f) : Fits waiting f :=
  ⟨h, by rw [hf]; trivial, by simp [hf, Grouping.top?]⟩

theorem byPrecedence_ofLinks {waiting : Waiting} (h : Rising waiting) {last : Formula}
    (hlast : last.chain = .operand last) (links : Grammar.Links) :
    (ofLinks waiting last links).chain.ByPrecedence := by
  cases links with
  | nil =>
    rw [ofLinks]
    exact byPrecedence_groupAll (h.fits hlast)
  | cons op span operand rest =>
    rw [ofLinks]
    refine byPrecedence_ofLinks ?_ (chain_ofOperand operand) rest
    exact rising_groupBefore op (h.fits hlast) (by simp [hlast, Grouping.top?])

/-- The grouping reads as the chain and goes by precedence. -/
structure Groups (e : Grammar.Expression) (g : Grouping Formula) : Prop where
  operators : g.operators = e.operators
  operands : g.operands = e.operands.map ofOperand
  byPrecedence : g.ByPrecedence

theorem groups_ofExpression (e : Grammar.Expression) : Groups e (ofExpression e).chain := by
  cases e with
  | mk first links span =>
    have hfirst := chain_ofOperand first
    rw [ofExpression]
    refine ⟨?_, ?_, byPrecedence_ofLinks (show Rising [] from trivial) hfirst links⟩
    · rw [operators_ofLinks, hfirst]
      rfl
    · rw [operands_ofLinks, hfirst]
      rfl

end Compile.Formula

end Scriptlet
