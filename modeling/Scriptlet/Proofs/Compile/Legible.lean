import Scriptlet.Proofs.Compile.Formula
import Scriptlet.Proofs.Compile.Part
import Scriptlet.Proofs.Grammar.Pieces
import Scriptlet.Proofs.Node.Legible

/-!
# Legible sources

In a legible source the value of every literal is rendered as a literal of that value, and no minus
sign stands on a number. Grouping by precedence keeps both.
-/
namespace Scriptlet

namespace Grammar

/-- A number is an integer without a suffix, and the text of a string is plain. -/
def Leaf.isLegible : Leaf → Bool
  | .number text => text.all Char.isDigit
  | .string _ body =>
    match Literal.unescape body with
    | .ok text => text.all isPlain
    | .error _ => false
  | .null | .boolean _ | .ident _ => true

def Links.isEmpty : Links → Bool
  | .nil => true
  | .cons .. => false

mutual

/-- A number, or a number in parentheses. -/
def Primary.isNumber : Primary → Bool
  | .leaf (.number _) _ => true
  | .leaf .. => false
  | .group inner _ => inner.isNumber

def Operand.isNumber : Operand → Bool
  | .mk signs primary => signs.isEmpty && primary.isNumber

def Expression.isNumber : Expression → Bool
  | .mk first links _ => links.isEmpty && first.isNumber

end

mutual

def Primary.isLegible : Primary → Bool
  | .leaf l _ => l.isLegible
  | .group inner _ => inner.isLegible

/-- The sign before a number is no minus. -/
def Operand.isLegible : Operand → Bool
  | .mk signs primary =>
    primary.isLegible && !(primary.isNumber && signs.getLast?.any (·.op == .neg))

def Links.isLegible : Links → Bool
  | .nil => true
  | .cons _ _ operand rest => operand.isLegible && rest.isLegible

def Expression.isLegible : Expression → Bool
  | .mk first links _ => first.isLegible && links.isLegible

end

def Statement.isLegible : Statement → Bool
  | .expression e => e.isLegible
  | .assignment _ _ value => value.isLegible

/-- The tokens have characters that they are the tokens of. -/
def AllSpelled (ts : List Lexeme) : Prop := ∀ t ∈ ts, ∃ text, t.token.Spelled text

theorem LaidOut.allSpelled {text : List Char} {pieces : List Piece} (h : LaidOut text pieces)
    (offset : Nat) : AllSpelled (Piece.lexemesFrom offset pieces) := by
  induction h generalizing offset with
  | done => simp [AllSpelled, Piece.lexemesFrom]
  | piece _ spelled _ _ ih => exact List.forall_mem_cons.mpr ⟨⟨_, spelled⟩, ih _⟩

theorem Sequence.allSpelled {ts : List Lexeme} {ss : List Statement} (h : Sequence ts ss)
    (all : AllSpelled ts) : ∀ s ∈ ss, ∃ front, s.Spelled front ∧ AllSpelled front := by
  induction h with
  | nil => simp
  | last spelled => simpa using ⟨_, spelled, all⟩
  | @more s ts rest t ss spelled semicolon _ ih =>
    obtain ⟨first, all⟩ := List.forall_mem_append.mp all
    have later : AllSpelled (skipSemicolons rest) := fun u hu =>
      all u (List.mem_cons_of_mem t (List.dropWhile_subset _ hu))
    exact List.forall_mem_cons.mpr ⟨⟨ts, spelled, first⟩, ih later⟩

end Grammar

namespace Compile.Formula

open Grammar

/-- A number, or a number in parentheses. -/
def isNumber : Formula → Bool
  | leaf (.number _) _ => true
  | group inner _ => inner.isNumber
  | _ => false

/-- The leaves are tokens, their values are rendered as literals, and no minus sign stands on a
number. -/
def Legible : Formula → Prop
  | leaf l _ => l.isLegible = true ∧ ∃ text, Token.Spelled (.leaf l) text
  | group inner _ => inner.Legible
  | unary op operand _ => operand.Legible ∧ (op = .neg → operand.isNumber = false)
  | binary _ left right => left.Legible ∧ right.Legible

/-- The operands that wait are legible. -/
def Waiting.Legible (waiting : Waiting) : Prop := ∀ w ∈ waiting, w.1.Legible

theorem signed_append (span : Span) (signs signs' : List Sign) (f : Formula) :
    signed span (signs ++ signs') f = signed span signs' (signed span signs f) := by
  induction signs generalizing f with
  | nil => rfl
  | cons sign outer ih => exact ih (.unary sign.op f span)

theorem signed_legible (span : Span) {signs : List Sign} {f : Formula} (h : f.Legible)
    (unsigned : ∀ s ∈ signs.head?, s.op = .neg → f.isNumber = false) :
    (signed span signs f).Legible := by
  induction signs generalizing f with
  | nil => exact h
  | cons sign outer ih => exact ih ⟨h, unsigned sign rfl⟩ fun _ _ _ => rfl

theorem isNumber_signed (span : Span) (signs : List Sign) (f : Formula) :
    (signed span signs f).isNumber = (signs.isEmpty && f.isNumber) := by
  induction signs generalizing f with
  | nil => rfl
  | cons sign outer ih =>
    rw [signed, ih]
    exact Bool.and_false _

theorem groupBefore_legible (next : Operator) {waiting : Waiting} {last : Formula}
    (before : waiting.Legible) (h : last.Legible) :
    (groupBefore next waiting last).1.Legible ∧ (groupBefore next waiting last).2.Legible := by
  induction waiting generalizing last with
  | nil => exact ⟨before, h⟩
  | cons entry rest ih =>
    obtain ⟨left, op⟩ := entry
    obtain ⟨first, later⟩ := List.forall_mem_cons.mp before
    rw [groupBefore]
    split
    · exact ih later ⟨first, h⟩
    · exact ⟨before, h⟩

theorem groupAll_legible {waiting : Waiting} {last : Formula} (before : waiting.Legible)
    (h : last.Legible) : (groupAll waiting last).Legible := by
  induction waiting generalizing last with
  | nil => exact h
  | cons entry rest ih =>
    obtain ⟨first, later⟩ := List.forall_mem_cons.mp before
    exact ih later ⟨first, h⟩

theorem isNumber_groupAll (waiting : Waiting) (last : Formula) :
    (groupAll waiting last).isNumber = (waiting.isEmpty && last.isNumber) := by
  induction waiting generalizing last with
  | nil => rfl
  | cons entry rest ih =>
    rw [groupAll, ih]
    exact Bool.and_false _

mutual

theorem ofPrimary_legible : ∀ p : Primary, p.isLegible = true → AllSpelled p.lexemes →
    (ofPrimary p).Legible ∧ (ofPrimary p).isNumber = p.isNumber
  | .leaf l span, h, spelled => by
    refine ⟨⟨h, spelled ⟨.leaf l, span⟩ (List.mem_cons_self ..)⟩, ?_⟩
    cases l <;> rfl
  | .group inner span, h, spelled => by
    have all : AllSpelled inner.lexemes := fun t ht =>
      spelled t (List.mem_cons_of_mem _ (List.mem_append_left _ ht))
    exact ofExpression_legible inner h all

theorem ofOperand_legible : ∀ o : Operand, o.isLegible = true → AllSpelled o.lexemes →
    (ofOperand o).Legible ∧ (ofOperand o).isNumber = o.isNumber
  | .mk signs primary, h, spelled => by
    obtain ⟨-, all⟩ := List.forall_mem_append.mp spelled
    simp only [Operand.isLegible, Bool.and_eq_true, Bool.not_eq_true', Bool.and_eq_false_iff] at h
    obtain ⟨legible, unsigned⟩ := h
    simp only [ofOperand.eq_def]
    split
    · rename_i text numberSpan minus outer hminus
      -- The minus sign right before the number is the one that a legible operand does not have.
      obtain ⟨reversed, neg⟩ := splitMinus_eq_some hminus
      have last : signs.getLast? = some minus := by
        rw [← List.head?_reverse, reversed, List.head?_cons]
      simp [Primary.isNumber, last, neg] at unsigned
    · rename_i primary _ _ _
      obtain ⟨legible, number⟩ := ofPrimary_legible primary legible all
      refine ⟨signed_legible _ legible fun s hs neg => ?_, ?_⟩
      · rw [List.head?_reverse, Option.mem_def] at hs
        rw [number]
        exact unsigned.resolve_right (by simp [hs, neg])
      · rw [isNumber_signed, number, List.isEmpty_reverse, Operand.isNumber]

theorem ofLinks_legible {waiting : Waiting} {last : Formula} (before : waiting.Legible)
    (h : last.Legible) : ∀ links : Links, links.isLegible = true → AllSpelled links.lexemes →
    (ofLinks waiting last links).Legible ∧ (ofLinks waiting last links).isNumber =
      (links.isEmpty && (waiting.isEmpty && last.isNumber))
  | .nil, _, _ => ⟨groupAll_legible before h, isNumber_groupAll waiting last⟩
  | .cons op span operand rest, hlinks, spelled => by
    obtain ⟨hoperand, hrest⟩ := Bool.and_eq_true_iff.mp hlinks
    obtain ⟨-, spelled⟩ := List.forall_mem_cons.mp spelled
    obtain ⟨first, later⟩ := List.forall_mem_append.mp spelled
    obtain ⟨waits, left⟩ := groupBefore_legible op before h
    have before : Waiting.Legible
        (((groupBefore op waiting last).2, op) :: (groupBefore op waiting last).1) :=
      List.forall_mem_cons.mpr ⟨left, waits⟩
    obtain ⟨legible, number⟩ := ofLinks_legible before
      (ofOperand_legible operand hoperand first).1 rest hrest later
    rw [ofLinks]
    exact ⟨legible, number.trans (Bool.and_false _)⟩

/-- The formula of a legible expression is legible. -/
theorem ofExpression_legible : ∀ e : Expression, e.isLegible = true → AllSpelled e.lexemes →
    (ofExpression e).Legible ∧ (ofExpression e).isNumber = e.isNumber
  | .mk first links span, h, spelled => by
    obtain ⟨hfirst, hlinks⟩ := Bool.and_eq_true_iff.mp h
    obtain ⟨spelledFirst, spelledLinks⟩ := List.forall_mem_append.mp spelled
    obtain ⟨legible, number⟩ := ofOperand_legible first hfirst spelledFirst
    have before : Waiting.Legible [] := by simp [Waiting.Legible]
    obtain ⟨legible, number'⟩ := ofLinks_legible before legible links hlinks spelledLinks
    refine ⟨legible, number'.trans ?_⟩
    rw [number, Expression.isNumber]
    rfl

end

end Compile.Formula

end Scriptlet
