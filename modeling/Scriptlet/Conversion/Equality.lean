import Scriptlet.Kind.Ty

/-!
# Equality strategies

Which types may be compared with `==` and `!=` although nothing else makes them compatible.
-/
namespace Scriptlet

/-- A rule on the types of the two operands. -/
structure EqualityStrategy where
  allows : Ty → Ty → Bool

namespace EqualityStrategy

/-- No two types. -/
def rejectAll : EqualityStrategy := ⟨fun _ _ => false⟩

/-- Any two types. -/
def acceptAll : EqualityStrategy := ⟨fun _ _ => true⟩

/-- The order of the operands does not matter. -/
def Symmetric (s : EqualityStrategy) : Prop := ∀ a b, s.allows a b = s.allows b a

end EqualityStrategy

/-- Pairs of type names that may be compared, in either order. -/
structure TypePairs where
  pairs : List (String × String)
  deriving DecidableEq, Repr

namespace TypePairs

def empty : TypePairs := ⟨[]⟩

def isEmpty (p : TypePairs) : Bool := p.pairs.isEmpty

/-- Allows a pair of type names. -/
def allow (p : TypePairs) (left right : String) : TypePairs := ⟨(left, right) :: p.pairs⟩

/-- A pair was allowed in one of its orders. -/
def contains (p : TypePairs) (left right : String) : Bool :=
  p.pairs.contains (left, right) || p.pairs.contains (right, left)

/-- The strategy that allows these pairs. -/
def strategy (p : TypePairs) : EqualityStrategy :=
  ⟨fun left right => p.contains left.display right.display⟩

theorem strategy_symmetric (p : TypePairs) : p.strategy.Symmetric := by
  intro a b
  simp [strategy, contains, Bool.or_comm]

end TypePairs

end Scriptlet
