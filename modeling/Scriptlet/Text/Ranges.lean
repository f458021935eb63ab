/-!
# Character sets as ranges

A set of characters is a list of inclusive ranges of code points. The tables of this folder
are such lists; `contains` is the only question asked of them.
-/
namespace Scriptlet.Text

/-- Inclusive ranges of code points, in ascending order. -/
abbrev Ranges := List (Nat × Nat)

namespace Ranges

/-- Membership: some range holds the character's code point. -/
def contains (ranges : Ranges) (c : Char) : Bool :=
  ranges.any fun range => decide (range.1 ≤ c.toNat) && decide (c.toNat ≤ range.2)

theorem contains_iff (ranges : Ranges) (c : Char) :
    ranges.contains c = true ↔ ∃ range ∈ ranges, range.1 ≤ c.toNat ∧ c.toNat ≤ range.2 := by
  simp [contains]

end Ranges

end Scriptlet.Text
