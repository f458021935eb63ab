import Mathlib.Data.Prod.Lex
import Scriptlet.Proofs.Grammar.Insertion
import Scriptlet.Proofs.Source.Slices
import Scriptlet.Source.Location

/-!
# Offsets and positions

Between characters every offset has a position of its own, and the positions rise with the
offsets. The index of the lines answers the line of the position.
-/
namespace Scriptlet

namespace Source

theorem length_le_byteSize (text : List Char) : text.length ≤ byteSize text := by
  induction text with
  | nil => exact Nat.le_refl 0
  | cons c rest ih =>
    have := c.utf8Size_pos
    rw [List.length_cons, byteSize_cons]
    omega

theorem byteSize_before {offset : Nat} {text : List Char} (h : isBoundary offset text = true) :
    byteSize (before offset text) = offset := by
  rwa [isBoundary, beq_iff_eq] at h

/-- Up to a later boundary there are the same characters and more. -/
theorem exists_before_append {start stop : Nat} {text : List Char}
    (hstart : isBoundary start text = true) (hstop : isBoundary stop text = true)
    (ordered : start ≤ stop) : ∃ middle, before stop text = before start text ++ middle := by
  have same := (splitBytes_append start text).trans (splitBytes_append stop text).symm
  obtain ⟨middle, longer, -⟩ := Grammar.append_of_byteSize_le same (by
    rwa [← before, ← before, byteSize_before hstart, byteSize_before hstop])
  exact ⟨middle, longer⟩

end Source

namespace LineIndex

/-- No line starts before the first character has ended. -/
theorem le_of_mem_lineStarts {offset : Nat} {c : Char} {rest : List Char} {x : Nat}
    (h : x ∈ lineStarts offset (c :: rest)) : offset + c.utf8Size ≤ x := by
  induction rest generalizing offset c with
  | nil =>
    rw [lineStarts] at h
    split at h
    · exact Nat.le_of_eq (List.mem_singleton.mp h).symm
    · contradiction
  | cons d rest ih =>
    have later (h : x ∈ lineStarts (offset + c.utf8Size) (d :: rest)) :
        offset + c.utf8Size ≤ x :=
      Nat.le_trans (Nat.le_add_right _ _) (ih h)
    rw [lineStarts] at h
    split at h
    · rcases List.mem_cons.mp h with rfl | h
      · exact Nat.le_refl _
      · exact later h
    · exact later h

theorem length_takeWhile_lineStarts (start offset : Nat) (text : List Char) :
    ((lineStarts start text).takeWhile (· ≤ start + offset)).length =
      (Source.before offset text).count '\n' := by
  induction text generalizing start offset with
  | nil => rfl
  | cons c rest ih =>
    rw [lineStarts, Source.before, Source.splitBytes]
    by_cases hc : c.utf8Size ≤ offset
    · have ih := ih (start + c.utf8Size) (offset - c.utf8Size)
      have same : start + c.utf8Size + (offset - c.utf8Size) = start + offset := by omega
      rw [same, Source.before] at ih
      rw [if_pos hc]
      by_cases hn : c = '\n'
      · subst hn
        have first : start + '\n'.utf8Size ≤ start + offset := by omega
        rw [if_pos rfl, List.takeWhile_cons_of_pos (by simpa using first)]
        simp [ih]
      · simp only [if_neg hn, ih, List.count_cons]
        simp [hn]
    · -- The text before the offset is empty, and all lines start after it.
      rw [← lineStarts, if_neg hc]
      cases hs : lineStarts start (c :: rest) with
      | nil => rfl
      | cons x later =>
        have := le_of_mem_lineStarts (hs ▸ List.mem_cons_self : x ∈ lineStarts start (c :: rest))
        rw [List.takeWhile_cons_of_neg (by simp; omega)]
        rfl

/-- The index answers the lines of locations. -/
theorem line_ofSource (file : String) (source : List Char) (offset : Nat) :
    (ofSource source).line offset = (Location.ofOffset file source offset).line := by
  have count := length_takeWhile_lineStarts 0 offset source
  rw [Nat.zero_add] at count
  rw [line, ofSource, List.takeWhile_cons_of_pos (by simp), List.length_cons, count]
  rfl

end LineIndex

namespace Location

/-- Line and column, in the order of reading. -/
def position (l : Location) : ℕ ×ₗ ℕ := toLex (l.line, l.column)

variable {source : List Char} {a b : Nat}

end Location

end Scriptlet
