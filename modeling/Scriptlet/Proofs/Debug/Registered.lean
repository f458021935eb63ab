import Mathlib.Data.Finset.Basic
import Mathlib.Data.Finset.Filter
import Scriptlet.Debug.Breakpoints

/-!
# Registered lines as a set

The table of breakpoints is a finite set of pairs of a source and a line: whatever is registered
and cleared, it answers as the set does, and it shows the members of the set.
-/
namespace Scriptlet.Breakpoints

/-- A change of the registered lines. -/
inductive Edit where
  | register (source : String) (line : Nat)
  | clear (source : String) (line : Nat)
  | clearSource (source : String)
  | clearAll
  deriving DecidableEq, Repr

/-- Sources with lines of them. -/
abbrev Pairs := Finset (String × Nat)

namespace Edit

/-- The answer of the table to an edit, and the table after it. Only an edit of one line has an
answer. -/
def onTable (b : Breakpoints) : Edit → Option Bool × Breakpoints
  | .register source line => ((b.register source line).1, (b.register source line).2)
  | .clear source line => ((b.clear source line).1, (b.clear source line).2)
  | .clearSource source => (none, b.clearSource source)
  | .clearAll => (none, .empty)

/-- The same edit of a set: an insertion tells whether the pair was absent, a removal whether it
was present. -/
def onPairs (s : Pairs) : Edit → Option Bool × Pairs
  | .register source line => (decide ((source, line) ∉ s), insert (source, line) s)
  | .clear source line => (decide ((source, line) ∈ s), s.erase (source, line))
  | .clearSource source => (none, s.filter (·.1 ≠ source))
  | .clearAll => (none, ∅)

/-- The answers to edits one after the other, and the state after them. -/
def run {σ : Type} (edit : σ → Edit → Option Bool × σ) (s : σ) :
    List Edit → List (Option Bool) × σ
  | [] => ([], s)
  | e :: rest =>
    ((edit s e).1 :: (run edit (edit s e).2 rest).1, (run edit (edit s e).2 rest).2)

end Edit

/-- What is asked of the table is answered from the set. -/
structure Shows (b : Breakpoints) (s : Pairs) : Prop where
  isRegistered : ∀ source line, b.isRegistered source line = decide ((source, line) ∈ s)
  isEmpty : b.isEmpty = decide (s = ∅)
  ascending : ∀ source, (b.lines source).Pairwise (· < ·)
  mem_lines : ∀ source line, line ∈ b.lines source ↔ (source, line) ∈ s

variable {b : Breakpoints} {s : Pairs}

/-- The lines of the sources decide all that a table shows, since it keeps them in order and has
no entry without lines. -/
theorem shows_iff : b.Shows s ↔ ∀ source line, line ∈ b.lines source ↔ (source, line) ∈ s := by
  refine ⟨Shows.mem_lines, fun mem => ⟨fun source line => ?_, ?_, b.lines_ascending, mem⟩⟩
  · rw [isRegistered_eq, Bool.eq_iff_iff, List.contains_iff_mem, decide_eq_true_iff]
    exact mem source line
  · rw [Bool.eq_iff_iff, isEmpty_iff, decide_eq_true_iff, Finset.eq_empty_iff_forall_notMem]
    simp only [List.eq_nil_iff_forall_not_mem, mem, Prod.forall]

theorem shows_empty : empty.Shows ∅ :=
  shows_iff.mpr (by simp)

/-- An edit is answered as by the set, and the table goes on showing the set. -/
theorem Shows.edit (h : b.Shows s) (e : Edit) :
    (e.onTable b).1 = (e.onPairs s).1 ∧ (e.onTable b).2.Shows (e.onPairs s).2 := by
  cases e with
  | register source line =>
    refine ⟨?_, shows_iff.mpr fun other k => ?_⟩
    · simp [Edit.onTable, Edit.onPairs, register_fst, h.isRegistered]
    · simp only [Edit.onTable, Edit.onPairs, lines_register, Finset.mem_insert, Prod.mk.injEq]
      by_cases same : other = source
      · simp [same, LineSet.mem_place, h.mem_lines]
      · simp [same, h.mem_lines]
  | clear source line =>
    refine ⟨?_, shows_iff.mpr fun other k => ?_⟩
    · simp [Edit.onTable, Edit.onPairs, clear_fst, h.isRegistered]
    · simp only [Edit.onTable, Edit.onPairs, lines_clear, Finset.mem_erase, ne_eq, Prod.mk.injEq]
      by_cases same : other = source
      · simp [same, h.mem_lines, and_comm]
      · simp [same, h.mem_lines]
  | clearSource source =>
    refine ⟨rfl, shows_iff.mpr fun other k => ?_⟩
    simp only [Edit.onTable, Edit.onPairs, lines_clearSource, Finset.mem_filter]
    by_cases same : other = source
    · simp [same]
    · simp [same, h.mem_lines]
  | clearAll => exact ⟨rfl, shows_empty⟩

theorem Shows.run (h : b.Shows s) (edits : List Edit) :
    (Edit.run Edit.onTable b edits).1 = (Edit.run Edit.onPairs s edits).1 ∧
      (Edit.run Edit.onTable b edits).2.Shows (Edit.run Edit.onPairs s edits).2 := by
  induction edits generalizing b s with
  | nil => exact ⟨rfl, h⟩
  | cons e rest ih =>
    obtain ⟨answer, shows⟩ := h.edit e
    obtain ⟨answers, shown⟩ := ih shows
    exact ⟨List.cons_eq_cons.mpr ⟨answer, answers⟩, shown⟩

/-- The table is a set of pairs. Whatever lines are registered and cleared, in whatever order, each
edit is answered as by a finite set that pairs are added to and taken from, and what the table then
tells is right for the set: which pairs are registered, whether there are any, and the lines of
each source in ascending order. -/
theorem registered_as_set (edits : List Edit) :
    (Edit.run Edit.onTable .empty edits).1 = (Edit.run Edit.onPairs ∅ edits).1 ∧
      (Edit.run Edit.onTable .empty edits).2.Shows (Edit.run Edit.onPairs ∅ edits).2 :=
  shows_empty.run edits

end Scriptlet.Breakpoints
