import Scriptlet.Proofs.Grammar.Expansion

/-!
# Slices of a source

A span is valid in a source if it is in order and both its ends stand between characters. These
are the spans that have a slice.
-/
namespace Scriptlet

namespace Source

/-- An offset is a boundary if it is the size of some front of the text. -/
theorem isBoundary_iff {offset : Nat} {text : List Char} :
    isBoundary offset text = true ↔
      ∃ front back, text = front ++ back ∧ byteSize front = offset := by
  rw [isBoundary, beq_iff_eq]
  constructor
  · exact fun h => ⟨_, _, (splitBytes_append offset text).symm, h⟩
  · rintro ⟨front, back, rfl, rfl⟩
    rw [before, splitBytes_byteSize]

theorem isBoundary_front (front back : List Char) :
    isBoundary (byteSize front) (front ++ back) = true :=
  isBoundary_iff.mpr ⟨front, back, rfl, rfl⟩

theorem isBoundary_zero (text : List Char) : isBoundary 0 text = true :=
  isBoundary_front [] text

theorem isBoundary_byteSize (text : List Char) : isBoundary (byteSize text) text = true :=
  isBoundary_iff.mpr ⟨text, [], (List.append_nil text).symm, rfl⟩

theorem le_byteSize {offset : Nat} {text : List Char} (h : isBoundary offset text = true) :
    offset ≤ byteSize text := by
  obtain ⟨front, back, rfl, rfl⟩ := isBoundary_iff.mp h
  rw [byteSize_append]
  exact Nat.le_add_right _ _

end Source

namespace Span

/-- A range of bytes of the text that starts and ends between characters. -/
structure ValidIn (text : List Char) (s : Span) : Prop where
  ordered : s.start ≤ s.stop
  within : s.stop ≤ Source.byteSize text
  start : Source.isBoundary s.start text = true
  stop : Source.isBoundary s.stop text = true

variable {text : List Char} {s t : Span}

theorem ValidIn.of_boundaries (ordered : s.start ≤ s.stop)
    (start : Source.isBoundary s.start text = true)
    (stop : Source.isBoundary s.stop text = true) : s.ValidIn text :=
  ⟨ordered, Source.le_byteSize stop, start, stop⟩

/-- The valid spans are those with a slice. -/
theorem slice?_isSome : (s.slice? text).isSome = true ↔ s.ValidIn text := by
  rw [slice?, Source.slice?]
  split
  · rename_i h
    simp only [Bool.and_eq_true, decide_eq_true_eq] at h
    exact iff_of_true rfl (.of_boundaries h.2 h.1.1 h.1.2)
  · rename_i h
    refine iff_of_false (by simp) fun valid => h ?_
    simp [valid.start, valid.stop, valid.ordered]

instance (text : List Char) (s : Span) : Decidable (s.ValidIn text) :=
  decidable_of_iff _ slice?_isSome

theorem validIn_origin (text : List Char) : origin.ValidIn text :=
  .of_boundaries (Nat.le_refl _) (Source.isBoundary_zero text) (Source.isBoundary_zero text)

/-- A valid span with characters in it. -/
structure Solid (text : List Char) (s : Span) : Prop where
  valid : s.ValidIn text
  present : s.start < s.stop

theorem Solid.of_boundaries (present : s.start < s.stop)
    (start : Source.isBoundary s.start text = true)
    (stop : Source.isBoundary s.stop text = true) : s.Solid text :=
  ⟨.of_boundaries (Nat.le_of_lt present) start stop, present⟩

/-- From the start of one span to the end of a later one. -/
theorem Solid.combine (hs : s.Solid text) (ht : t.Solid text) (h : s.start < t.stop) :
    (s.combine t).Solid text :=
  .of_boundaries h hs.valid.start ht.valid.stop

end Span

end Scriptlet
