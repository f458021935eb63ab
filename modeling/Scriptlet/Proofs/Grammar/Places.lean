import Scriptlet.Proofs.Grammar.Depth
import Scriptlet.Proofs.Source.Slices

/-!
# Places of parse errors

A match of the grammar moves over places of the source, and the scan of the nesting over ends of
it. What they find lies between characters, so a parse error has a valid span.
-/
namespace Scriptlet.Grammar

variable {source : List Char} {p q : Place} {a : Attempts}

/-! ## Places -/

/-- The place is where a front of the source ends. -/
def Place.In (source : List Char) (p : Place) : Prop :=
  ∃ front, source = front ++ p.text ∧ p.offset = Source.byteSize front

theorem Place.In.isBoundary (h : p.In source) : Source.isBoundary p.offset source = true := by
  obtain ⟨front, rfl, hoffset⟩ := h
  rw [hoffset]
  exact Source.isBoundary_front front p.text

theorem Place.In.after {front rest : List Char} (h : p.In source) (heq : p.text = front ++ rest) :
    (p.after front rest).In source := by
  obtain ⟨before, rfl, hoffset⟩ := h
  refine ⟨before ++ front, by simp [heq, Place.after], ?_⟩
  rw [Place.after, hoffset, Source.byteSize_append]

theorem Place.In.skipText? {chars : List Char} (h : p.In source) (hq : p.skipText? chars = some q) :
    q.In source := by
  unfold Place.skipText? at hq
  split at hq
  · rename_i hprefix
    obtain rfl := Option.some.inj hq
    exact h.after (List.prefix_iff_eq_append.mp (List.isPrefixOf_iff_prefix.mp hprefix)).symm
  · contradiction

theorem Place.In.skipOne? {test : Char → Bool} (h : p.In source) (hq : p.skipOne? test = some q) :
    q.In source := by
  unfold Place.skipOne? at hq
  split at hq
  · rename_i c rest htext
    split at hq
    · obtain rfl := Option.some.inj hq
      exact h.after htext
    · contradiction
  · contradiction

theorem Place.In.skip (h : p.In source) (s : Surroundings) : (s.skip p).In source := by
  rw [Surroundings.skip]
  split
  · exact h.after (splitTrivia_append p.text).symm
  · exact h

/-! ## Matches -/

theorem Attempts.offset_record (a : Attempts) (negated : Bool) (rule : Rule) (offset : Nat)
    (earlier : Attempts) :
    (a.record negated rule offset earlier).offset = a.offset ∨
      (a.record negated rule offset earlier).offset = offset := by
  unfold Attempts.record
  grind

/-- The end of a match, if there is one, and the farthest attempt are places of the source. -/
structure Outcome.In (source : List Char) (r : Outcome) : Prop where
  place : ∀ q, r.1 = some q → q.In source
  tried : Source.isBoundary r.2.offset source = true

theorem Outcome.In.fail (tried : Source.isBoundary a.offset source = true) :
    Outcome.In source (none, a) :=
  ⟨by simp, tried⟩

theorem Outcome.In.match (hp : p.In source) (tried : Source.isBoundary a.offset source = true) :
    Outcome.In source (some p, a) :=
  ⟨by simpa using hp, tried⟩

theorem run_in (fuel : Nat) (s : Surroundings) (pattern : Pattern) (hp : p.In source)
    (ha : Source.isBoundary a.offset source = true) :
    Outcome.In source (run fuel s pattern p a) := by
  induction fuel generalizing s pattern p a with
  | zero => exact .fail ha
  | succ fuel ih =>
    cases pattern with
    | text chars => exact ⟨fun q hq => hp.skipText? hq, ha⟩
    | one test => exact ⟨fun q hq => hp.skipOne? hq, ha⟩
    | stop =>
      rw [run]
      split
      · exact .match hp ha
      · exact .fail ha
    | seq first second =>
      have h := ih s first hp ha
      rw [run]
      generalize run fuel s first p a = r at h ⊢
      obtain ⟨_ | q, b⟩ := r
      · exact h
      · exact ih s second ((h.place q rfl).skip s) h.tried
    | alt first second =>
      have h := ih s first hp ha
      rw [run]
      generalize run fuel s first p a = r at h ⊢
      obtain ⟨_ | q, b⟩ := r
      · exact ih s second hp h.tried
      · exact h
    | opt inner =>
      have h := ih s inner hp ha
      rw [run]
      generalize run fuel s inner p a = r at h ⊢
      obtain ⟨_ | q, b⟩ := r
      · exact .match hp h.tried
      · exact h
    | star inner =>
      have h := ih s inner hp ha
      rw [run]
      generalize run fuel s inner p a = r at h ⊢
      obtain ⟨_ | q, b⟩ := r
      · exact .match hp h.tried
      -- The rest of the repetition ends further on, or nothing more of it matched.
      have hq := h.place q rfl
      have h' := ih s (.star inner) (hq.skip s) h.tried
      dsimp only
      generalize run fuel s (.star inner) (s.skip q) b = r' at h' ⊢
      obtain ⟨_ | r, c⟩ := r'
      · exact .match hq h'.tried
      · refine .match ?_ h'.tried
        split
        · exact hq
        · exact h'.place r rfl
    | absent inner =>
      have h := ih { s with negated := !s.negated } inner hp ha
      rw [run]
      generalize run fuel { s with negated := !s.negated } inner p a = r at h ⊢
      obtain ⟨_ | q, b⟩ := r
      · exact .match hp h.tried
      · exact .fail h.tried
    | rule rule =>
      have h := ih (s.enter rule) rule.pattern hp ha
      rw [run]
      generalize run fuel (s.enter rule) rule.pattern p a = r at h ⊢
      obtain ⟨result, b⟩ := r
      dsimp only
      split
      · refine ⟨h.place, ?_⟩
        rcases b.offset_record s.negated rule p.offset a with heq | heq <;> rw [heq]
        · exact h.tried
        · exact hp.isBoundary
      · exact h

/-! ## Errors -/

theorem explain_validIn (source : List Char) : (explain source).span.ValidIn source := by
  have start : Place.In source ⟨0, source⟩ := ⟨[], rfl, rfl⟩
  have untried : Source.isBoundary Attempts.start.offset source = true :=
    Source.isBoundary_zero source
  have tried : Source.isBoundary (attempts source).offset source = true :=
    (run_in (fuelFor source) ⟨.spaced, false⟩ (.rule .main) start untried).tried
  exact .of_boundaries (Nat.le_refl _) tried tried

namespace Nesting

theorem skipPassage?_suffix {c : Char} {rest after : List Char}
    (h : skipPassage? c rest = some after) : after <:+ rest := by
  unfold skipPassage? at h
  split at h
  · obtain rfl := Option.some.inj h
    cases hq : Source.quoted? c rest with
    | none => exact List.nil_suffix
    | some r => exact ⟨r.1 ++ [c], by simp [Source.eq_of_quoted? hq]⟩
  · split at h
    · split at h
      · rename_i line
        obtain rfl := Option.some.inj h
        exact (List.dropWhile_suffix _).trans (List.suffix_cons _ _)
      · rename_i block
        obtain rfl := Option.some.inj h
        refine List.IsSuffix.trans ?_ (List.suffix_cons _ _)
        cases hb : Source.block? block with
        | none => exact List.nil_suffix
        | some r => exact ⟨r.1 ++ ['*', '/'], by simp [Source.eq_of_block? hb]⟩
      · contradiction
    · contradiction

/-- The scan finds a parenthesis. -/
theorem tooDeepFrom?_suffix {limit depth : Nat} {text found : List Char}
    (h : tooDeepFrom? limit depth text = some found) :
    ∃ last, found = '(' :: last ∧ found <:+ text := by
  have longer (c : Char) {rest : List Char} (h : ∃ last, found = '(' :: last ∧ found <:+ rest) :
      ∃ last, found = '(' :: last ∧ found <:+ c :: rest :=
    h.imp fun _ h => ⟨h.1, h.2.trans (List.suffix_cons _ _)⟩
  induction depth, text using tooDeepFrom?.induct limit with
  | case1 depth =>
    rw [tooDeepFrom?] at h
    contradiction
  | case2 depth c rest after passage ih =>
    rw [tooDeepFrom?_skip passage] at h
    obtain ⟨last, rfl, suffix⟩ := ih h
    exact longer c ⟨last, rfl, suffix.trans (skipPassage?_suffix passage)⟩
  | case3 depth rest deep none =>
    rw [tooDeepFrom?_step none, if_pos rfl, if_pos deep] at h
    exact ⟨rest, (Option.some.inj h).symm, Option.some.inj h ▸ List.suffix_refl _⟩
  | case4 depth rest shallow none ih =>
    rw [tooDeepFrom?_step none, if_pos rfl, if_neg shallow] at h
    exact longer '(' (ih h)
  | case5 depth rest none other ih =>
    rw [tooDeepFrom?_step none, if_neg other, if_pos rfl] at h
    exact longer ')' (ih h)
  | case6 depth c rest none other other' ih =>
    rw [tooDeepFrom?_step none, if_neg other, if_neg other'] at h
    exact longer c (ih h)

theorem validIn_of_tooDeep? {limit offset : Nat} (h : tooDeep? limit source = some offset) :
    Span.ValidIn source ⟨offset, offset + 1⟩ := by
  obtain ⟨found, hfound, rfl⟩ := Option.map_eq_some_iff.mp h
  obtain ⟨last, rfl, front, rfl⟩ := tooDeepFrom?_suffix hfound
  have offset : Source.byteSize (front ++ '(' :: last) - Source.byteSize ('(' :: last) =
      Source.byteSize front := by
    rw [Source.byteSize_append, Nat.add_sub_cancel]
  rw [offset]
  refine .of_boundaries (Nat.le_succ _) (Source.isBoundary_front front _) ?_
  exact Source.isBoundary_iff.mpr ⟨front ++ ['('], last, by simp, by simp; decide⟩

end Nesting

/-- What is wrong with a source before it has a tree is at a slice of it. -/
theorem validIn_of_parse {limit : Nat} {e : ParseError} (h : parse limit source = .error e) :
    e.span.ValidIn source := by
  unfold parse at h
  split at h
  · rename_i offset deep
    obtain rfl := Except.error.inj h
    exact Nesting.validIn_of_tooDeep? deep
  · split at h
    · contradiction
    · obtain rfl := Except.error.inj h
      exact explain_validIn source

end Scriptlet.Grammar
