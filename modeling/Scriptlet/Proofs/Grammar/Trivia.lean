import Mathlib.Data.List.Infix
import Mathlib.Data.List.TakeWhile
import Scriptlet.Grammar.Token

/-!
# Blanks and comments

What may stand between two tokens: blanks and comments that are closed. Splitting it off takes all
of it, and goes on with what follows.
-/
namespace Scriptlet

namespace Source

theorem block?_of_not_infix {body : List Char} (h : ¬ ['*', '/'] <:+: body ++ ['*'])
    (rest : List Char) : block? (body ++ '*' :: '/' :: rest) = some (body, rest) := by
  induction body with
  | nil => rfl
  | cons c body ih =>
    rw [List.cons_append, List.infix_cons_iff, not_or] at h
    -- The comment would end here if the next character closed it.
    have going : ∀ r, c = '*' → body ++ '*' :: '/' :: rest = '/' :: r → False := by
      rintro r rfl hr
      cases body with
      | nil => cases hr
      | cons d body =>
        obtain ⟨rfl, -⟩ := List.cons.inj hr
        exact h.1 ⟨body ++ ['*'], rfl⟩
    rw [List.cons_append, block?.eq_3 _ _ going, ih h.2]
    rfl

theorem not_infix_of_block? {text body rest : List Char} (h : block? text = some (body, rest)) :
    ¬ ['*', '/'] <:+: body ++ ['*'] := by
  induction text using block?.induct generalizing body rest with
  | case1 => simp [block?] at h
  | case2 tail =>
    simp only [block?, Option.some.injEq, Prod.mk.injEq] at h
    obtain ⟨rfl, rfl⟩ := h
    decide
  | case3 c tail hne ih =>
    rw [block?.eq_3 _ _ hne, Option.map_eq_some_iff] at h
    obtain ⟨⟨b, r⟩, h, heq⟩ := h
    obtain ⟨rfl, rfl⟩ := Prod.mk.inj heq
    rw [List.cons_append, List.infix_cons_iff, not_or]
    refine ⟨?_, ih h⟩
    rintro ⟨front, hfront⟩
    obtain ⟨rfl, htail⟩ := List.cons.inj hfront
    have ends := eq_of_block? h
    cases b with
    | nil => cases htail
    | cons d b =>
      obtain ⟨rfl, -⟩ := List.cons.inj htail
      exact hne _ rfl ends

end Source

namespace Grammar

/-- A comment with its end: a line feed, or the closing mark where it stands first. -/
inductive Comment : List Char → Prop
  | line {body : List Char} (oneLine : '\n' ∉ body) : Comment ('/' :: '/' :: (body ++ ['\n']))
  | block {body : List Char} (opened : ¬ ['*', '/'] <:+: body ++ ['*']) :
    Comment ('/' :: '*' :: (body ++ ['*', '/']))

/-- Blanks and comments. -/
inductive Trivia : List Char → Prop
  | nil : Trivia []
  | blank {c : Char} {rest : List Char} (blank : isBlank c = true) (later : Trivia rest) :
    Trivia (c :: rest)
  | comment {front rest : List Char} (comment : Comment front) (later : Trivia rest) :
    Trivia (front ++ rest)

theorem Trivia.blanks {text : List Char} (h : ∀ c ∈ text, isBlank c = true) : Trivia text := by
  induction text with
  | nil => exact .nil
  | cons c rest ih =>
    obtain ⟨first, h⟩ := List.forall_mem_cons.mp h
    exact .blank first (ih h)

theorem Trivia.append {front rest : List Char} (h : Trivia front) (h' : Trivia rest) :
    Trivia (front ++ rest) := by
  induction h with
  | nil => exact h'
  | blank blank _ ih => exact .blank blank ih
  | comment comment _ ih =>
    rw [List.append_assoc]
    exact .comment comment ih

theorem Trivia.tail {c : Char} {rest : List Char} (h : Trivia (c :: rest))
    (hc : c ≠ '/') : Trivia rest := by
  generalize htext : c :: rest = text at h
  cases h with
  | nil => cases htext
  | blank _ later =>
    obtain ⟨-, rfl⟩ := List.cons.inj htext
    exact later
  | comment comment _ => cases comment <;> exact absurd (List.cons.inj htext).1 hc

/-! ## Splitting trivia off -/

theorem splitTrivia_blank {c : Char} (blank : isBlank c = true) (text : List Char) :
    splitTrivia (c :: text) = (c :: (splitTrivia text).1, (splitTrivia text).2) := by
  rw [splitTrivia, if_pos blank]

theorem splitTrivia_comment {text front rest : List Char} (h : comment? text = some (front, rest)) :
    splitTrivia text = (front ++ (splitTrivia rest).1, (splitTrivia rest).2) := by
  cases text with
  | nil => cases h
  | cons c tail =>
    have slash : isBlank c = false := by
      unfold comment? at h
      split at h <;> first | contradiction | simp_all [isBlank]
    rw [splitTrivia, if_neg (by simp [slash])]
    split
    · rename_i front' rest' h'
      rw [h] at h'
      obtain ⟨rfl, rfl⟩ := Prod.mk.inj (Option.some.inj h')
      rfl
    · rename_i h'
      rw [h] at h'
      contradiction

theorem comment?_line {body : List Char} (h : '\n' ∉ body) (rest : List Char) :
    comment? ('/' :: '/' :: (body ++ '\n' :: rest)) = some ('/' :: '/' :: body, '\n' :: rest) := by
  have all : ∀ c ∈ body, decide (c ≠ '\n') = true := by
    intro c hc
    simp only [decide_eq_true_eq]
    rintro rfl
    exact h hc
  rw [comment?, List.takeWhile_append_of_pos all, List.dropWhile_append_of_pos all,
    List.takeWhile_cons_of_neg (by simp), List.dropWhile_cons_of_neg (by simp), List.append_nil]

theorem comment?_block {body : List Char} (h : ¬ ['*', '/'] <:+: body ++ ['*'])
    (rest : List Char) :
    comment? ('/' :: '*' :: (body ++ '*' :: '/' :: rest)) =
      some ('/' :: '*' :: (body ++ ['*', '/']), rest) := by
  rw [comment?, Source.block?_of_not_infix h]
  rfl

theorem splitTrivia_of_comment {front : List Char} (h : Comment front) (text : List Char) :
    splitTrivia (front ++ text) = (front ++ (splitTrivia text).1, (splitTrivia text).2) := by
  cases h with
  | line oneLine =>
    have newline : isBlank '\n' = true := rfl
    have split := splitTrivia_comment (comment?_line oneLine text)
    rw [splitTrivia_blank newline] at split
    simpa using split
  | block opened => simpa using splitTrivia_comment (comment?_block opened text)

theorem splitTrivia_of_trivia {gap : List Char} (h : Trivia gap) (text : List Char) :
    splitTrivia (gap ++ text) = (gap ++ (splitTrivia text).1, (splitTrivia text).2) := by
  induction h with
  | nil => rfl
  | blank blank _ ih => rw [List.cons_append, splitTrivia_blank blank, ih, List.cons_append]
  | comment comment _ ih =>
    rw [List.append_assoc, splitTrivia_of_comment comment, ih, List.append_assoc]

theorem splitTrivia_none {c : Char} {rest : List Char} (hc : isBlank c = false)
    (h : comment? (c :: rest) = none) : splitTrivia (c :: rest) = ([], c :: rest) := by
  rw [splitTrivia, if_neg (by simp [hc])]
  split
  · rename_i h'
    rw [h] at h'
    contradiction
  · rfl

/-- Splitting stops at a token, or at a comment without an end. -/
theorem splitTrivia_stops {text rest : List Char} {c : Char}
    (h : (splitTrivia text).2 = c :: rest) :
    isBlank c = false ∧ comment? (c :: rest) = none := by
  fun_induction splitTrivia text with
  | case1 => cases h
  | case2 d tail blank front after hs ih => exact ih (by rw [hs]; exact h)
  | case3 d tail blank front after hc more last hs ih => exact ih (by rw [hs]; exact h)
  | case4 d tail blank hc =>
    obtain ⟨rfl, rfl⟩ := List.cons.inj h
    exact ⟨by simpa using blank, hc⟩

/-- A comment at the start of a text is closed, but for a line comment up to its line feed. -/
theorem comment_of_comment? {text front rest : List Char} (h : comment? text = some (front, rest)) :
    Comment front ∨ (∃ body, '\n' ∉ body ∧ front = '/' :: '/' :: body) ∧
      (rest = [] ∨ ∃ after, rest = '\n' :: after) := by
  unfold comment? at h
  split at h
  · rename_i line
    obtain ⟨rfl, rfl⟩ := Prod.mk.inj (Option.some.inj h)
    refine .inr ⟨⟨_, fun hmem => ?_, rfl⟩, ?_⟩
    · simpa using List.mem_takeWhile_imp hmem
    · cases hrest : line.dropWhile (· ≠ '\n') with
      | nil => exact .inl rfl
      | cons c after =>
        have stopped := List.head?_dropWhile_not (· ≠ '\n') line
        rw [hrest] at stopped
        exact .inr ⟨after, by simpa using stopped⟩
  · rename_i block
    obtain ⟨⟨body, r⟩, hblock, heq⟩ := Option.map_eq_some_iff.mp h
    obtain ⟨rfl, rfl⟩ := Prod.mk.inj heq
    exact .inl (.block (Source.not_infix_of_block? hblock))
  · contradiction

/-- What is split off before a token is closed. -/
theorem trivia_of_splitTrivia {text : List Char} (h : (splitTrivia text).2 ≠ []) :
    Trivia (splitTrivia text).1 := by
  fun_induction splitTrivia text with
  | case1 => exact absurd rfl h
  | case2 c tail blank front after hs ih =>
    rw [hs] at ih
    exact .blank blank (ih h)
  | case3 c tail blank front after hc more last hs ih =>
    rw [hs] at ih
    rcases comment_of_comment? hc with closed | ⟨⟨body, oneLine, rfl⟩, rfl | ⟨tail', rfl⟩⟩
    · exact .comment closed (ih h)
    · rw [splitTrivia] at hs
      exact absurd (Prod.mk.inj hs).2.symm h
    · have newline : isBlank '\n' = true := rfl
      rw [splitTrivia_blank newline] at hs
      obtain ⟨rfl, rfl⟩ := Prod.mk.inj hs
      have closed := Trivia.comment (.line oneLine) ((ih h).tail (by decide))
      simpa using closed
  | case4 c tail blank hc => exact .nil

end Grammar

end Scriptlet
