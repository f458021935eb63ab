import Scriptlet.Source.Passage
import Scriptlet.Source.Text

/-!
# Nesting

A scan that finds the first parenthesis nested deeper than a limit, before the source is read.
Parentheses in quoted texts and comments do not count, and neither do closing ones too many.
-/
namespace Scriptlet.Grammar.Nesting

/-- What follows a passage that starts with `c`, or nothing to skip. A passage without an end
takes the whole rest. -/
def skipPassage? (c : Char) (rest : List Char) : Option (List Char) :=
  if c = '"' ∨ c = '\'' then some (((Source.quoted? c rest).map (·.2)).getD [])
  else if c = '/' then
    match rest with
    | '/' :: line => some (line.dropWhile (· ≠ '\n'))
    | '*' :: block => some (((Source.block? block).map (·.2)).getD [])
    | _ => none
  else none

theorem length_quoted_le (quote : Char) (text : List Char) :
    (((Source.quoted? quote text).map (·.2)).getD []).length ≤ text.length := by
  cases h : Source.quoted? quote text with
  | none => simp
  | some r =>
    obtain ⟨body, rest⟩ := r
    have := congrArg List.length (Source.eq_of_quoted? h)
    simp only [List.length_append, List.length_cons] at this
    simp
    omega

theorem length_block_le (text : List Char) :
    (((Source.block? text).map (·.2)).getD []).length ≤ text.length := by
  cases h : Source.block? text with
  | none => simp
  | some r =>
    obtain ⟨body, rest⟩ := r
    have := congrArg List.length (Source.eq_of_block? h)
    simp only [List.length_append, List.length_cons] at this
    simp
    omega

theorem length_skipPassage? {c : Char} {rest after : List Char}
    (h : skipPassage? c rest = some after) : after.length ≤ rest.length := by
  unfold skipPassage? at h
  split at h
  · simp only [Option.some.injEq] at h
    exact h ▸ length_quoted_le c rest
  · split at h
    · split at h
      · rename_i line
        simp only [Option.some.injEq] at h
        have : (line.dropWhile (· ≠ '\n')).length ≤ line.length :=
          (List.dropWhile_sublist _).length_le
        simp only [← h, List.length_cons]
        exact Nat.le_succ_of_le this
      · rename_i block
        simp only [Option.some.injEq] at h
        have := length_block_le block
        simp only [← h, List.length_cons]
        omega
      · simp at h
    · simp at h

/-- The text from the first parenthesis nested deeper than `limit` on; `depth` counts the
parentheses that are open. -/
def tooDeepFrom? (limit depth : Nat) : List Char → Option (List Char)
  | [] => none
  | c :: rest =>
    match _h : skipPassage? c rest with
    | some after => tooDeepFrom? limit depth after
    | none =>
      if c = '(' then
        if limit ≤ depth then some (c :: rest) else tooDeepFrom? limit (depth + 1) rest
      else if c = ')' then tooDeepFrom? limit (depth - 1) rest
      else tooDeepFrom? limit depth rest
termination_by text => text.length
decreasing_by
  · have := length_skipPassage? _h
    simp only [List.length_cons]
    omega
  all_goals simp

/-- The offset of the first parenthesis nested deeper than `limit`. -/
def tooDeep? (limit : Nat) (source : List Char) : Option Nat :=
  (tooDeepFrom? limit 0 source).map fun rest => Source.byteSize source - Source.byteSize rest

end Scriptlet.Grammar.Nesting
