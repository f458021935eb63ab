import Scriptlet.Source.Passage
import Scriptlet.Text.Letter

/-!
# Macros

A macro is a name that stands for a text. Expansion replaces whole words that are names of
macros. Quoted texts and comments are copied, and so is a word right after a point. What a macro
brings in is not searched again.
-/
namespace Scriptlet

/-- Macros by name; the last one given for a name counts. -/
structure MacroTable where
  entries : List (String × String)
  deriving DecidableEq, Repr, Inhabited

namespace MacroTable

def empty : MacroTable := ⟨[]⟩

def isEmpty (t : MacroTable) : Bool := t.entries.isEmpty

/-- Gives a name its text. -/
def define (t : MacroTable) (name text : String) : MacroTable := ⟨(name, text) :: t.entries⟩

/-- The text of a name. -/
def text? (t : MacroTable) (name : String) : Option String := t.entries.lookup name

/-- A character that may start the name of a macro. -/
def isWordStart (c : Char) : Bool := Text.isLetter c || c == '_' || c == '$'

/-- A character of a word. -/
def isWordChar (c : Char) : Bool :=
  Text.isLetter c || Text.isNumeral c || c == '_' || c == '$'

/-- Splits after the closing quote, or at the end if there is none. -/
def splitQuoted (quote : Char) (text : List Char) : List Char × List Char :=
  match Source.quoted? quote text with
  | some (body, rest) => (body ++ [quote], rest)
  | none => (text, [])

/-- Splits after the end of a block comment, or at the end if there is none. -/
def splitBlock (text : List Char) : List Char × List Char :=
  match Source.block? text with
  | some (body, rest) => (body ++ ['*', '/'], rest)
  | none => (text, [])

/-- Splits off what belongs to the chunk that starts with `c`: a quoted text, a comment, a word
or nothing more. -/
def splitChunk (c : Char) (rest : List Char) : List Char × List Char :=
  if c = '"' ∨ c = '\'' then splitQuoted c rest
  else if c = '/' ∧ rest.head? = some '/' then
    (rest.takeWhile (· ≠ '\n'), rest.dropWhile (· ≠ '\n'))
  else if c = '/' ∧ rest.head? = some '*' then
    let (body, rest) := splitBlock rest.tail
    ('*' :: body, rest)
  else if isWordChar c then (rest.takeWhile isWordChar, rest.dropWhile isWordChar)
  else ([], rest)

theorem splitQuoted_append (quote : Char) (text : List Char) :
    (splitQuoted quote text).1 ++ (splitQuoted quote text).2 = text := by
  unfold splitQuoted
  split
  · rename_i body rest h
    simp [Source.eq_of_quoted? h]
  · simp

theorem splitBlock_append (text : List Char) :
    (splitBlock text).1 ++ (splitBlock text).2 = text := by
  unfold splitBlock
  split
  · rename_i body rest h
    simp [Source.eq_of_block? h]
  · simp

/-- A chunk and what follows it make up the text. -/
theorem splitChunk_append (c : Char) (rest : List Char) :
    (splitChunk c rest).1 ++ (splitChunk c rest).2 = rest := by
  unfold splitChunk
  split
  · exact splitQuoted_append c rest
  · split
    · exact List.takeWhile_append_dropWhile
    · split
      · rename_i h
        cases rest with
        | nil => simp at h
        | cons d tail =>
          simp only [List.head?_cons, Option.some.injEq] at h
          simp [h.2, splitBlock_append]
      · split
        · exact List.takeWhile_append_dropWhile
        · rfl

theorem length_splitChunk_le (c : Char) (rest : List Char) :
    (splitChunk c rest).2.length ≤ rest.length := by
  have h := congrArg List.length (splitChunk_append c rest)
  simp only [List.length_append] at h
  omega

/-- The text with its macros expanded; `afterPoint` tells that a point stands right before. -/
def expandFrom (t : MacroTable) (afterPoint : Bool) : List Char → List Char
  | [] => []
  | c :: tail =>
    let chunk := c :: (splitChunk c tail).1
    let expansion :=
      if isWordStart c && !afterPoint then t.text? (String.ofList chunk) else none
    match expansion with
    | some text => text.toList ++ expandFrom t false (splitChunk c tail).2
    | none => chunk ++ expandFrom t (c == '.') (splitChunk c tail).2
termination_by text => text.length
decreasing_by
  all_goals
    have h := length_splitChunk_le c tail
    simp only [List.length_cons]
    omega

/-- The source with its macros expanded. -/
def expand (t : MacroTable) (source : String) : String :=
  String.ofList (expandFrom t false source.toList)

end MacroTable

end Scriptlet
