import Scriptlet.Proofs.Compile.Graft
import Scriptlet.Proofs.Compile.Legible
import Scriptlet.Proofs.Grammar.Expansion

/-!
# Strings in quotes

Every string can be written as a literal: between quotes, with a backslash before each quote and
each backslash in it. What reads a source by its characters passes over such a literal as a whole,
whatever it holds.
-/
namespace Scriptlet

namespace Literal

/-- A character between quotes. -/
def shield (quote c : Char) : List Char := if c = '\\' ∨ c = quote then ['\\', c] else [c]

/-- The text in quotes. -/
def quoted (quote : Char) (text : List Char) : List Char :=
  quote :: text.flatMap (shield quote) ++ [quote]

variable {quote : Char} (mark : quote = '"' ∨ quote = '\'')

include mark

theorem shows_shield (c : Char) : Shows quote c (shield quote c) := by
  by_cases special : c = '\\' ∨ c = quote
  · have itself : c ≠ 'u' ∧ escaped c = c := by
      rcases special with rfl | rfl
      · decide
      · rcases mark with rfl | rfl <;> decide
    exact .inl ⟨c, itself.1, itself.2, if_pos special⟩
  · exact .inr ⟨fun h => special (.inr h), fun h => special (.inl h), if_neg special⟩

/-- The closing quote is the one at the end. -/
theorem quoted?_shield (text : List Char) :
    Source.quoted? quote (text.flatMap (shield quote) ++ [quote]) =
      some (text.flatMap (shield quote), []) := by
  have slashless : quote ≠ '\\' := by rcases mark with rfl | rfl <;> decide
  exact quoted?_flatMap slashless (fun c _ => shows_shield mark c) []

theorem unescape_shield (text : List Char) :
    unescape (text.flatMap (shield quote)) = .ok text :=
  unescape_flatMap fun c _ => shows_shield mark c

end Literal

namespace Grammar

variable {quote : Char}

/-- The statement that is a string literal. -/
def stringStatement (quote : Char) (body : List Char) : Statement :=
  .expression (.mk (.mk [] (.leaf (.string quote body) .origin)) .nil .origin)

/-- A quoted text is one token. -/
theorem laidOut_quoted (mark : quote = '"' ∨ quote = '\'') (text : List Char) :
    LaidOut (Literal.quoted quote text)
      [⟨[], .leaf (.string quote (text.flatMap (Literal.shield quote))),
        Literal.quoted quote text⟩] := by
  have nothing : LaidOut [] [] := .done (by simp [splitTrivia])
  have laid := LaidOut.piece .nil (.string mark (Literal.quoted?_shield mark text)) (by simp)
    nothing
  simpa [Literal.quoted] using laid

theorem parse_quoted (mark : quote = '"' ∨ quote = '\'') (text : List Char) (limit : Nat) :
    ∃ script, parse limit (Literal.quoted quote text) = .ok script ∧
      script.statements.map Statement.bare =
        [stringStatement quote (text.flatMap (Literal.shield quote))].map Statement.bare :=
  (laidOut_quoted mark text).parse (.last (.expression _)) rfl (by simp)

end Grammar

open Grammar in
theorem Compile.compileStatements_string {quote : Char} {body : List Char} {text : String}
    (read : Literal.unescape body = .ok text.toList) (ctx : BuildContext) (scope : Scope) :
    compileStatements ctx none scope .empty [stringStatement quote body] =
      .ok ([⟨0⟩], (Arena.empty.push (.literal (.string text) .string) (some .origin)).2) := by
  refine compileStatements_single.mpr ⟨_, _, ?_, rfl, rfl⟩
  have leaf : Formula.ofExpression
      (.mk (.mk [] (.leaf (.string quote body) .origin)) .nil .origin) =
        .leaf (.string quote body) .origin := rfl
  rw [leaf, Formula.build, compileLeaf, compileString, read]
  simp only [String.ofList_toList]
  rfl

/-- A quoted text compiles into the string that it quotes, under every limit on the nesting of
parentheses, and macros leave it as it is. -/
theorem compile_quoted {quote : Char} (mark : quote = '"' ∨ quote = '\'') (text : String) :
    (∀ (ctx : BuildContext) (inputs : List (String × Ty)) (debugSymbols : Bool) (limit : Nat),
      ∃ p, compile { ctx with source := Literal.quoted quote text.toList } inputs debugSymbols
          limit = .ok p ∧
        p.statements = [⟨0⟩] ∧ p.arena.nodes = [.literal (.string text) .string]) ∧
    ∀ table : MacroTable, table.expand (String.ofList (Literal.quoted quote text.toList)) =
      String.ofList (Literal.quoted quote text.toList) := by
  constructor
  · intro ctx inputs debugSymbols limit
    obtain ⟨script, parsed, bare⟩ := Grammar.parse_quoted mark text.toList limit
    exact compile_of_bare parsed bare (Compile.compileStatements_string
      (Literal.unescape_shield mark text.toList) ctx (.ofInputs inputs))
  · intro table
    have copied := table.expandFrom_string mark (Literal.quoted?_shield mark text.toList) []
    rw [List.append_nil, MacroTable.expandFrom, List.append_nil] at copied
    rw [MacroTable.expand, String.toList_ofList, Literal.quoted, copied]

/-- A text with both quotes, parentheses, a comment, an escape of a code point and a backslash at
the end, under a limit that allows no parentheses and with a macro for a word in it. -/
theorem compile_quoted_backslash :
    Literal.quoted '\'' "it's ((\"/* \\u0041 // \\".toList =
        "'it\\'s ((\"/* \\\\u0041 // \\\\'".toList ∧
      (∃ p, compile (strict "'it\\'s ((\"/* \\\\u0041 // \\\\'") [] true 0 = .ok p ∧
        p.statements = [⟨0⟩] ∧
        p.arena.nodes = [.literal (.string "it's ((\"/* \\u0041 // \\") .string]) ∧
      (MacroTable.empty.define "it" "that").expand "'it\\'s ((\"/* \\\\u0041 // \\\\'" =
        "'it\\'s ((\"/* \\\\u0041 // \\\\'" := by
  have text : Literal.quoted '\'' "it's ((\"/* \\u0041 // \\".toList =
      "'it\\'s ((\"/* \\\\u0041 // \\\\'".toList := by decide +kernel
  have quoted := compile_quoted (.inr rfl : '\'' = '"' ∨ '\'' = '\'')
    "it's ((\"/* \\u0041 // \\"
  rw [text, String.ofList_toList] at quoted
  exact ⟨text, quoted.1 (strict "") [] true 0, quoted.2 _⟩

end Scriptlet
