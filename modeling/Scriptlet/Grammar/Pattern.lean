import Scriptlet.Grammar.Rule
import Scriptlet.Grammar.Token

/-!
# The grammar as patterns

Each rule has a pattern of characters and other rules. Choices are ordered: the first
alternative that matches is taken.
-/
namespace Scriptlet.Grammar

inductive Pattern where
  /-- These characters. -/
  | text (s : List Char)
  /-- One character that passes a test. -/
  | one (test : Char → Bool)
  /-- The end of the source. -/
  | stop
  | rule (r : Rule)
  | seq (first second : Pattern)
  | alt (first second : Pattern)
  /-- Any number of times. -/
  | star (p : Pattern)
  | opt (p : Pattern)
  /-- Matches nothing, where the pattern does not match. -/
  | absent (p : Pattern)

namespace Pattern

/-- One after the other. -/
def seqs (first : Pattern) : List Pattern → Pattern
  | [] => first
  | second :: rest => .seq first (seqs second rest)

/-- The first of several that matches. -/
def alts (first : Pattern) : List Pattern → Pattern
  | [] => first
  | second :: rest => .alt first (alts second rest)

/-- One or more times, with nothing in between. -/
def plus (p : Pattern) : Pattern := .seq p (.star p)

end Pattern

/-- How a rule treats what stands between its parts, and whether errors mention it. -/
inductive Style where
  /-- Never mentioned; everything else as in the rule around it. -/
  | silent
  /-- Blanks and comments may stand between the parts. -/
  | spaced
  /-- Nothing stands between the parts. -/
  | compact
  /-- Nothing stands between the parts, and the rules inside are not mentioned. -/
  | atomic
  deriving DecidableEq

namespace Rule

def style : Rule → Style
  | .whitespace | .comment | .statement | .prefixOp | .primary | .binaryOp | .literal | .digits
  | .escape | .identChar => .silent
  | .null | .boolean | .number | .doubleQuoted | .singleQuoted | .keyword | .ident => .atomic
  | .string => .compact
  | _ => .spaced

/-- A text as a pattern. -/
def exactly (s : String) : Pattern := .text s.toList

/-- A word that no name continues. -/
def words (first : String) (rest : List String) : Pattern :=
  .seq (.alts (exactly first) (rest.map exactly)) (.absent (.rule .identChar))

/-- The body of a string literal in quotes of one sort. -/
def bodyOf (quote : Char) : Pattern :=
  .star (.alt (.one fun c => c != quote && c != '\\') (.rule .escape))

/-- The pattern of a rule. -/
def pattern : Rule → Pattern
  | .endOfInput => .stop
  | .whitespace => .one isBlank
  | .comment =>
    .alt (.seq (exactly "//") (.star (.one (· ≠ '\n'))))
      (.seqs (exactly "/*") [.star (.seq (.absent (exactly "*/")) (.one fun _ => true)), exactly "*/"])
  | .main =>
    .seqs (exactly "")
      [.star (exactly ";"), .opt (.seq (.rule .statement) (.star (.seq (.seq (exactly ";") (.star (exactly ";")))
        (.rule .statement)))),
       .star (exactly ";"), .rule .endOfInput]
  | .statement => .alt (.rule .assignment) (.rule .expression)
  | .assignment =>
    .seqs (.rule .ident) [exactly "=", .absent (exactly "="), .rule .expression]
  | .expression => .seq (.rule .operand) (.star (.seq (.rule .binaryOp) (.rule .operand)))
  | .operand => .seq (.star (.rule .prefixOp)) (.rule .primary)
  | .prefixOp => .alt (.rule .not) (.rule .neg)
  | .not => .seq (exactly "!") (.absent (exactly "="))
  | .neg => exactly "-"
  | .primary => .alts (.rule .literal) [.rule .ident, .rule .grouped]
  | .grouped => .seqs (exactly "(") [.rule .expression, exactly ")"]
  | .binaryOp => .alts (.rule (.operator .or)) ((operators.drop 1).map (.rule ∘ .operator))
  | .operator op => exactly op.symbol
  | .literal => .alts (.rule .null) [.rule .boolean, .rule .number, .rule .string]
  | .null => words "null" []
  | .boolean => words "true" ["false"]
  | .number =>
    .seqs (.rule .digits) [.opt (.seq (exactly ".") (.rule .digits)), .opt (.rule .suffix),
      .absent (.rule .identChar)]
  | .digits => .plus (.one Char.isDigit)
  | .suffix => .one isSuffix
  | .string =>
    .alt (.seqs (exactly "\"") [.rule .doubleQuoted, exactly "\""])
      (.seqs (exactly "'") [.rule .singleQuoted, exactly "'"])
  | .doubleQuoted => bodyOf '"'
  | .singleQuoted => bodyOf '\''
  | .escape => .seq (exactly "\\") (.one fun _ => true)
  | .keyword => words "null" ["true", "false"]
  | .ident =>
    .seqs (.absent (.rule .keyword)) [.one isNameStart, .star (.rule .identChar)]
  | .identChar => .one isNameChar

end Rule

end Scriptlet.Grammar
