import Scriptlet.Grammar.Attempt
import Scriptlet.Grammar.Nesting
import Scriptlet.Grammar.Reader

/-!
# Parsing

A source is parsed after its nesting has been checked. A source that cannot be read is
explained.
-/
namespace Scriptlet.Grammar

/-- The limit on nested parentheses when none is given. -/
def defaultDepth : Nat := 128

/-- The tree of a source whose parentheses are nested at most `limit` deep. -/
def parse (limit : Nat) (source : List Char) : Except ParseError Script :=
  match Nesting.tooDeep? limit source with
  | some offset => .error ⟨.tooDeep (limit + 1) limit, ⟨offset, offset + 1⟩⟩
  | none =>
    match read? source with
    | some script => .ok script
    | none => .error (explain source)

end Scriptlet.Grammar
