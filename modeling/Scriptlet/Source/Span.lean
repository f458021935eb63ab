import Scriptlet.Source.Text

/-!
# Spans

A span is a range of byte offsets of a source.
-/
namespace Scriptlet

/-- The bytes from `start` up to `stop`. -/
structure Span where
  start : Nat
  stop : Nat
  deriving DecidableEq, Repr

namespace Span

/-- The empty span at the start of a source. -/
def origin : Span := ⟨0, 0⟩

instance : Inhabited Span := ⟨origin⟩

/-- From the start of one span to the end of another. -/
def combine (a b : Span) : Span := ⟨a.start, b.stop⟩

/-- The part of the span that lies within the first `size` bytes. -/
def clamp (size : Nat) (s : Span) : Span := ⟨min s.start size, min s.stop size⟩

/-- The text of the span, if it is a valid range between characters. -/
def slice? (s : Span) (text : List Char) : Option (List Char) :=
  Source.slice? s.start s.stop text

end Span

end Scriptlet
