import Scriptlet.Source.Text

/-!
# Lines and columns

A location names a file and a position in it. Lines end with a line feed and are counted from
one, columns count characters from one. A `LineIndex` answers the line of many offsets.
-/
namespace Scriptlet

/-- A position in a named source. -/
structure Location where
  file : String
  line : Nat
  column : Nat
  deriving DecidableEq, Repr

namespace Location

/-- The characters after the last line feed. -/
def lastLine (text : List Char) : List Char := (text.reverse.takeWhile (· ≠ '\n')).reverse

/-- The position of an offset; an offset past the end is the end. -/
def ofOffset (file : String) (source : List Char) (offset : Nat) : Location :=
  let front := Source.before offset source
  ⟨file, front.count '\n' + 1, (lastLine front).length + 1⟩

/-- The position of an offset, unless it lies inside a character. -/
def ofOffset? (file : String) (source : List Char) (offset : Nat) : Option Location :=
  let capped := min offset (Source.byteSize source)
  if Source.isBoundary capped source then some (ofOffset file source capped) else none

/-- The name of a source that was given none. -/
def unknownFile : String := "<unknown>"

/-- A position as `file:line:column`. -/
def display (l : Location) : String :=
  l.file ++ ":" ++ String.ofList (Nat.toDigits 10 l.line) ++ ":" ++
    String.ofList (Nat.toDigits 10 l.column)

end Location

/-- The start offsets of the lines of a source, in order. -/
structure LineIndex where
  starts : List Nat

namespace LineIndex

/-- The offsets after the line feeds of a text that starts at `offset`. -/
def lineStarts (offset : Nat) : List Char → List Nat
  | [] => []
  | c :: rest =>
    let next := offset + c.utf8Size
    if c = '\n' then next :: lineStarts next rest else lineStarts next rest

/-- The lines of a source; the first one starts at zero. -/
def ofSource (source : List Char) : LineIndex := ⟨0 :: lineStarts 0 source⟩

/-- The line of an offset: the number of lines that start at or before it. -/
def line (index : LineIndex) (offset : Nat) : Nat :=
  (index.starts.takeWhile (· ≤ offset)).length

end LineIndex

end Scriptlet
