import Scriptlet.Text.Blank
import Scriptlet.Text.Width

/-!
# Pages

The source of a report as it is laid out: lines with their terminators. Offsets on a page count
characters, and the end of the page belongs to its last line.
-/
namespace Scriptlet.Report

/-- The characters that end a line; a carriage return and a line feed end it together. -/
def isTerminator (c : Char) : Bool :=
  c == '\n' || c == '\r' || c == '\x0b' || c == '\x0c' || c == '\u0085' || c == '\u2028' ||
    c == '\u2029'

/-- The lines of a text, each with its terminator. -/
def splitLines : List Char → List (List Char)
  | [] => []
  | '\r' :: '\n' :: rest => ['\r', '\n'] :: splitLines rest
  | c :: rest =>
    if isTerminator c then [c] :: splitLines rest
    else
      match splitLines rest with
      | line :: lines => (c :: line) :: lines
      | [] => [[c]]

/-- Nothing of a text is lost in its lines. -/
theorem flatten_splitLines (text : List Char) : (splitLines text).flatten = text := by
  fun_induction splitLines text with
  | case1 => rfl
  | case2 rest ih => simp [ih]
  | case3 c rest hne hc ih => simp [ih]
  | case4 c rest hne hc line lines hl ih => rw [hl] at ih; simpa using ih
  | case5 c rest hne hc hl ih => rw [hl] at ih; simpa using ih

/-- A line with its terminator. -/
structure Line where
  /-- The number of characters before the line. -/
  start : Nat
  chars : List Char
  deriving DecidableEq, Repr

namespace Line

/-- Where the next line starts. -/
def stop (l : Line) : Nat := l.start + l.chars.length

/-- The offset is that of a character of the line. -/
def contains (l : Line) (offset : Nat) : Bool := decide (l.start ≤ offset) && decide (offset < l.stop)

/-- The text that is shown: without blanks at the end. -/
def shown (l : Line) : List Char := Text.trimEnd l.chars

end Line

/-- Lines one after the other from an offset on. -/
def placeLines (start : Nat) : List (List Char) → List Line
  | [] => []
  | chars :: rest => ⟨start, chars⟩ :: placeLines (start + chars.length) rest

/-- A source in lines. -/
structure Page where
  lines : List Line
  /-- The number of characters. -/
  size : Nat

/-- A character's place on a page, counted from zero. -/
structure Position where
  line : Nat
  column : Nat
  deriving DecidableEq, Repr

namespace Page

/-- An empty text is one empty line. -/
def ofText (chars : List Char) : Page :=
  if chars.isEmpty then ⟨[⟨0, []⟩], 0⟩
  else ⟨placeLines 0 (splitLines chars), chars.length⟩

/-- The number of the line that an offset on the page belongs to: the last one that starts at or
before it. -/
def lineNumber? (p : Page) (offset : Nat) : Option Nat :=
  if offset ≤ p.size then some ((p.lines.takeWhile (·.start ≤ offset)).length - 1) else none

/-- The place of an offset. -/
def position? (p : Page) (offset : Nat) : Option Position :=
  (p.lineNumber? offset).bind fun number =>
    p.lines[number]?.map fun line => ⟨number, offset - line.start⟩

/-- The lines that a range touches, by number from the first up to the second; a range that ends
after the page touches all lines from its first one on. -/
def touched (p : Page) (start stop : Nat) : Nat × Nat :=
  ((p.lineNumber? start).getD 0,
    ((p.lineNumber? (max (stop - 1) start)).map (· + 1)).getD p.lines.length)

end Page

/-! ## Columns -/

/-- What is drawn for a character at an index of its line, and over how many columns: a tab is
blank up to the next multiple of four indices. -/
def cell (index : Nat) (c : Char) : Char × Nat :=
  if c = '\t' then (' ', (index / 4 + 1) * 4 - index)
  else if Text.isBlank c then (' ', 1)
  else (c, Text.columns c)

end Scriptlet.Report
