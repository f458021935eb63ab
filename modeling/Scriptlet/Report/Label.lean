import Scriptlet.Report.Ink
import Scriptlet.Report.Page

/-!
# Labels

A label is a message on a range of the page. On each line it touches it leaves a mark, the column
at which its arrow starts: in the middle of a range within one line, at the ends of a range over
several lines.
-/
namespace Scriptlet.Report

structure Label where
  /-- Labels are told apart by number. -/
  number : Nat
  start : Nat
  stop : Nat
  message : String
  ink : Ink
  /-- The range goes over several lines. -/
  spansLines : Bool
  deriving DecidableEq, Repr

namespace Label

def length (l : Label) : Nat := l.stop - l.start

/-- The offset of the last character of the range, or of the empty range. -/
def last (l : Label) : Nat := max (l.stop - 1) l.start

/-- The range covers an offset. -/
def covers (l : Label) (offset : Nat) : Bool := decide (l.start ≤ offset) && decide (offset < l.stop)

/-- A label on a page, unless its range starts or ends off the page. -/
def place? (p : Page) (number start stop : Nat) (message : String) : Option Label :=
  match p.lineNumber? start, p.lineNumber? (max (stop - 1) start) with
  | some first, some last =>
    some ⟨number, start, stop, message, labelInk number, first != last⟩
  | _, _ => none

end Label

/-- The mark of a label on a line. -/
structure Mark where
  label : Label
  column : Nat
  /-- The message stands at this mark. -/
  speaks : Bool

namespace Mark

/-- Marks are drawn from left to right; of two in a column, that of the range that starts later
comes first. -/
def before (m n : Mark) : Bool :=
  decide (m.column < n.column) || (m.column == n.column && decide (n.label.start ≤ m.label.start))

/-- Whether the mark is one of the given label. -/
def isOf (m : Mark) (l : Label) : Bool := m.label.number == l.number

end Mark

/-- The least element in an order, the first one of several. -/
def least? {α : Type} (before : α → α → Bool) (items : List α) : Option α :=
  (items.mergeSort before).head?

namespace Line

/-- The mark of a label over several lines that starts on the line. -/
def startMark? (l : Line) (label : Label) : Option Mark :=
  if l.contains label.start then some ⟨label, label.start - l.start, false⟩ else none

/-- The mark of a label over several lines that ends on the line. -/
def endMark? (l : Line) (label : Label) : Option Mark :=
  if l.contains label.last then some ⟨label, label.last - l.start, true⟩ else none

/-- The mark of a label within the line. -/
def innerMark? (l : Line) (label : Label) : Option Mark :=
  if !label.spansLines && decide (l.start ≤ label.start) && decide (label.stop ≤ l.stop) then
    some ⟨label, (label.start + label.stop) / 2 - l.start, true⟩
  else none

end Line

/-- A line with the labels that meet it. -/
structure Layout where
  line : Line
  /-- The labels of the report that go over several lines, longest first. -/
  long : List Label
  /-- The leftmost mark of those on this line; the margin points straight at it. -/
  lead : Option Mark
  /-- The other marks in drawing order. A lead that starts on the line is not among them; one
  that ends on it is. -/
  marks : List Mark

namespace Layout

/-- The label's mark is the lead. -/
def isLead (l : Layout) (label : Label) : Bool := l.lead.any (·.isOf label)

/-- The labels over several lines, longest first. -/
def longLabels (labels : List Label) : List Label :=
  (labels.filter (·.spansLines)).mergeSort fun a b => decide (b.length ≤ a.length)

/-- The mark of a label over several lines that is drawn below the line. -/
def outerMark? (line : Line) (lead : Option Mark) (label : Label) : Option Mark :=
  match line.startMark? label with
  | some m => if lead.any (·.isOf label) then line.endMark? label else some m
  | none => line.endMark? label

/-- Lays out the labels of a report on a line. -/
def ofLine (labels : List Label) (line : Line) : Layout :=
  let long := longLabels labels
  let lead := least? Mark.before
    (long.filterMap fun label => (line.startMark? label).or (line.endMark? label))
  let outer := long.filterMap (outerMark? line lead)
  ⟨line, long, lead, (outer ++ labels.filterMap line.innerMark?).mergeSort Mark.before⟩

/-- No label meets the line. -/
def isBare (l : Layout) : Bool := l.marks.isEmpty && l.lead.isNone

/-- The line is inside a label over several lines. -/
def isInside (l : Layout) : Bool := l.long.any (·.covers l.line.start)

/-- The number of columns that arrows below the line take: two more than the labels. -/
def reach (l : Layout) : Nat :=
  2 + l.marks.foldl (fun width m =>
    if m.label.spansLines then l.line.chars.length else max width (m.label.stop - l.line.start)) 0

/-- The label with the shortest range, the first one of several. -/
def shortest? (labels : List Label) : Option Label :=
  least? (fun a b => decide (a.length ≤ b.length)) labels

/-- The ink of the source text at a column. -/
def textInk (l : Layout) (column : Nat) : Ink :=
  let labels := l.lead.toList.map (·.label) ++ l.long ++ l.marks.map (·.label)
  match shortest? (labels.filter (·.covers (l.line.start + column))) with
  | some label => label.ink
  | none => sourceInk

/-- The label that underlines a column. -/
def underline? (l : Layout) (column : Nat) : Option Label :=
  shortest? ((l.marks.map (·.label)).filter fun label =>
    !label.spansLines && label.covers (l.line.start + column))

/-- The mark whose arrow comes down through a column to a row at or below the given one. -/
def falling? (l : Layout) (column row : Nat) : Option Mark :=
  (l.marks.drop row).find? fun m => m.column == column && !l.isLead m.label

end Layout

end Scriptlet.Report
