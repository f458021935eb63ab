import Scriptlet.Report.Label

/-!
# Margins

To the left of the source stands the margin: the line number, the frame, and one column of two
characters for every label over several lines, the longest one outermost, and one more for the
arrow into the line.
-/
namespace Scriptlet.Report

/-- What a margin stands beside. -/
inductive Beside where
  /-- The text of a line. -/
  | source
  /-- Lines that are left out. -/
  | gap
  /-- The rows below a line that belong to the mark of the given index: the row of vertical
  strokes, then the row of its arrow. -/
  | below (index : Nat) (arrow : Bool)
  deriving DecidableEq, Repr

/-- What the labels leave in a column of the margin. -/
structure Trace where
  /-- The arrow of a label leaves its column here; whether its range starts on the line. -/
  corner : Option (Label × Bool) := none
  /-- An arrow goes across the column. -/
  across : Option Label := none
  /-- A label's own line goes down the column. -/
  down : Option Label := none
  /-- The arrow of the lead goes into the line; whether its range starts there. -/
  inward : Option (Label × Bool) := none

namespace Trace

/-- A line goes down unless another one does. -/
def descend (t : Trace) (l : Label) : Trace := { t with down := t.down.or (some l) }

/-- A label beside the text of a line that it meets. -/
def besideSource (layout : Layout) (own : Bool) (l : Label) (t : Trace) : Trace :=
  let starts := layout.line.contains l.start
  if layout.isLead l then { t with inward := some (l, starts) }
  else if own && !starts then t.descend l
  else t

/-- A label beside the rows of its own mark. -/
def besideMark (layout : Layout) (own arrow : Bool) (l : Label) (t : Trace) : Trace :=
  let starts := layout.line.contains l.start
  let lead := layout.isLead l
  let t := if lead then { t with down := if own then some l else none } else t
  if lead && starts then t
  else if arrow then
    { t with across := some l, corner := if own then some (l, starts) else t.corner }
  else if own && !starts then t.descend l
  else t

/-- A label beside the rows of the mark of the given index. -/
def besideRow (layout : Layout) (own : Bool) (index : Nat) (arrow : Bool) (l : Label)
    (t : Trace) : Trace :=
  let starts := layout.line.contains l.start
  if !starts && !layout.line.contains l.last then if own then t.descend l else t
  else
    let ownIndex := (layout.marks.findIdx? (·.isOf l)).getD 0
    if index = ownIndex then besideMark layout own arrow l t
    else if own && (starts ^^ decide (index < ownIndex)) then t.descend l
    else t

/-- Adds what a label leaves in a column, its own one or another. -/
def add (layout : Layout) (beside : Beside) (own : Bool) (l : Label) (t : Trace) : Trace :=
  if decide (l.start ≤ layout.line.stop) && decide (layout.line.start < l.stop) then
    match beside with
    | .source | .gap => besideSource layout own l t
    | .below index arrow => besideRow layout own index arrow l t
  else t

/-- What the labels of a column and of the columns before it leave in it. -/
def ofColumn (layout : Layout) (beside : Beside) (column : Nat) : Trace :=
  (layout.long.take (column + 1)).zipIdx.foldl
    (fun t (l, i) => t.add layout beside (i == column) l) {}

/-- The line that goes down a column. -/
def downChar : Beside → Char
  | .gap => '┆'
  | _ => '│'

/-- A column of the margin. -/
def strokes (layout : Layout) (beside : Beside) (column : Nat) : Row :=
  let t := ofColumn layout beside column
  match t.corner, t.across, t.down, t.inward with
  | some (l, starts), _, _, _ => [dot l.ink (if starts then '╭' else '╰'), dot l.ink '─']
  | none, some l, _, _ => [dot l.ink '─', dot l.ink '─']
  | none, none, some l, _ => [dot l.ink (downChar beside), dot .plain ' ']
  | none, none, none, some (l, starts) =>
    if column = layout.long.length then [dot l.ink '▶', dot l.ink ' ']
    else if layout.long[column]?.any (·.number == l.number) then
      [dot l.ink (if starts then '╭' else '├'), dot l.ink '─']
    else [dot l.ink '─', dot l.ink '─']
  | none, none, none, none => [dot .plain ' ', dot .plain ' ']

end Trace

/-- The columns of the margin. -/
def columnStrokes (layout : Layout) (beside : Beside) : Row :=
  if layout.long.isEmpty then []
  else (List.range (layout.long.length + 1)).flatMap (Trace.strokes layout beside)

/-- The digits of a number with blanks before them. -/
def padded (width number : Nat) : List Char :=
  let digits := Nat.toDigits 10 number
  List.replicate (width - digits.length) ' ' ++ digits

/-- The frame beside a line with the given number, `width` digits wide. -/
def frame (width number : Nat) (beside : Beside) : Row :=
  let blank := List.replicate (width + 1) ' '
  let bar := match beside with
    | .source => Stroke.mk frameInk (padded width (number + 1) ++ " │".toList)
    | .gap => ⟨faintInk, blank ++ ['┆']⟩
    | .below .. => ⟨faintInk, blank ++ ['│']⟩
  [dot .plain ' ', bar, dot .plain ' ']

/-- The whole margin. -/
def margin (width number : Nat) (layout : Layout) (beside : Beside) : Row :=
  frame width number beside ++ columnStrokes layout beside

end Scriptlet.Report
