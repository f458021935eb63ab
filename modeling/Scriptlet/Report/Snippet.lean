import Scriptlet.Report.Margin

/-!
# Snippets

The lines of a page that labels meet, each with the arrows and messages of its marks below it.
Lines inside a label that meet no other one shrink to a gap.
-/
namespace Scriptlet.Report

namespace Layout

/-- The text of the line. -/
def sourceRow (l : Layout) : Row :=
  l.line.shown.zipIdx.flatMap fun (c, column) =>
    let (shown, width) := cell column c
    let width := if shown = ' ' then width else 1
    List.replicate width (dot (l.textInk column) shown)

/-- A row below the line: at each column a stroke, and one for the other cells of a wide
character. -/
def spread (l : Layout) (strokes : Nat → Stroke × Stroke) : Row :=
  (List.range l.reach).flatMap fun column =>
    let width := (l.line.shown[column]?.map fun c => (cell column c).2).getD 1
    let (first, other) := strokes column
    (first :: List.replicate (width - 1) other).take width

/-- The strokes of the row between the line and an arrow. The first such row underlines. -/
def fallingStrokes (l : Layout) (row column : Nat) : Stroke × Stroke :=
  let underline := if row = 0 then l.underline? column else none
  match l.falling? column row, underline with
  | some m, some _ => (dot m.label.ink '┬', dot m.label.ink '─')
  | some m, none =>
    if m.label.spansLines && row == 0 then (dot m.label.ink '▲', dot m.label.ink ' ')
    else (dot m.label.ink '│', dot m.label.ink ' ')
  | none, some label => (dot label.ink '─', dot label.ink '─')
  | none, none => (dot .plain ' ', dot .plain ' ')

/-- The turn of an arrow below its mark. -/
def turn (m : Mark) : Char :=
  if !m.label.spansLines then '╰' else if m.speaks then '┴' else '╯'

/-- Whether an arrow is drawn at a column. The arrow of a label within the line goes to the
right, the other ones come from the margin. -/
def isDrawnAt (m : Mark) (column : Nat) : Bool :=
  (decide (m.column < column) ^^ m.label.spansLines) || (m.speaks && decide (m.column < column))

/-- The strokes of the row of an arrow. -/
def arrowStrokes (l : Layout) (m : Mark) (row column : Nat) : Stroke × Stroke :=
  let ink := m.label.ink
  if column = m.column ∧ !l.isLead m.label then (dot ink (turn m), dot ink '─')
  else if isDrawnAt m column then (dot ink '─', dot ink '─')
  else
    match l.falling? column row with
    | some other => (dot other.label.ink '│', dot ink ' ')
    | none => (dot .plain ' ', dot .plain ' ')

/-- The rows of a mark: vertical strokes, then the arrow with the message. -/
def markRows (width number : Nat) (l : Layout) (row : Nat) (m : Mark) : List Row :=
  let message := if m.speaks then [text (' ' :: m.label.message.toList)] else []
  [margin width number l (.below row false) ++ l.spread (l.fallingStrokes row),
    margin width number l (.below row true) ++ l.spread (l.arrowStrokes m row) ++ message]

/-- The rows of a line that a label meets. -/
def rows (width number : Nat) (l : Layout) : List Row :=
  (margin width number l .source ++ l.sourceRow) ::
    l.marks.zipIdx.flatMap fun (m, row) => l.markRows width number row m

end Layout

/-- The rows of lines; `inGap` tells that the line before was left out. -/
def snippetRows (width : Nat) (labels : List Label) : Bool → List (Nat × Line) → List Row
  | _, [] => []
  | inGap, (number, line) :: rest =>
    let l := Layout.ofLine labels line
    if !l.isBare then l.rows width number ++ snippetRows width labels false rest
    else if inGap then snippetRows width labels true rest
    else if l.isInside then
      margin width number l .gap :: snippetRows width labels true rest
    else frame width number (.below 0 false) :: snippetRows width labels true rest

end Scriptlet.Report
