import Scriptlet.Rounding

/-!
# Inks

A report is drawn in strokes: runs of characters in one ink. The inks show on a terminal; without
colours a stroke is just its characters.
-/
namespace Scriptlet.Report

inductive Ink where
  /-- The terminal's own colour. -/
  | plain
  | red
  | yellow
  /-- A colour of the terminal's palette of 256. -/
  | indexed (n : Nat)
  deriving DecidableEq, Repr

/-- The parameters that select an ink on a terminal. -/
def Ink.selection? : Ink → Option String
  | .plain => none
  | .red => some "31"
  | .yellow => some "33"
  | .indexed n => some ("38;5;" ++ String.ofList (Nat.toDigits 10 n))

/-- The frame, line numbers included. -/
def frameInk : Ink := .indexed 246

/-- The frame beside anything but source text. -/
def faintInk : Ink := .indexed 240

/-- Source text that no label covers. -/
def sourceInk : Ink := .indexed 249

/-- Headings of help. -/
def helpInk : Ink := .indexed 115

/-- Characters in one ink. -/
structure Stroke where
  ink : Ink
  chars : List Char
  deriving DecidableEq, Repr

/-- A stroke of one character. -/
def dot (ink : Ink) (c : Char) : Stroke := ⟨ink, [c]⟩

/-- A stroke in the terminal's own colour. -/
def text (chars : List Char) : Stroke := ⟨.plain, chars⟩

/-- The characters of a stroke for a terminal with colours. -/
def Stroke.colored (s : Stroke) : List Char :=
  match s.ink.selection? with
  | some selection => "\x1b[".toList ++ selection.toList ++ 'm' :: s.chars ++ "\x1b[0m".toList
  | none => s.chars

/-- A row of a drawing. -/
abbrev Row := List Stroke

/-- The characters of rows, each with a line feed. -/
def draw (colored : Bool) (rows : List Row) : List Char :=
  rows.flatMap fun row =>
    row.flatMap (fun s => if colored then s.colored else s.chars) ++ ['\n']

/-! ## A sequence of distinct label inks -/

/-- A 16-bit counter after a number of strides. -/
def counter (start stride count : Nat) : Nat := (start + count * stride) % 2 ^ 16

/-- The ink of a label by its number. Three counters with strides of no common period spread over
the upper halves of the palette's axes; their first values are skipped. -/
def labelInk (number : Nat) : Ink :=
  let count := number + 2
  let upper (start stride : Nat) := counter start stride count + 65535
  let spread := 180 * upper 30000 (40503 * 1130) + 30 * upper 15000 (40503 * 1134) +
    5 * upper 35000 (40503 * 1138)
  .indexed (16 + spread / (2 * 65535))

end Scriptlet.Report
