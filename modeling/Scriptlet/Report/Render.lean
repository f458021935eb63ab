import Scriptlet.Engine.Error
import Scriptlet.Report.Snippet
import Scriptlet.Source.Span

/-!
# Reports

A report of a diagnostic shows its message, its place, the lines of source that its spans touch
with a label for each, and its help. An error without diagnostics is one line of text.

The bounds of spans are read as offsets of the page. A page counts characters, so in a source
that has only characters of one byte they are the bytes that the diagnostic means.
-/
namespace Scriptlet.Report

/-- The name of the source in the place of a report. -/
def sourceName : String := "<expression>"

/-- The heading of a severity and its ink. -/
def heading : Severity → Ink × String
  | .error => (.red, "Error")
  | .warning => (.yellow, "Warning")
  | .info => (.indexed 147, "Advice")

/-- The labels of a diagnostic: its message, then its related messages. -/
def labels (p : Page) (size : Nat) (d : Diagnostic) : List Label :=
  (⟨d.span, d.message⟩ :: d.related).zipIdx.filterMap fun (r, number) =>
    let s := r.span.clamp size
    Label.place? p number s.start s.stop r.message

/-- The number of digits of a line number. -/
def digitCount (number : Nat) : Nat := (Nat.toDigits 10 number).length

/-- The line and column of an offset, counted from one; question marks off the page. -/
def placeText (p : Page) (offset : Nat) : List Char :=
  match p.position? offset with
  | some ⟨line, column⟩ => Nat.toDigits 10 (line + 1) ++ ':' :: Nat.toDigits 10 (column + 1)
  | none => "?:?".toList

/-- The code, if there is one, the heading and the message. A code has at least two characters. -/
def titleRow (d : Diagnostic) : Row :=
  let (ink, name) := heading d.severity
  let code := match d.code with
    | some code =>
      '[' :: code.toList ++ List.replicate (2 - code.length) ' ' ++ "] ".toList
    | none => []
  [⟨ink, code ++ name.toList ++ [':']⟩, text (' ' :: d.message.toList)]

/-- The lines of a text; a carriage return before a line feed belongs to it. -/
def textLines (chars : List Char) : List (List Char) :=
  (splitOn chars).map fun line =>
    match line.reverse with
    | '\n' :: '\r' :: front | '\n' :: front => front.reverse
    | _ => line
where
  /-- The lines with their line feeds. -/
  splitOn : List Char → List (List Char)
    | [] => []
    | c :: rest =>
      if c = '\n' then [c] :: splitOn rest
      else
        match splitOn rest with
        | line :: lines => (c :: line) :: lines
        | [] => [[c]]

/-- A help text: its heading before the first line, the other lines indented. -/
def helpRows (margin : Row) (name : List Char) (help : String) : List Row :=
  match textLines help.toList with
  | [] => []
  | first :: others =>
    (margin ++ [⟨helpInk, name⟩, text (": ".toList ++ first)]) ::
      others.map fun line => margin ++ [text (List.replicate (name.length + 2) ' ' ++ line)]

/-- The help texts, each after an empty row; several ones are numbered. -/
def allHelpRows (margin : Row) (help : List String) : List Row :=
  help.zipIdx.flatMap fun (h, i) =>
    let name := if help.length = 1 then "Help".toList else "Help ".toList ++ Nat.toDigits 10 (i + 1)
    margin :: helpRows margin name h

/-- The number of the line on which a label ends. -/
def lastLine (p : Page) (l : Label) : Nat := (p.lineNumber? l.last).getD 0

/-- Runs of labels, none of which ends on an earlier line than the one before it. -/
def runs (p : Page) : List Label → List (List Label)
  | [] => []
  | l :: rest =>
    match runs p rest with
    | (next :: run) :: others =>
      if lastLine p l ≤ lastLine p next then (l :: next :: run) :: others
      else [l] :: (next :: run) :: others
    | others => [l] :: others

/-- No label is lost in the runs. -/
theorem flatten_runs (p : Page) (found : List Label) : (runs p found).flatten = found := by
  induction found with
  | nil => rfl
  | cons l rest ih =>
    unfold runs
    split
    · rename_i next run others h
      rw [h] at ih
      split <;> simpa using ih
    · simpa using ih

/-- The lines that a run of labels touches, by number from the first up to the second. -/
def runLines (p : Page) (run : List Label) : Nat × Nat :=
  match run with
  | [] => (0, 0)
  | l :: rest =>
    p.touched (rest.foldl (fun n l => min n l.start) l.start)
      (rest.foldl (fun n l => max n l.stop) l.stop)

/-- A row of the frame without text, `blank` columns to the right. -/
def frameRow (blank : Nat) : Row := [text (List.replicate blank ' '), dot frameInk '│']

/-- The row of the frame with the place of the report, after the given corner. -/
def placeRow (p : Page) (blank offset : Nat) (corner : Char) : Row :=
  [text (List.replicate blank ' '), dot frameInk corner, dot frameInk '─', dot frameInk '[',
    text (' ' :: sourceName.toList ++ ':' :: placeText p offset ++ [' ']), dot frameInk ']']

/-- The rows of the lines that a run of labels touches. -/
def runRows (p : Page) (width : Nat) (run : List Label) : List Row :=
  let (first, stop) := runLines p run
  snippetRows width run false
    (((p.lines.take stop).drop first).zipIdx.map fun (line, i) => (first + i, line))

/-- The rows of several runs, each below the place of the report, up to the help texts. -/
def allRunRows (p : Page) (width offset : Nat) (help : List String) :
    Char → List (List Label) → List Row
  | _, [] => []
  | corner, run :: others =>
    let blank := width + 2
    let after :=
      if others.isEmpty then
        let start := Layout.ofLine run (p.lines.headD ⟨0, []⟩)
        allHelpRows (margin width 0 { start with lead := none, marks := [] } (.below 0 false)) help
      else frameRow blank :: allRunRows p width offset help '├' others
    placeRow p blank offset corner :: frameRow blank :: (runRows p width run ++ after)

/-- The report of a diagnostic. Without a label on the page it is only a title. -/
def rows (source : List Char) (d : Diagnostic) : List Row :=
  let p := Page.ofText source
  let size := Source.byteSize source
  match runs p (labels p size d) with
  | [] => [titleRow d]
  | found =>
    let width := digitCount (found.foldl (fun n run => max n (runLines p run).2) 0)
    titleRow d :: (allRunRows p width (d.span.clamp size).start d.help '╭' found ++
      [[⟨frameInk, List.replicate (width + 2) '─' ++ ['╯']⟩]])

end Scriptlet.Report

namespace Scriptlet.EngineError

/-- The report of an error, with or without colours. -/
def report (e : EngineError) (colored : Bool) : String :=
  match e with
  | .usage _ | .resourceExceeded _ => e.display ++ "\n"
  | .compilation ds source =>
    String.ofList (ds.flatMap fun d => Report.draw colored (Report.rows source.toList d))
  | .runtime d source => String.ofList (Report.draw colored (Report.rows source.toList d))

end Scriptlet.EngineError
