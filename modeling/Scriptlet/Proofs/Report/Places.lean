import Scriptlet.Proofs.Engine.Places
import Scriptlet.Proofs.Source.Positions
import Scriptlet.Proofs.Text.Integers
import Scriptlet.Report.Render

/-!
# Places in reports

The spans of a diagnostic count bytes, the offsets of a page count characters. A report is at the
right place exactly if there is no difference up to the end of the span.
-/
namespace Scriptlet

namespace Source

/-- The number of characters before an offset. -/
def charIndex (offset : Nat) (text : List Char) : Nat := (before offset text).length

theorem length_eq_byteSize {text : List Char} :
    text.length = byteSize text ↔ ∀ c ∈ text, c.utf8Size = 1 := by
  induction text with
  | nil => simp
  | cons c rest ih =>
    have := c.utf8Size_pos
    have := length_le_byteSize rest
    rw [List.length_cons, byteSize_cons, List.forall_mem_cons, ← ih]
    omega

theorem charIndex_le (offset : Nat) (text : List Char) : charIndex offset text ≤ text.length := by
  have whole := congrArg List.length (splitBytes_append offset text)
  rw [List.length_append] at whole
  exact Nat.le.intro whole

/-- There are no more characters before a boundary than bytes. -/
theorem charIndex_le_offset {offset : Nat} {text : List Char}
    (h : isBoundary offset text = true) : charIndex offset text ≤ offset := by
  have le := length_le_byteSize (before offset text)
  rwa [byteSize_before h] at le

/-- If there are as many characters as bytes up to a boundary, so there are up to an earlier one. -/
theorem charIndex_eq_of_le {start stop : Nat} {text : List Char}
    (hstart : isBoundary start text = true) (hstop : isBoundary stop text = true)
    (ordered : start ≤ stop) (narrow : charIndex stop text = stop) :
    charIndex start text = start := by
  obtain ⟨middle, longer⟩ := exists_before_append hstart hstop ordered
  have chars := congrArg List.length longer
  have bytes := congrArg byteSize longer
  rw [List.length_append] at chars
  rw [byteSize_append, byteSize_before hstart, byteSize_before hstop] at bytes
  have front := charIndex_le_offset hstart
  have back := length_le_byteSize middle
  rw [charIndex] at narrow front ⊢
  omega

end Source

namespace Report

/-! ## Offsets and positions -/

namespace Page

variable {source : List Char} {offset offset' : Nat} {place : Position}

theorem size_ofText (source : List Char) : (ofText source).size = source.length := by
  rw [ofText]
  split
  · simp_all
  · rfl

/-- The first line starts where the page does. -/
theorem lines_ofText (source : List Char) :
    ∃ first rest, (ofText source).lines = first :: rest ∧ first.start = 0 := by
  rw [ofText]
  split
  · exact ⟨_, _, rfl, rfl⟩
  · rename_i some
    cases split : splitLines source with
    | nil =>
      have := flatten_splitLines source
      simp_all
    | cons line rest => exact ⟨_, _, rfl, rfl⟩

/-- The last element of the front that satisfies a test. -/
theorem exists_last_takeWhile {α : Type} {p : α → Bool} {first : α} (rest : List α)
    (h : p first = true) :
    ∃ x, (first :: rest)[((first :: rest).takeWhile p).length - 1]? = some x ∧ p x = true := by
  have present : 0 < ((first :: rest).takeWhile p).length := by
    rw [List.takeWhile_cons_of_pos h]
    exact Nat.succ_pos _
  have last := List.prefix_iff_getElem?.mp (List.takeWhile_prefix p (l := first :: rest))
    (((first :: rest).takeWhile p).length - 1) (by omega)
  exact ⟨_, last, List.mem_takeWhile_imp (List.getElem_mem _)⟩

/-- The place of an offset is on a line that starts at or before it. -/
theorem exists_position? (h : offset ≤ source.length) :
    ∃ number line, (ofText source).lines[number]? = some line ∧ line.start ≤ offset ∧
      (ofText source).position? offset = some ⟨number, offset - line.start⟩ := by
  obtain ⟨first, rest, lines, start⟩ := lines_ofText source
  obtain ⟨line, found, starts⟩ := exists_last_takeWhile (p := (·.start ≤ offset)) rest
    (show decide (first.start ≤ offset) = true by simp [start])
  rw [← lines] at found
  refine ⟨_, line, found, of_decide_eq_true starts, ?_⟩
  rw [position?, lineNumber?, if_pos (by rwa [size_ofText]), Option.bind_some, found]
  rfl

theorem position?_eq_none (h : source.length < offset) :
    (ofText source).position? offset = none := by
  rw [position?, lineNumber?, size_ofText, if_neg (Nat.not_le.mpr h), Option.bind_none]

/-- Different offsets have different places. -/
theorem position?_inj (h : (ofText source).position? offset = some place)
    (h' : (ofText source).position? offset' = some place) : offset = offset' := by
  have within {o : Nat} (h : (ofText source).position? o = some place) : o ≤ source.length := by
    by_contra past
    rw [position?_eq_none (Nat.not_le.mp past)] at h
    contradiction
  obtain ⟨number, line, found, start, some⟩ := exists_position? (within h)
  obtain ⟨number', line', found', start', some'⟩ := exists_position? (within h')
  obtain ⟨rfl, column⟩ : number = number' ∧ offset - line.start = offset' - line'.start := by
    have same := Option.some.inj ((some.symm.trans h).trans (h'.symm.trans some'))
    exact ⟨congrArg Position.line same, congrArg Position.column same⟩
  obtain rfl := Option.some.inj (found.symm.trans found')
  omega

end Page

/-! ## The header -/

/-- A place as it is printed, counted from one. -/
def Position.text (place : Position) : List Char :=
  Nat.toDigits 10 (place.line + 1) ++ ':' :: Nat.toDigits 10 (place.column + 1)

theorem Position.text_inj {place place' : Position} (h : place.text = place'.text) :
    place = place' := by
  have split (place : Position) :
      place.text.takeWhile Char.isDigit = Nat.toDigits 10 (place.line + 1) ∧
        place.text.dropWhile Char.isDigit = ':' :: Nat.toDigits 10 (place.column + 1) :=
    Grammar.takeWhile_append_stop
      (fun _ hc => Nat.isDigit_of_mem_toDigits (by decide) (by decide) hc) (by simp)
  have digits {n n' : Nat} (h : Nat.toDigits 10 (n + 1) = Nat.toDigits 10 (n' + 1)) : n = n' := by
    have value := congrArg (Nat.ofDigitChars 10 · 0) h
    simpa only [Nat.ofDigitChars_ten_toDigits, Nat.add_right_cancel_iff] using value
  obtain ⟨line, column⟩ := split place
  obtain ⟨line', column'⟩ := split place'
  rw [h] at line column
  have lines := digits (line.symm.trans line')
  have columns := digits (List.cons.inj (column.symm.trans column')).2
  cases place
  cases place'
  simp_all

theorem placeText_eq_text {p : Page} {offset : Nat} {place : Position} :
    placeText p offset = place.text ↔ p.position? offset = some place := by
  rw [placeText]
  cases found : p.position? offset with
  | some place' =>
    exact ⟨fun h => congrArg some (Position.text_inj h),
      fun h => congrArg Position.text (Option.some.inj h)⟩
  | none =>
    refine ⟨fun h => ?_, nofun⟩
    have first : place.text.head? = some '?' := congrArg List.head? h.symm
    rw [Position.text, List.head?_append_of_ne_nil _ Nat.toDigits_ne_nil] at first
    have digit := Nat.isDigit_of_mem_toDigits (by decide) (by decide) (List.mem_of_head? first)
    contradiction

/-- The span of a diagnostic as far as it lies in the source. -/
def spanIn (source : List Char) (d : Diagnostic) : Span := d.span.clamp (Source.byteSize source)

/-- The labels of the report of a diagnostic. -/
def labelsIn (source : List Char) (d : Diagnostic) : List Label :=
  labels (Page.ofText source) (Source.byteSize source) d

/-- The second row names the place. -/
def HeadedBy (found : List Row) (place : List Char) : Prop :=
  ∃ title blank after, found = title :: [text (List.replicate blank ' '), dot frameInk '╭',
    dot frameInk '─', dot frameInk '[', text (' ' :: sourceName.toList ++ ':' :: place ++ [' ']),
    dot frameInk ']'] :: after

variable {source : List Char} {d : Diagnostic} {place : List Char}

theorem runs_eq_nil {p : Page} {found : List Label} (h : runs p found = []) : found = [] := by
  rw [← flatten_runs p found, h, List.flatten_nil]

/-- A report has a header if it has a label. -/
theorem headedBy_iff : HeadedBy (rows source d) place ↔
    labelsIn source d ≠ [] ∧ place = placeText (Page.ofText source) (spanIn source d).start := by
  rw [rows, labelsIn]
  dsimp only
  cases split : runs (Page.ofText source)
    (labels (Page.ofText source) (Source.byteSize source) d) with
  | nil => simp [HeadedBy, runs_eq_nil split]
  | cons run others =>
    have some : labels (Page.ofText source) (Source.byteSize source) d ≠ [] := by
      intro none
      rw [none] at split
      contradiction
    constructor
    · rintro ⟨title, blank, after, same⟩
      have header := (List.cons.inj (List.cons.inj same).2).1
      simp only [placeRow, List.cons.injEq, text, Stroke.mk.injEq, true_and, and_true,
        List.append_cancel_right_eq, List.append_cancel_left_eq] at header
      exact ⟨some, header.2.symm⟩
    · rintro ⟨-, rfl⟩
      exact ⟨titleRow d, _, _, rfl⟩

/-- The header is that of the character whose index is the start of the span. -/
theorem position?_of_headedBy {place : Position} (h : HeadedBy (rows source d) place.text) :
    (Page.ofText source).position? (spanIn source d).start = some place :=
  placeText_eq_text.mp (headedBy_iff.mp h).2.symm

/-! ## Faithful reports -/

/-- The label of a number stands under the characters of a span. -/
def Covers (found : List Label) (number : Nat) (source : List Char) (s : Span) : Prop :=
  ∃ l ∈ found, l.number = number ∧ ∀ index, l.covers index = true ↔
    Source.charIndex s.start source ≤ index ∧ index < Source.charIndex s.stop source

/-- The report names the place of the character that starts at the start of the span, and its first
label stands under the text of the span. -/
structure Faithful (source : List Char) (d : Diagnostic) : Prop where
  header : ∃ place, HeadedBy (rows source d) place.text ∧ (Page.ofText source).position?
    (Source.charIndex (spanIn source d).start source) = some place
  label : Covers (labelsIn source d) 0 source (spanIn source d)

theorem eq_of_place? {p : Page} {number start stop : Nat} {message : String} {l : Label}
    (h : Label.place? p number start stop message = some l) :
    l.number = number ∧ l.start = start ∧ l.stop = stop := by
  rw [Label.place?] at h
  split at h
  · cases h
    exact ⟨rfl, rfl, rfl⟩
  · contradiction

/-- The first label is that of the span. -/
theorem eq_of_mem_labelsIn {l : Label} (h : l ∈ labelsIn source d) (first : l.number = 0) :
    l.start = (spanIn source d).start ∧ l.stop = (spanIn source d).stop := by
  obtain ⟨⟨r, number⟩, mem, placed⟩ := List.mem_filterMap.mp h
  obtain ⟨rfl, start, stop⟩ := eq_of_place? placed
  rw [List.mem_zipIdx_iff_getElem?, first, List.getElem?_cons_zero] at mem
  obtain rfl := Option.some.inj mem
  exact ⟨start, stop⟩

/-- A span of offsets on the page has a label. -/
theorem exists_mem_labelsIn (ordered : (spanIn source d).start ≤ (spanIn source d).stop)
    (within : (spanIn source d).stop ≤ source.length) :
    ∃ l ∈ labelsIn source d, l.number = 0 := by
  have on {offset : Nat} (h : offset ≤ source.length) :
      ∃ number, (Page.ofText source).lineNumber? offset = some number := by
    rw [Page.lineNumber?, Page.size_ofText, if_pos h]
    exact ⟨_, rfl⟩
  obtain ⟨_, start⟩ := on (ordered.trans within)
  obtain ⟨_, last⟩ :=
    on (show max ((spanIn source d).stop - 1) (spanIn source d).start ≤ source.length by omega)
  obtain ⟨l, placed⟩ : ∃ l, Label.place? (Page.ofText source) 0 (spanIn source d).start
      (spanIn source d).stop d.message = some l := by
    rw [Label.place?, start, last]
    exact ⟨_, rfl⟩
  refine ⟨l, List.mem_filterMap.mpr ⟨(⟨d.span, d.message⟩, 0), ?_, placed⟩, (eq_of_place? placed).1⟩
  rw [List.mem_zipIdx_iff_getElem?, List.getElem?_cons_zero]

/-- A report is faithful if every character up to the end of the span takes one byte, and only
then. -/
theorem faithful_iff (valid : (spanIn source d).ValidIn source) :
    Faithful source d ↔
      ∀ c ∈ Source.before (spanIn source d).stop source, c.utf8Size = 1 := by
  rw [← Source.length_eq_byteSize, Source.byteSize_before valid.stop]
  change _ ↔ Source.charIndex (spanIn source d).stop source = (spanIn source d).stop
  constructor
  · rintro ⟨⟨place, headed, located⟩, l, mem, first, covers⟩
    have same := Page.position?_inj (position?_of_headedBy headed) located
    obtain ⟨start, stop⟩ := eq_of_mem_labelsIn mem first
    rcases valid.ordered.eq_or_lt with empty | present
    · rw [← empty]
      exact same.symm
    · have last : l.covers ((spanIn source d).stop - 1) = true := by
        simp only [Label.covers, start, stop, Bool.and_eq_true, decide_eq_true_eq]
        omega
      have long := ((covers _).mp last).2
      have short := Source.charIndex_le_offset valid.stop
      omega
  · intro narrow
    have start := Source.charIndex_eq_of_le valid.start valid.stop valid.ordered narrow
    have within : (spanIn source d).stop ≤ source.length := by
      rw [← narrow]
      exact Source.charIndex_le _ _
    obtain ⟨l, mem, first⟩ := exists_mem_labelsIn valid.ordered within
    obtain ⟨number, line, -, -, located⟩ := Page.exists_position? (valid.ordered.trans within)
    have headed := headedBy_iff.mpr ⟨List.ne_nil_of_mem mem, (placeText_eq_text.mpr located).symm⟩
    refine ⟨⟨_, headed, by rwa [start]⟩, l, mem, first, fun index => ?_⟩
    obtain ⟨lstart, lstop⟩ := eq_of_mem_labelsIn mem first
    rw [start, narrow, Label.covers, lstart, lstop, Bool.and_eq_true, decide_eq_true_eq,
      decide_eq_true_eq]

end Report

/-- The reports of an error are those of its diagnostics, one after the other. The start of a span
is read as the index of a character, so that a report is at the place of its diagnostic exactly if
every character up to the end of the span takes one byte. -/
theorem EngineError.report_faithful_iff {e : EngineError} {source : String}
    (carried : e.source? = some source) :
    (∀ colored, e.report colored = String.ofList (e.diagnostics.flatMap fun d =>
      Report.draw colored (Report.rows source.toList d))) ∧
    ∀ d ∈ e.diagnostics,
      (∀ place : Report.Position, Report.HeadedBy (Report.rows source.toList d) place.text →
        (Report.Page.ofText source.toList).position? (Report.spanIn source.toList d).start =
          some place) ∧
      ((Report.spanIn source.toList d).ValidIn source.toList →
        (Report.Faithful source.toList d ↔
          ∀ c ∈ Source.before (Report.spanIn source.toList d).stop source.toList,
            c.utf8Size = 1)) := by
  refine ⟨fun colored => ?_, fun d _ =>
    ⟨fun _ => Report.position?_of_headedBy, Report.faithful_iff⟩⟩
  cases e with
  | usage message | resourceExceeded message => contradiction
  | compilation ds text =>
    obtain rfl := Option.some.inj carried
    rfl
  | runtime d text =>
    obtain rfl := Option.some.inj carried
    rw [EngineError.report, EngineError.diagnostics, List.flatMap_singleton]

/-- A division by zero at some bytes. -/
def divisionAt (start stop : Nat) : Diagnostic :=
  .plain "R001" "division by zero" ⟨start, stop⟩

/-- The characters of more bytes stand after the span. -/
theorem EngineError.report_faithful_before_accent :
    (EngineError.runtime (divisionAt 0 5) "1 / 0 + 'é'").source? = some "1 / 0 + 'é'" ∧
      (Report.spanIn "1 / 0 + 'é'".toList (divisionAt 0 5)).ValidIn "1 / 0 + 'é'".toList ∧
      Report.Faithful "1 / 0 + 'é'".toList (divisionAt 0 5) := by
  have valid : (Report.spanIn "1 / 0 + 'é'".toList (divisionAt 0 5)).ValidIn
      "1 / 0 + 'é'".toList := by
    decide +kernel
  have narrow : (Source.before (Report.spanIn "1 / 0 + 'é'".toList (divisionAt 0 5)).stop
      "1 / 0 + 'é'".toList).all (·.utf8Size == 1) = true := by
    decide +kernel
  have reported := EngineError.report_faithful_iff
    (e := .runtime (divisionAt 0 5) "1 / 0 + 'é'") rfl
  exact ⟨rfl, valid, ((reported.2 _ (List.mem_singleton_self _)).2 valid).mpr fun c mem =>
    beq_iff_eq.mp (List.all_eq_true.mp narrow c mem)⟩

namespace Engine

/-- An engine with the empty registry and no macros. -/
def bare : Engine := ⟨.empty, .rejectAll, .empty, {}, {}⟩

/-- The error that a run of a source ends with. -/
def failure? (engine : Engine) (source : String) : Option EngineError :=
  match engine.compile source [] with
  | .ok expr =>
    match (expr.run .empty).1 with
    | .error e => some e
    | .ok _ => none
  | .error e => some e

/-- A letter of two bytes before the division puts its report one column to the right. -/
theorem report_misplaced :
    bare.failure? "'é' + 1 / 0 + 2" = some (.runtime (divisionAt 7 12) "'é' + 1 / 0 + 2") ∧
      Report.HeadedBy (Report.rows "'é' + 1 / 0 + 2".toList (divisionAt 7 12)) "1:8".toList ∧
      (Report.Page.ofText "'é' + 1 / 0 + 2".toList).position?
        (Source.charIndex 7 "'é' + 1 / 0 + 2".toList) = some ⟨0, 6⟩ ∧
      ¬ Report.Faithful "'é' + 1 / 0 + 2".toList (divisionAt 7 12) := by
  have valid : (Report.spanIn "'é' + 1 / 0 + 2".toList (divisionAt 7 12)).ValidIn
      "'é' + 1 / 0 + 2".toList := by
    decide +kernel
  have before : 'é' ∈ Source.before
      (Report.spanIn "'é' + 1 / 0 + 2".toList (divisionAt 7 12)).stop
      "'é' + 1 / 0 + 2".toList := by
    decide +kernel
  refine ⟨by decide +kernel, Report.headedBy_iff.mpr ⟨by decide +kernel, by decide +kernel⟩,
    by decide +kernel, fun faithful => ?_⟩
  have narrow := (Report.faithful_iff valid).mp faithful 'é' before
  revert narrow
  decide

end Engine

end Scriptlet
