import Mathlib.Data.List.Forall2
import Mathlib.Data.Nat.Digits.Defs
import Scriptlet.Compile.Expression
import Scriptlet.Proofs.Kernel.Tags

/-!
# What escapes stand for

A body is cut from left to right into characters, escapes of one character and code points: up to
four characters after a backslash and `u`. It can be read exactly if each of its code points is
written in hexadecimal, and is then read piece by piece.
-/
namespace Scriptlet

namespace Text

/-- The digits up to fifteen, in order. -/
def hexDigits : List Char := "0123456789abcdef".toList

/-- Hexadecimal digits, in either case. -/
def Hexadecimal (digits : List Char) : Prop := ∀ c ∈ digits, c.toLower ∈ hexDigits

/-- The number that hexadecimal digits denote, the last one the lowest. -/
def hexNumber (digits : List Char) : Nat :=
  Nat.ofDigits 16 (digits.reverse.map fun c => hexDigits.idxOf c.toLower)

theorem hexValue?_eq (c : Char) :
    hexValue? c =
      if c.toLower ∈ hexDigits then some (hexDigits.idxOf c.toLower) else none := by
  by_cases small : c.toNat < 128
  · have ascii : ∀ n < 128, hexValue? (Char.ofNat n) =
        if (Char.ofNat n).toLower ∈ hexDigits then
          some (hexDigits.idxOf (Char.ofNat n).toLower)
        else none := by decide +kernel
    simpa only [Char.ofNat_toNat] using ascii c.toNat small
  · have large : 128 ≤ c.val.toNat := Nat.le_of_not_lt small
    have caseless : c.toLower = c := by
      refine dif_neg ?_
      simp only [ge_iff_le, UInt32.le_iff_toNat_le]
      rintro ⟨-, upper⟩
      exact absurd (large.trans upper) (by decide)
    have strange : c ∉ hexDigits := by
      have ascii : hexDigits.all (·.val.toNat < 128) = true := by decide
      exact fun digit => absurd (of_decide_eq_true (List.all_eq_true.mp ascii c digit)) (by omega)
    have above (bound : Char) (ascii : bound.val.toNat < 128) : ¬ c ≤ bound := by
      rw [Char.le_def, UInt32.le_iff_toNat_le]
      omega
    have decimal : c.isDigit = false := by
      have nine : ¬ c.val ≤ 57 := above '9' (by decide)
      simp [Char.isDigit, nine]
    rw [caseless, if_neg strange, hexValue?, decimal]
    simp [above 'f' (by decide), above 'F' (by decide)]

theorem readHexFrom?_eq_some {acc n : Nat} {digits : List Char} :
    readHexFrom? acc digits = some n ↔
      Hexadecimal digits ∧ n = acc * 16 ^ digits.length + hexNumber digits := by
  induction digits generalizing acc with
  | nil => simp [readHexFrom?, Hexadecimal, hexNumber, eq_comm]
  | cons c rest ih =>
    have number : hexNumber (c :: rest) =
        hexDigits.idxOf c.toLower * 16 ^ rest.length + hexNumber rest := by
      simp only [hexNumber, List.reverse_cons, List.map_append, List.map_cons, List.map_nil,
        Nat.ofDigits_append, List.length_map, List.length_reverse, Nat.ofDigits_singleton]
      ring
    by_cases digit : c.toLower ∈ hexDigits
    · rw [readHexFrom?, hexValue?_eq, if_pos digit, Option.bind_some, ih, number,
        List.length_cons, pow_succ']
      have hexadecimal : Hexadecimal (c :: rest) ↔ Hexadecimal rest := by
        simp [Hexadecimal, digit]
      rw [hexadecimal, Nat.add_mul, Nat.mul_assoc, Nat.add_assoc]
    · rw [readHexFrom?, hexValue?_eq, if_neg digit]
      simp [Hexadecimal, digit]

theorem readHex?_unsigned {c : Char} (unsigned : c ≠ '+') (rest : List Char) :
    readHex? (c :: rest) = readHexFrom? 0 (c :: rest) := by
  unfold readHex?
  split <;> simp_all

theorem readHex?_signed (c : Char) (rest : List Char) :
    readHex? ('+' :: c :: rest) = readHexFrom? 0 (c :: rest) := by
  rw [readHex?]
  simp

/-- A plus sign may stand before the digits, of which there is at least one. -/
theorem readHex?_eq_some {text : List Char} {n : Nat} :
    readHex? text = some n ↔
      ∃ digits, digits ≠ [] ∧ (text = digits ∨ text = '+' :: digits) ∧ Hexadecimal digits ∧
        hexNumber digits = n := by
  have unsigned {c : Char} {rest : List Char} (hexadecimal : Hexadecimal (c :: rest)) :
      c ≠ '+' := by
    rintro rfl
    exact absurd (hexadecimal '+' (by simp)) (by decide)
  constructor
  · intro read
    cases text with
    | nil => simp [readHex?] at read
    | cons c rest =>
      by_cases sign : c = '+'
      · subst sign
        cases rest with
        | nil => simp [readHex?] at read
        | cons d rest =>
          rw [readHex?_signed, readHexFrom?_eq_some] at read
          exact ⟨d :: rest, by simp, .inr rfl, read.1, by simp [read.2]⟩
      · rw [readHex?_unsigned sign, readHexFrom?_eq_some] at read
        exact ⟨c :: rest, by simp, .inl rfl, read.1, by simp [read.2]⟩
  · rintro ⟨digits, some, written, hexadecimal, rfl⟩
    obtain ⟨c, rest, rfl⟩ := List.exists_cons_of_ne_nil some
    rcases written with rfl | rfl
    · rw [readHex?_unsigned (unsigned hexadecimal), readHexFrom?_eq_some]
      exact ⟨hexadecimal, by simp⟩
    · rw [readHex?_signed, readHexFrom?_eq_some]
      exact ⟨hexadecimal, by simp⟩

end Text

namespace Literal

open Text

/-- The text is the code point of the character: four hexadecimal digits. -/
def Exact (window : List Char) (c : Char) : Prop :=
  window.length = 4 ∧ Hexadecimal window ∧ hexNumber window = c.toNat

/-- The text is short of four digits, but what there is is the code point of the character: digits,
fewer than four of them or after a plus sign. -/
def Slack (window : List Char) (c : Char) : Prop :=
  ∃ digits, digits ≠ [] ∧ (window = digits ∧ digits.length < 4 ∨ window = '+' :: digits) ∧
    Hexadecimal digits ∧ hexNumber digits = c.toNat

/-- What a body is cut into. -/
inductive Piece where
  /-- A character as it stands. -/
  | plain (c : Char)
  /-- A backslash and a character other than `u`. -/
  | escape (c : Char)
  /-- A backslash, `u` and the characters after it that are to be a code point. -/
  | codePoint (window : List Char)
  deriving DecidableEq, Repr

namespace Piece

/-- The text of a piece. -/
def text : Piece → List Char
  | .plain c => [c]
  | .escape c => ['\\', c]
  | .codePoint window => '\\' :: 'u' :: window

/-- The character that a piece stands for. -/
inductive Shows : Piece → Char → Prop
  | plain (c : Char) : Shows (.plain c) c
  | newline : Shows (.escape 'n') '\n'
  | tab : Shows (.escape 't') '\t'
  | carriageReturn : Shows (.escape 'r') '\r'
  | nul : Shows (.escape '0') '\x00'
  | itself {c : Char} (other : c ∉ ['n', 't', 'r', '0']) : Shows (.escape c) c
  | exact {window : List Char} {c : Char} (code : Exact window c) : Shows (.codePoint window) c
  | slack {window : List Char} {c : Char} (code : Slack window c) : Shows (.codePoint window) c

end Piece

/-- A body cut into pieces from left to right. Four characters after a backslash and `u` are taken
for the code point, fewer only at the end; a backslash at the end stands as it is. -/
def pieces : List Char → List Piece
  | [] => []
  | '\\' :: 'u' :: rest => .codePoint (rest.take 4) :: pieces (rest.drop 4)
  | '\\' :: c :: rest => .escape c :: pieces rest
  | c :: rest => .plain c :: pieces rest
termination_by body => body.length
decreasing_by all_goals (simp; try omega)

/-- Nothing of a body is lost in its pieces. -/
theorem flatMap_pieces (body : List Char) : (pieces body).flatMap Piece.text = body := by
  fun_induction pieces body with
  | case1 => rfl
  | case2 rest ih => simp [Piece.text, ih]
  | case3 c rest _ ih => simp [Piece.text, ih]
  | case4 c rest _ _ ih => simp [Piece.text, ih]

theorem codePoint?_eq_some {window : List Char} {c : Char} :
    codePoint? window = some c ↔ ∃ digits, digits ≠ [] ∧
      (window = digits ∨ window = '+' :: digits) ∧ Hexadecimal digits ∧
        hexNumber digits = c.toNat := by
  rw [← readHex?_eq_some, codePoint?, Option.bind_eq_some_iff]
  constructor
  · rintro ⟨n, read, valid⟩
    by_cases scalar : n.isValidChar
    · rw [dif_pos scalar] at valid
      rw [read, ← Option.some.inj valid]
      rfl
    · rw [dif_neg scalar] at valid
      contradiction
  · intro read
    have valid : c.toNat.isValidChar := c.valid
    refine ⟨c.toNat, read, ?_⟩
    rw [dif_pos valid]
    rfl

namespace Piece

/-- The character of a piece, as a body is read. -/
def read? : Piece → Option Char
  | .plain c => some c
  | .escape c => some (escaped c)
  | .codePoint window => codePoint? window

theorem shows_escape_iff {c d : Char} : (escape c).Shows d ↔ escaped c = d := by
  constructor
  · rintro (_ | _ | _ | _ | _ | other)
    case itself =>
      simp only [List.mem_cons, List.not_mem_nil, or_false, not_or] at other
      obtain ⟨n, t, r, nul⟩ := other
      rw [escaped, if_neg n, if_neg t, if_neg r, if_neg nul]
    all_goals rfl
  · rintro rfl
    by_cases other : c ∉ ['n', 't', 'r', '0']
    · have same : escaped c = c := by
        simp only [List.mem_cons, List.not_mem_nil, or_false, not_or] at other
        simp [escaped, other]
      rw [same]
      exact .itself other
    · simp only [List.mem_cons, List.not_mem_nil, or_false, not_not] at other
      rcases other with rfl | rfl | rfl | rfl
      · exact .newline
      · exact .tab
      · exact .carriageReturn
      · exact .nul

theorem shows_codePoint_iff {window : List Char} {c : Char} (short : window.length ≤ 4) :
    (codePoint window).Shows c ↔ codePoint? window = some c := by
  rw [codePoint?_eq_some]
  constructor
  · rintro (_ | _ | _ | _ | _ | _ | ⟨four, hexadecimal, number⟩ |
      ⟨digits, some, written, hexadecimal, number⟩)
    · refine ⟨window, ?_, .inl rfl, hexadecimal, number⟩
      rintro rfl
      contradiction
    · exact ⟨digits, some, written.imp_left And.left, hexadecimal, number⟩
  · rintro ⟨digits, some, rfl | rfl, hexadecimal, number⟩
    · rcases short.lt_or_eq with fewer | four
      · exact .slack ⟨window, some, .inl ⟨rfl, fewer⟩, hexadecimal, number⟩
      · exact .exact ⟨four, hexadecimal, number⟩
    · exact .slack ⟨digits, some, .inr rfl, hexadecimal, number⟩

end Piece

/-- The characters taken for a code point are four at most. -/
theorem length_le_of_mem_pieces {body window : List Char}
    (mem : .codePoint window ∈ pieces body) : window.length ≤ 4 := by
  fun_induction pieces body with
  | case1 => simp at mem
  | case2 rest ih =>
    rcases List.mem_cons.mp mem with first | later
    · cases first
      simp
    · exact ih later
  | case3 c rest _ ih | case4 c rest _ _ ih => exact ih (by simpa using mem)

theorem shows_iff {body : List Char} {p : Piece} (mem : p ∈ pieces body) {c : Char} :
    p.Shows c ↔ p.read? = some c := by
  cases p with
  | plain d =>
    constructor
    · rintro ⟨⟩
      rfl
    · intro read
      cases read
      exact .plain _
  | escape d => rw [Piece.shows_escape_iff, Piece.read?, Option.some.injEq]
  | codePoint window => exact Piece.shows_codePoint_iff (length_le_of_mem_pieces mem)

/-- Reads pieces in order; one without a character is the error. -/
def readPieces : List Piece → Except (List Char) (List Char)
  | [] => .ok []
  | p :: rest =>
    match p.read? with
    | some c => (readPieces rest).map (c :: ·)
    | none => .error p.text

theorem unescape_eq (body : List Char) : unescape body = readPieces (pieces body) := by
  fun_induction unescape body with
  | case1 => simp [pieces, readPieces]
  | case2 rest c read ih => simp [pieces, readPieces, Piece.read?, read, ih]
  | case3 rest read => simp [pieces, readPieces, Piece.read?, read, Piece.text]
  | case4 c rest _ ih => simp [pieces, readPieces, Piece.read?, *]
  | case5 c rest _ _ ih => simp [pieces, readPieces, Piece.read?, *]

section

variable {found : List Piece} (shown : ∀ p ∈ found, ∀ c, p.Shows c ↔ p.read? = some c)

include shown

theorem readPieces_eq_ok {text : List Char} :
    readPieces found = .ok text ↔ List.Forall₂ Piece.Shows found text := by
  induction found generalizing text with
  | nil => simp [readPieces, List.forall₂_nil_left_iff, eq_comm]
  | cons p rest ih =>
    obtain ⟨first, later⟩ := List.forall_mem_cons.mp shown
    rw [List.forall₂_cons_left_iff, readPieces]
    cases read : p.read? with
    | none => simp [first, read]
    | some c =>
      constructor
      · intro whole
        obtain ⟨text, ok, rfl⟩ := Kernel.map_eq_ok whole
        exact ⟨c, text, (first c).mpr read, (ih later).mp ok, rfl⟩
      · rintro ⟨d, text, shows, ok, rfl⟩
        obtain rfl : c = d := Option.some.inj (read.symm.trans ((first d).mp shows))
        simp only [(ih later).mpr ok, Except.map]

theorem readPieces_eq_error {bad : List Char} :
    readPieces found = .error bad ↔ ∃ before p after, found = before ++ p :: after ∧
      (∀ q ∈ before, ∃ c, q.Shows c) ∧ (¬ ∃ c, p.Shows c) ∧ bad = p.text := by
  induction found with
  | nil => simp [readPieces]
  | cons p rest ih =>
    obtain ⟨first, later⟩ := List.forall_mem_cons.mp shown
    rw [readPieces]
    cases read : p.read? with
    | none =>
      have silent : ¬ ∃ c, p.Shows c := by simp [first, read]
      constructor
      · intro stopped
        cases stopped
        exact ⟨[], p, rest, rfl, by simp, silent, rfl⟩
      · rintro ⟨before, q, after, split, heard, -, rfl⟩
        cases before with
        | nil => cases split; rfl
        | cons _ before => cases split; exact absurd (heard p (by simp)) silent
    | some c =>
      have shows : p.Shows c := (first c).mpr read
      constructor
      · intro stopped
        have rest_stopped : readPieces rest = .error bad := by
          cases outcome : readPieces rest with
          | ok text => simp [outcome, Except.map] at stopped
          | error e => simpa [outcome, Except.map] using stopped
        obtain ⟨before, q, after, rfl, heard, silent, rfl⟩ := (ih later).mp rest_stopped
        exact ⟨p :: before, q, after, rfl, List.forall_mem_cons.mpr ⟨⟨c, shows⟩, heard⟩, silent,
          rfl⟩
      · rintro ⟨before, q, after, split, heard, silent, rfl⟩
        cases before with
        | nil => cases split; exact absurd ⟨c, shows⟩ silent
        | cons _ before =>
          cases split
          have rest_stopped := (ih later).mpr
            ⟨before, q, after, rfl, (List.forall_mem_cons.mp heard).2, silent, rfl⟩
          simp only [rest_stopped, Except.map]

end

/-- Only a code point may stand for no character. -/
theorem exists_shows (p : Piece) : (∃ c, p.Shows c) ∨ ∃ window, p = .codePoint window := by
  cases p with
  | plain c => exact .inl ⟨c, .plain c⟩
  | escape c => exact .inl ⟨escaped c, Piece.shows_escape_iff.mpr rfl⟩
  | codePoint window => exact .inr ⟨window, rfl⟩

theorem shows_codePoint_iff {window : List Char} {c : Char} :
    (Piece.codePoint window).Shows c ↔ Exact window c ∨ Slack window c := by
  constructor
  · rintro (_ | _ | _ | _ | _ | _ | code | code)
    · exact .inl code
    · exact .inr code
  · rintro (code | code)
    · exact .exact code
    · exact .slack code

theorem unescape_eq_ok {body text : List Char} :
    unescape body = .ok text ↔ List.Forall₂ Piece.Shows (pieces body) text := by
  rw [unescape_eq, readPieces_eq_ok fun _ mem _ => shows_iff mem]

theorem unescape_eq_error {body bad : List Char} :
    unescape body = .error bad ↔ ∃ before window after,
      pieces body = before ++ .codePoint window :: after ∧ (∀ p ∈ before, ∃ c, p.Shows c) ∧
        (¬ ∃ c, Exact window c ∨ Slack window c) ∧ bad = '\\' :: 'u' :: window := by
  rw [unescape_eq, readPieces_eq_error fun _ mem _ => shows_iff mem]
  constructor
  · rintro ⟨before, p, after, split, heard, silent, rfl⟩
    obtain shows | ⟨window, rfl⟩ := exists_shows p
    · contradiction
    · simp only [shows_codePoint_iff] at silent
      exact ⟨before, window, after, split, heard, silent, rfl⟩
  · rintro ⟨before, window, after, split, heard, silent, rfl⟩
    simp only [← shows_codePoint_iff] at silent
    exact ⟨before, _, after, split, heard, silent, rfl⟩

/-- Pieces can be read if each code point among them can. -/
theorem exists_forall₂_shows {found : List Piece} :
    (∃ text, List.Forall₂ Piece.Shows found text) ↔
      ∀ window, .codePoint window ∈ found → ∃ c, Exact window c ∨ Slack window c := by
  induction found with
  | nil => exact ⟨fun _ _ mem => absurd mem (by simp), fun _ => ⟨[], .nil⟩⟩
  | cons p rest ih =>
    constructor
    · rintro ⟨text, reads⟩ window mem
      obtain ⟨c, later, shows, rest_reads, rfl⟩ := List.forall₂_cons_left_iff.mp reads
      rcases List.mem_cons.mp mem with rfl | mem
      · exact ⟨c, shows_codePoint_iff.mp shows⟩
      · exact ih.mp ⟨later, rest_reads⟩ window mem
    · intro codes
      obtain ⟨text, reads⟩ := ih.mpr fun window mem => codes window (by simp [mem])
      have shows : ∃ c, p.Shows c := by
        obtain shows | ⟨window, rfl⟩ := exists_shows p
        · exact shows
        · obtain ⟨c, code⟩ := codes window (by simp)
          exact ⟨c, shows_codePoint_iff.mpr code⟩
      obtain ⟨c, shows⟩ := shows
      exact ⟨c :: text, .cons shows reads⟩

/-- A body is read, piece by piece, exactly if each of its code points is exact or slack; the
first one that is neither is the error. -/
theorem unescape_accepts (body : List Char) :
    (pieces body).flatMap Piece.text = body ∧
      (∀ text, unescape body = .ok text ↔ List.Forall₂ Piece.Shows (pieces body) text) ∧
      ((∃ text, unescape body = .ok text) ↔
        ∀ window, .codePoint window ∈ pieces body → ∃ c, Exact window c ∨ Slack window c) ∧
      (∀ bad, unescape body = .error bad ↔ ∃ before window after,
        pieces body = before ++ .codePoint window :: after ∧ (∀ p ∈ before, ∃ c, p.Shows c) ∧
          (¬ ∃ c, Exact window c ∨ Slack window c) ∧ bad = '\\' :: 'u' :: window) ∧
      ∀ bad, unescape body = .error bad → ∀ (a : Arena) (span : Span),
        Compile.compileString a body span =
          .error (.parse ⟨.invalidEscape (String.ofList bad), span⟩) := by
  refine ⟨flatMap_pieces body, fun _ => unescape_eq_ok, ?_, fun _ => unescape_eq_error, ?_⟩
  · simp only [unescape_eq_ok, exists_forall₂_shows]
  · intro bad refused a span
    rw [Compile.compileString, refused]

/-- A sign before three digits and two digits at the end are read as code points, although neither
is one of four digits. -/
theorem unescape_slack :
    (∃ text, unescape "\\u+041".toList = .ok text) ∧
      (¬ ∀ window, .codePoint window ∈ pieces "\\u+041".toList → ∃ c, Exact window c) ∧
      (∃ text, unescape "\\u41".toList = .ok text) ∧
      ¬ ∀ window, .codePoint window ∈ pieces "\\u41".toList → ∃ c, Exact window c := by
  have signed : unescape "\\u+041".toList = .ok ['A'] ∧
      pieces "\\u+041".toList = [.codePoint ['+', '0', '4', '1']] := by decide +kernel
  have short : unescape "\\u41".toList = .ok ['A'] ∧
      pieces "\\u41".toList = [.codePoint ['4', '1']] := by decide +kernel
  refine ⟨⟨_, signed.1⟩, fun exact => ?_, ⟨_, short.1⟩, fun exact => ?_⟩
  · obtain ⟨c, -, hexadecimal, -⟩ := exact _ (signed.2 ▸ List.mem_singleton_self _)
    exact absurd (hexadecimal '+' (by simp)) (by decide)
  · obtain ⟨c, four, -⟩ := exact _ (short.2 ▸ List.mem_singleton_self _)
    contradiction

end Literal

end Scriptlet
