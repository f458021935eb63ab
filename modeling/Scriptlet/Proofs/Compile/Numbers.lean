import Scriptlet.Proofs.Compile.Reflow
import Scriptlet.Proofs.Decimal.Reading
import Scriptlet.Proofs.Kernel.Spelled
import Scriptlet.Proofs.Node.Legible
import Scriptlet.Value.Display

/-!
# Numbers as sources

A source that is the text of an integer or of a decimal, with a suffix or without, is one literal.
Its minus sign is read with the digits, so that the width is chosen for the number and not for its
magnitude.
-/
namespace Scriptlet

/-! ## One token, perhaps after a sign -/

namespace Grammar

/-- No suffix, or one letter. -/
def Suffixed (suffix : List Char) : Prop := suffix = [] ∨ ∃ c, isSuffix c = true ∧ suffix = [c]

variable {suffix : List Char}

theorem spelled_toDigits (n : Nat) (suffixed : Suffixed suffix) :
    Token.Spelled (.leaf (.number (Nat.toDigits 10 n ++ suffix)))
      (Nat.toDigits 10 n ++ suffix) := by
  have spelled := Token.Spelled.number Nat.toDigits_ne_nil (Value.isDigit_of_toDigits n) (.inl rfl)
    suffixed
  rwa [List.append_nil] at spelled

theorem spelled_placed {places n : Nat} {text : List Char} (h : Text.Placed places n text)
    (suffixed : Suffixed suffix) :
    Token.Spelled (.leaf (.number (text ++ suffix))) (text ++ suffix) := by
  cases h with
  | whole present digit =>
    have spelled := Token.Spelled.number present digit (.inl rfl) suffixed
    rwa [List.append_nil] at spelled
  | @pointed whole fraction present digit value length some =>
    have last : fraction ≠ [] := by
      rintro rfl
      exact some length.symm
    exact .number present (fun c hc => digit c (List.mem_append_left _ hc))
      (.inr ⟨fraction, last, fun c hc => digit c (List.mem_append_right _ hc), rfl⟩) suffixed

/-- The sign of a number. -/
def minus (negative : Bool) : List Sign := if negative then [⟨.neg, .origin⟩] else []

/-- The statement that is a number literal. -/
def numberStatement (negative : Bool) (text : List Char) : Statement :=
  .expression (.mk (.mk (minus negative) (.leaf (.number text) .origin)) .nil .origin)

theorem parse_number {text : List Char} (spelled : Token.Spelled (.leaf (.number text)) text)
    (negative : Bool) (limit : Nat) :
    ∃ script, parse limit (Text.signed negative text) = .ok script ∧
      script.statements.map Statement.bare =
        [numberStatement negative text].map Statement.bare := by
  have nothing : LaidOut [] [] := .done (by simp [splitTrivia])
  have number := LaidOut.piece .nil spelled (by simp) nothing
  cases negative with
  | false =>
    have sole : Sequence _ [numberStatement false text] := .last (.expression _)
    have parsed := number.parse sole rfl (by simp : _ ≤ limit)
    rwa [List.nil_append, List.append_nil] at parsed
  | true =>
    have sign : Token.Spelled (.operator .sub) ['-'] := .mark rfl
    have signed := LaidOut.piece .nil sign (fun _ _ => rfl) number
    have sole : Sequence _ [numberStatement true text] := .last (.expression _)
    have parsed := signed.parse sole rfl (by simp : _ ≤ limit)
    rwa [List.nil_append, List.nil_append, List.append_nil] at parsed

end Grammar

/-! ## Reading its text -/

namespace Literal

variable (n : Int)

theorem readNumber?_suffixed (body : List Char) {c : Char} (letter : c.isAlpha = true) :
    readNumber? (body ++ [c]) = (Suffix.ofChar? c).bind (readSuffixed? body) := by
  rw [readNumber?, List.getLast?_append_of_ne_nil _ (List.cons_ne_nil _ _), List.getLast?_singleton]
  simp only [letter, if_true, List.dropLast_concat]

theorem not_isAlpha_of_isDigit {c : Char} (h : c.isDigit = true) : c.isAlpha = false := by
  rw [Grammar.isDigit_iff] at h
  rw [← Bool.not_eq_true, Grammar.isAlpha_iff]
  omega

theorem contains_integer : (Text.integer n).contains '.' = false := by
  rw [List.contains_eq_mem, decide_eq_false_iff_not, Text.integer, Text.signed]
  intro point
  have digit (mem : '.' ∈ Nat.toDigits 10 n.natAbs) : False := by
    cases Value.isDigit_of_toDigits _ _ mem
  split at point
  · rcases List.mem_cons.mp point with sign | mem
    · cases sign
    · exact digit mem
  · exact digit point

theorem readNumber?_integer : readNumber? (Text.integer n) = ofInt? n := by
  obtain ⟨c, last, letterless⟩ :
      ∃ c, (Text.integer n).getLast? = some c ∧ c.isAlpha = false := by
    have present : Nat.toDigits 10 n.natAbs ≠ [] := Nat.toDigits_ne_nil
    have digit := Value.isDigit_of_toDigits n.natAbs _ (List.getLast_mem present)
    refine ⟨_, ?_, not_isAlpha_of_isDigit digit⟩
    rw [Text.integer, Text.signed]
    split
    · rw [List.getLast?_cons_of_ne_nil present, List.getLast?_eq_some_getLast present]
    · exact List.getLast?_eq_some_getLast present
  rw [readNumber?, last]
  simp only [letterless, Bool.false_eq_true, if_false]
  rw [readPlain?, contains_integer, if_neg Bool.false_ne_true,
    (Text.numeral_integer n).readInt?, Option.bind_some]

variable {n} in
theorem exists_fitInt64? (fits : -2 ^ 63 ≤ n ∧ n < 2 ^ 63) :
    ∃ i : Int64, i.toInt = n ∧ Value.fitInt64? n = some i := by
  have exact : (Int64.ofInt n).toInt = n := Int64.toInt_ofInt_of_le fits.1 fits.2
  exact ⟨_, exact, Kernel.fitInt64?_eq_some.mpr ⟨fits, exact⟩⟩

variable {n} in
theorem fitInt64?_eq_none (past : ¬ (-2 ^ 63 ≤ n ∧ n < 2 ^ 63)) : Value.fitInt64? n = none :=
  Option.eq_none_iff_forall_ne_some.mpr fun _ fits =>
    past (Kernel.fitInt64?_eq_some.mp fits).1

/-- The width is that of the number with its sign: the least number of a width is of this width,
although its magnitude is not. -/
theorem readNumber?_width :
    if -2 ^ 31 ≤ n ∧ n < 2 ^ 31 then
      ∃ i : Int32, i.toInt = n ∧ readNumber? (Text.integer n) = some (.int i)
    else if -2 ^ 63 ≤ n ∧ n < 2 ^ 63 then
      ∃ i : Int64, i.toInt = n ∧ readNumber? (Text.integer n) = some (.long i)
    else readNumber? (Text.integer n) = none := by
  have range : (Int32.minValue.toInt ≤ n ∧ n ≤ Int32.maxValue.toInt) ↔
      -2 ^ 31 ≤ n ∧ n < 2 ^ 31 := by
    rw [show Int32.minValue.toInt = -2 ^ 31 from rfl,
      show Int32.maxValue.toInt = 2 ^ 31 - 1 from rfl]
    omega
  rw [readNumber?_integer, ofInt?, fitInt32?]
  simp only [range]
  split
  · rename_i narrow
    exact ⟨Int32.ofInt n, Int32.toInt_ofInt_of_le narrow.1 narrow.2, rfl⟩
  · split
    · rename_i fits
      obtain ⟨i, value, fits⟩ := exists_fitInt64? fits
      exact ⟨i, value, by rw [fits]; rfl⟩
    · rename_i past
      rw [fitInt64?_eq_none past]
      rfl

theorem readNumber?_long :
    if -2 ^ 63 ≤ n ∧ n < 2 ^ 63 then
      ∃ i : Int64, i.toInt = n ∧ readNumber? (Text.integer n ++ ['L']) = some (.long i)
    else readNumber? (Text.integer n ++ ['L']) = none := by
  have read : readNumber? (Text.integer n ++ ['L']) = (Value.fitInt64? n).map .long := by
    rw [readNumber?_suffixed _ (by decide), show Suffix.ofChar? 'L' = some .long from rfl,
      Option.bind_some, readSuffixed?, contains_integer, if_neg Bool.false_ne_true,
      (Text.numeral_integer n).readInt?, Option.bind_some]
  rw [read]
  split
  · rename_i fits
    obtain ⟨i, value, fits⟩ := exists_fitInt64? fits
    exact ⟨i, value, by rw [fits]; rfl⟩
  · rename_i past
    rw [fitInt64?_eq_none past]
    rfl

theorem readNumber?_bigInteger :
    readNumber? (Text.integer n ++ ['I']) = some (.bigInteger n) := by
  rw [readNumber?_suffixed _ (by decide), show Suffix.ofChar? 'I' = some .bigInteger from rfl,
    Option.bind_some, readSuffixed?, contains_integer, if_neg Bool.false_ne_true,
    (Text.numeral_integer n).readLoose?, Option.map_some]

theorem readNumber?_bigDecimal (d : Decimal) :
    ∃ d', readNumber? (d.text ++ ['B']) = some (.bigDecimal d') ∧ d'.toRat = d.toRat ∧
      d'.scale = d.scale := by
  obtain ⟨d', parts, value⟩ := d.toRat_ofParts
  refine ⟨d', ?_, value, ?_⟩
  · rw [readNumber?_suffixed _ (by decide), show Suffix.ofChar? 'B' = some .bigDecimal from rfl,
      Option.bind_some, readSuffixed?, Decimal.read?_text, parts, Option.map_some]
  · rw [Decimal.ofParts?, dif_pos ⟨d.mantissa_lt, d.scale_le⟩] at parts
    rw [← Option.some.inj parts]

end Literal

/-! ## Compiling it -/

open Grammar in
/-- A minus sign before a number is part of its text. -/
theorem Compile.compileStatements_number (negative : Bool) (text : List Char) (ctx : BuildContext)
    (scope : Scope) :
    compileStatements ctx none scope .empty [numberStatement negative text] =
      match Literal.readNumber? (Text.signed negative text) with
      | some v => .ok ([⟨0⟩], (pushLiteral .empty v .origin).2)
      | none =>
        .error (.parse ⟨.invalidNumber (String.ofList (Text.signed negative text)), .origin⟩) := by
  have operand : compileOperand ctx scope .empty
      (.mk (minus negative) (.leaf (.number text) .origin)) =
        compileNumber .empty (Text.signed negative text) .origin := by
    rw [Formula.compileOperand_eq]
    cases negative <;> rfl
  rw [compileStatements, numberStatement, compileStatement, compileExpression, operand,
    compileNumber]
  cases Literal.readNumber? (Text.signed negative text) <;> rfl

section

variable (ctx : BuildContext) (inputs : List (String × Ty)) (debugSymbols : Bool) (limit : Nat)

/-- The source is compiled to a literal and nothing else. -/
def SoleLiteral (source : List Char) (v : Value) : Prop :=
  ∃ p, compile { ctx with source := source } inputs debugSymbols limit = .ok p ∧
    p.statements = [⟨0⟩] ∧ p.arena.nodes = [.literal v v.ty]

/-- The source is not compiled, since it is no number of its kind. -/
def RefusedNumber (source : List Char) : Prop :=
  ∃ span, compile { ctx with source := source } inputs debugSymbols limit =
    .error (.parse ⟨.invalidNumber (String.ofList source), span⟩)

variable {ctx inputs debugSymbols limit} {source : List Char}

/-- A source that is read as statements that cannot be parsed is refused as they are. -/
theorem compile_error_of_bare {script : Grammar.Script} {statements : List Grammar.Statement}
    {kind : ParseErrorKind} {span : Span} (parsed : Grammar.parse limit source = .ok script)
    (bare : script.statements.map Grammar.Statement.bare = statements.map Grammar.Statement.bare)
    (h : Compile.compileStatements ctx none (.ofInputs inputs) .empty statements =
      .error (.parse ⟨kind, span⟩)) :
    ∃ place, compile { ctx with source := source } inputs debugSymbols limit =
      .error (.parse ⟨kind, place⟩) := by
  have alike := Compile.alike_compileStatements ctx source (.ofInputs inputs) none
    (debugLines { ctx with source := source } debugSymbols) statements script.statements
    (rfl : Arena.empty.nodes = Arena.empty.nodes) bare.symm
  rw [h] at alike
  rcases alike.cases with ⟨_, _, failed, -, -⟩ | ⟨e, e', failed, failed', same⟩
  · cases failed
  · cases failed
    have error : compile { ctx with source := source } inputs debugSymbols limit = .error e' := by
      simp only [compile, parsed, failed']
    cases e' with
    | build => cases same
    | parse e' =>
      obtain ⟨kind', place⟩ := e'
      cases same
      exact ⟨place, error⟩

/-- What a source of one number is compiled to is what the number is read as. -/
theorem compile_number {negative : Bool} {text : List Char}
    (spelled : Grammar.Token.Spelled (.leaf (.number text)) text)
    (signed : source = Text.signed negative text) :
    (∀ v, Literal.readNumber? source = some v →
      SoleLiteral ctx inputs debugSymbols limit source v) ∧
    (Literal.readNumber? source = none →
      RefusedNumber ctx inputs debugSymbols limit source) := by
  subst signed
  obtain ⟨script, parsed, bare⟩ := Grammar.parse_number spelled negative limit
  have compiled := Compile.compileStatements_number negative text ctx (.ofInputs inputs)
  constructor
  · intro v read
    rw [read] at compiled
    exact compile_of_bare parsed bare compiled
  · intro read
    rw [read] at compiled
    exact compile_error_of_bare parsed bare compiled

variable (ctx inputs debugSymbols limit) in
theorem compile_integer (n : Int) {suffix : List Char} (suffixed : Grammar.Suffixed suffix) :
    (∀ v, Literal.readNumber? (Text.integer n ++ suffix) = some v →
      SoleLiteral ctx inputs debugSymbols limit (Text.integer n ++ suffix) v) ∧
    (Literal.readNumber? (Text.integer n ++ suffix) = none →
      RefusedNumber ctx inputs debugSymbols limit (Text.integer n ++ suffix)) := by
  have signed : Text.integer n ++ suffix =
      Text.signed (decide (n < 0)) (Nat.toDigits 10 n.natAbs ++ suffix) := by
    rw [Text.integer]
    cases decide (n < 0) <;> rfl
  exact compile_number (Grammar.spelled_toDigits n.natAbs suffixed) signed

theorem compile_decimal (d : Decimal) {suffix : List Char} (suffixed : Grammar.Suffixed suffix)
    {v : Value} (read : Literal.readNumber? (d.text ++ suffix) = some v) :
    SoleLiteral ctx inputs debugSymbols limit (d.text ++ suffix) v := by
  have placed := Text.placed_positional d.scale d.mantissa
  have signed : d.text ++ suffix =
      Text.signed d.negative (Text.positional d.scale d.mantissa ++ suffix) := by
    rw [Decimal.text]
    cases d.negative <;> rfl
  exact (compile_number (Grammar.spelled_placed placed suffixed) signed).1 v read

end

/-- The text of an integer is a literal of it: of the narrowest machine width that holds it, or with
the suffix of its kind. A machine integer that is too large is refused. The text of a decimal with
its suffix is a literal of the same value and scale. -/
theorem compile_exact_number (ctx : BuildContext) (inputs : List (String × Ty))
    (debugSymbols : Bool) (limit : Nat) :
    let Sole := SoleLiteral ctx inputs debugSymbols limit
    let Refused := RefusedNumber ctx inputs debugSymbols limit
    (∀ n : Int,
      if -2 ^ 31 ≤ n ∧ n < 2 ^ 31 then
        ∃ i : Int32, i.toInt = n ∧ Sole (Text.integer n) (.int i)
      else if -2 ^ 63 ≤ n ∧ n < 2 ^ 63 then
        ∃ i : Int64, i.toInt = n ∧ Sole (Text.integer n) (.long i)
      else Refused (Text.integer n)) ∧
    (∀ n : Int,
      if -2 ^ 63 ≤ n ∧ n < 2 ^ 63 then
        ∃ i : Int64, i.toInt = n ∧ Sole (Text.integer n ++ ['L']) (.long i)
      else Refused (Text.integer n ++ ['L'])) ∧
    (∀ n : Int, Sole (Text.integer n ++ ['I']) (.bigInteger n)) ∧
    ∀ d : Decimal, ∃ d', d'.toRat = d.toRat ∧ d'.scale = d.scale ∧
      Sole ((Value.bigDecimal d).displayChars ++ ['B']) (.bigDecimal d') := by
  dsimp only
  refine ⟨fun n => ?width, fun n => ?long, fun n => ?bigInteger, fun d => ?bigDecimal⟩
  case width =>
    obtain ⟨sole, refused⟩ := compile_integer ctx inputs debugSymbols limit n (.inl rfl)
    rw [List.append_nil] at sole refused
    have read := Literal.readNumber?_width n
    split_ifs at read ⊢
    · obtain ⟨i, value, read⟩ := read
      exact ⟨i, value, sole _ read⟩
    · obtain ⟨i, value, read⟩ := read
      exact ⟨i, value, sole _ read⟩
    · exact refused read
  case long =>
    obtain ⟨sole, refused⟩ :=
      compile_integer ctx inputs debugSymbols limit n (.inr ⟨'L', by decide, rfl⟩)
    have read := Literal.readNumber?_long n
    split_ifs at read ⊢
    · obtain ⟨i, value, read⟩ := read
      exact ⟨i, value, sole _ read⟩
    · exact refused read
  case bigInteger =>
    have sole := (compile_integer ctx inputs debugSymbols limit n (.inr ⟨'I', by decide, rfl⟩)).1
    exact sole _ (Literal.readNumber?_bigInteger n)
  case bigDecimal =>
    obtain ⟨d', read, value, scale⟩ := Literal.readNumber?_bigDecimal d
    exact ⟨d', value, scale, compile_decimal d (.inr ⟨'B', by decide, rfl⟩) read⟩

end Scriptlet
