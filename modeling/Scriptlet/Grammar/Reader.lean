import Scriptlet.Grammar.Tree

/-!
# Reading syntax trees

A descent over the tokens that looks one token ahead. Every reader answers with a tree and the
tokens after it, of which there are fewer than before.

Two ranges include what follows: that of `!`, up to the next token, and that of an expression
without operators.
-/
namespace Scriptlet.Grammar

/-- A tree and the tokens after it. -/
abbrev Read (α : Type) (ts : List Lexeme) :=
  Option { r : α × List Lexeme // r.2.length < ts.length }

/-- Where the next token starts; `size` after the last one. -/
def nextStart (size : Nat) : List Lexeme → Nat
  | [] => size
  | t :: _ => t.span.start

/-- The signs at the start of an operand. -/
def readSigns (size : Nat) : List Lexeme → List Sign × List Lexeme
  | [] => ([], [])
  | t :: rest =>
    match t.token with
    | .bang =>
      let (signs, after) := readSigns size rest
      (⟨.not, t.span.start, nextStart size rest⟩ :: signs, after)
    | .operator .sub =>
      let (signs, after) := readSigns size rest
      (⟨.neg, t.span⟩ :: signs, after)
    | _ => ([], t :: rest)

theorem length_readSigns_le (size : Nat) (ts : List Lexeme) :
    (readSigns size ts).2.length ≤ ts.length := by
  induction ts with
  | nil => simp [readSigns]
  | cons t rest ih =>
    unfold readSigns
    split <;> simp <;> omega

/-- The closing parenthesis of a group that starts at `start`. -/
def readClose (start : Nat) (inner : Expression) : List Lexeme → Option (Primary × List Lexeme)
  | t :: rest =>
    if t.token = .rparen then some (.group inner ⟨start, t.span.stop⟩, rest) else none
  | [] => none

theorem length_readClose {start : Nat} {inner : Expression} {ts rest : List Lexeme} {p : Primary}
    (h : readClose start inner ts = some (p, rest)) : rest.length < ts.length := by
  unfold readClose at h
  split at h
  · split at h
    · simp only [Option.some.injEq, Prod.mk.injEq] at h
      simp [h.2]
    · simp at h
  · simp at h

mutual

/-- A leaf, or an expression in parentheses. -/
def readPrimary (size : Nat) (ts : List Lexeme) : Read Primary ts :=
  match ts with
  | [] => none
  | t :: rest =>
    match t.token with
    | .leaf l => some ⟨(.leaf l t.span, rest), by simp⟩
    | .lparen =>
      match readExpression size rest with
      | none => none
      | some ⟨(inner, after), h⟩ =>
        match hc : readClose t.span.start inner after with
        | none => none
        | some (group, last) => some ⟨(group, last), by
            have := length_readClose hc
            simp only at h
            simp only [List.length_cons]
            omega⟩
    | _ => none
termination_by 4 * ts.length

/-- Signs and a primary. -/
def readOperand (size : Nat) (ts : List Lexeme) : Read Operand ts :=
  match readPrimary size (readSigns size ts).2 with
  | none => none
  | some ⟨(primary, rest), h⟩ =>
    some ⟨(.mk (readSigns size ts).1 primary, rest),
      Nat.lt_of_lt_of_le h (length_readSigns_le size ts)⟩
termination_by 4 * ts.length + 1
decreasing_by
  have := length_readSigns_le size ts
  omega

/-- Operators with their operands, as long as there is an operator. -/
def readLinks (size : Nat) (ts : List Lexeme) :
    Option { r : Links × List Lexeme // r.2.length ≤ ts.length } :=
  match ts with
  | [] => some ⟨(.nil, []), by simp⟩
  | t :: rest =>
    match t.token with
    | .operator op =>
      match readOperand size rest with
      | none => none
      | some ⟨(operand, after), h⟩ =>
        match readLinks size after with
        | none => none
        | some ⟨(links, last), hl⟩ =>
          some ⟨(.cons op t.span operand links, last), by
            simp only at h hl
            simp only [List.length_cons]
            omega⟩
    | _ => some ⟨(.nil, t :: rest), by simp⟩
termination_by 4 * ts.length + 2
decreasing_by
  · simp only [List.length_cons]
    omega
  · simp only at h
    simp only [List.length_cons]
    omega

/-- A chain of operands. -/
def readExpression (size : Nat) (ts : List Lexeme) : Read Expression ts :=
  match readOperand size ts with
  | none => none
  | some ⟨(first, rest), h⟩ =>
    match readLinks size rest with
    | none => none
    | some ⟨(links, after), hl⟩ =>
      let span := ⟨first.span.start, links.stop (nextStart size rest)⟩
      some ⟨(.mk first links span, after), by
        simp only at h hl ⊢
        omega⟩
termination_by 4 * ts.length + 3
decreasing_by
  · omega
  · simp only at h
    omega

end

/-- An assignment, if a name and `=` come first, or else an expression. -/
def readStatement (size : Nat) (ts : List Lexeme) : Read Statement ts :=
  match ts with
  | ⟨.leaf (.ident name), span⟩ :: ⟨.assign, _⟩ :: rest =>
    match readExpression size rest with
    | none => none
    | some ⟨(value, after), h⟩ =>
      some ⟨(.assignment name span value, after), by
        simp only at h
        simp only [List.length_cons]
        omega⟩
  | ts =>
    match readExpression size ts with
    | none => none
    | some ⟨(e, after), h⟩ => some ⟨(.expression e, after), h⟩

/-- The tokens after any semicolons at the start. -/
def skipSemicolons (ts : List Lexeme) : List Lexeme := ts.dropWhile (·.token == .semicolon)

theorem length_skipSemicolons_le (ts : List Lexeme) :
    (skipSemicolons ts).length ≤ ts.length :=
  (List.dropWhile_sublist _).length_le

/-- Statements with semicolons between them, up to the last token. -/
def readStatements (size : Nat) (ts : List Lexeme) : Option (List Statement) :=
  match ts with
  | [] => some []
  | t :: rest =>
    match readStatement size (t :: rest) with
    | none => none
    | some ⟨(s, after), _h⟩ =>
      match after with
      | [] => some [s]
      | next :: more =>
        if next.token = .semicolon then
          (readStatements size (skipSemicolons more)).map (s :: ·)
        else none
termination_by ts.length
decreasing_by
  have := length_skipSemicolons_le more
  simp only [List.length_cons] at _h ⊢
  omega

/-- The tree of a source. -/
def read? (source : List Char) : Option Script :=
  let size := Source.byteSize source
  (tokens? source).bind fun ts =>
    (readStatements size (skipSemicolons ts)).map (⟨·, size⟩)

end Scriptlet.Grammar
