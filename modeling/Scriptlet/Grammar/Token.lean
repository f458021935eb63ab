import Scriptlet.Kind.Operator
import Scriptlet.Source.Passage
import Scriptlet.Source.Span

/-!
# Tokens

A source is blanks, comments and tokens. A token is the longest one that can stand at its place.
`tokens?` gives the tokens with their spans, and nothing when a place holds no token.
-/
namespace Scriptlet.Grammar

/-- An operand that has no parts. -/
inductive Leaf where
  | null
  | boolean (b : Bool)
  /-- Digits, fraction and suffix as they are written. -/
  | number (text : List Char)
  /-- A string literal: its quote, and its body with the escapes as they are written. -/
  | string (quote : Char) (body : List Char)
  | ident (name : List Char)
  deriving DecidableEq, Repr

inductive Token where
  | leaf (l : Leaf)
  /-- A binary operator; `-` is also the sign. -/
  | operator (op : Operator)
  | bang
  | assign
  | lparen
  | rparen
  | semicolon
  deriving DecidableEq, Repr

/-- A token with the range of its characters. -/
structure Lexeme where
  token : Token
  span : Span
  deriving DecidableEq, Repr

/-- The blanks between tokens. -/
def isBlank (c : Char) : Bool := c == ' ' || c == '\t' || c == '\r' || c == '\n'

/-- A character that may start a name. -/
def isNameStart (c : Char) : Bool := c.isAlpha || c == '_' || c == '$'

/-- A character of a name. -/
def isNameChar (c : Char) : Bool := c.isAlphanum || c == '_' || c == '$'

/-- The letters that may end a number. -/
def isSuffix (c : Char) : Bool := ['L', 'l', 'f', 'F', 'd', 'D', 'I', 'B'].contains c

/-- A comment at the start of a text. A line comment ends before the line feed. -/
def comment? : List Char → Option (List Char × List Char)
  | '/' :: '/' :: rest =>
    some ('/' :: '/' :: rest.takeWhile (· ≠ '\n'), rest.dropWhile (· ≠ '\n'))
  | '/' :: '*' :: rest =>
    (Source.block? rest).map fun (body, rest) => ('/' :: '*' :: body ++ ['*', '/'], rest)
  | _ => none

theorem eq_of_comment? {text front rest : List Char} (h : comment? text = some (front, rest)) :
    text = front ++ rest ∧ front ≠ [] := by
  unfold comment? at h
  split at h
  · simp only [Option.some.injEq, Prod.mk.injEq] at h
    obtain ⟨rfl, rfl⟩ := h
    simp
  · simp only [Option.map_eq_some_iff] at h
    obtain ⟨⟨body, r⟩, h, heq⟩ := h
    simp only [Prod.mk.injEq] at heq
    obtain ⟨rfl, rfl⟩ := heq
    simp [Source.eq_of_block? h]
  · simp at h

/-- The blanks and comments at the start of a text, and what follows them. -/
def splitTrivia (text : List Char) : List Char × List Char :=
  match text with
  | [] => ([], [])
  | c :: rest =>
    if isBlank c then
      let (front, rest) := splitTrivia rest
      (c :: front, rest)
    else
      match _h : comment? (c :: rest) with
      | some (front, rest) =>
        let (more, rest) := splitTrivia rest
        (front ++ more, rest)
      | none => ([], c :: rest)
termination_by text.length
decreasing_by
  · simp
  · obtain ⟨heq, hne⟩ := eq_of_comment? _h
    have hlen := congrArg List.length heq
    have hpos := List.length_pos_iff.2 hne
    simp only [List.length_append] at hlen
    omega

/-- Blanks and comments and what follows them make up the text. -/
theorem splitTrivia_append (text : List Char) :
    (splitTrivia text).1 ++ (splitTrivia text).2 = text := by
  fun_induction splitTrivia text with
  | case1 => rfl
  | case2 c rest hc front after hs ih => simp_all
  | case3 c rest hc front after h more last hs ih =>
    simp_all [(eq_of_comment? h).1]
  | case4 c rest hc h => rfl

theorem length_splitTrivia_le (text : List Char) :
    (splitTrivia text).2.length ≤ text.length := by
  have h := congrArg List.length (splitTrivia_append text)
  simp only [List.length_append] at h
  omega

/-- The fraction of a number: a point with digits after it. -/
def splitFraction : List Char → List Char × List Char
  | '.' :: d :: rest =>
    if d.isDigit then ('.' :: d :: rest.takeWhile Char.isDigit, rest.dropWhile Char.isDigit)
    else ([], '.' :: d :: rest)
  | text => ([], text)

/-- The suffix of a number. -/
def splitSuffix : List Char → List Char × List Char
  | c :: rest => if isSuffix c then ([c], rest) else ([], c :: rest)
  | [] => ([], [])

/-- A number that starts with the digit `c`; no name may follow it directly. -/
def number? (c : Char) (rest : List Char) : Option (Token × List Char × List Char) :=
  let (fraction, afterFraction) := splitFraction (rest.dropWhile Char.isDigit)
  let (suffix, after) := splitSuffix afterFraction
  let text := c :: (rest.takeWhile Char.isDigit ++ fraction ++ suffix)
  if after.head?.any isNameChar then none else some (.leaf (.number text), text, after)

/-- The token of a whole word. -/
def wordToken (word : List Char) : Token :=
  if word = "null".toList then .leaf .null
  else if word = "true".toList then .leaf (.boolean true)
  else if word = "false".toList then .leaf (.boolean false)
  else .leaf (.ident word)

/-- The longest mark at the start of a text, with the number of its characters. -/
def mark? : List Char → Option (Token × Nat)
  | '|' :: '|' :: _ => some (.operator .or, 2)
  | '|' :: _ => some (.operator .bitOr, 1)
  | '&' :: '&' :: _ => some (.operator .and, 2)
  | '&' :: _ => some (.operator .bitAnd, 1)
  | '=' :: '=' :: _ => some (.operator .eq, 2)
  | '=' :: _ => some (.assign, 1)
  | '!' :: '=' :: _ => some (.operator .neq, 2)
  | '!' :: _ => some (.bang, 1)
  | '<' :: '=' :: _ => some (.operator .le, 2)
  | '<' :: '<' :: _ => some (.operator .shl, 2)
  | '<' :: _ => some (.operator .lt, 1)
  | '>' :: '=' :: _ => some (.operator .ge, 2)
  | '>' :: '>' :: '>' :: _ => some (.operator .ushr, 3)
  | '>' :: '>' :: _ => some (.operator .shr, 2)
  | '>' :: _ => some (.operator .gt, 1)
  | '^' :: _ => some (.operator .bitXor, 1)
  | '+' :: _ => some (.operator .add, 1)
  | '-' :: _ => some (.operator .sub, 1)
  | '*' :: '*' :: _ => some (.operator .pow, 2)
  | '*' :: _ => some (.operator .mul, 1)
  | '/' :: _ => some (.operator .div, 1)
  | '%' :: _ => some (.operator .rem, 1)
  | '(' :: _ => some (.lparen, 1)
  | ')' :: _ => some (.rparen, 1)
  | ';' :: _ => some (.semicolon, 1)
  | _ => none

/-- The token at the start of a text, its characters, and what follows them. -/
def scan? : List Char → Option (Token × List Char × List Char)
  | [] => none
  | c :: rest =>
    if c = '"' ∨ c = '\'' then
      (Source.quoted? c rest).map fun (body, rest) =>
        (.leaf (.string c body), c :: body ++ [c], rest)
    else if c.isDigit then number? c rest
    else if isNameStart c then
      let word := c :: rest.takeWhile isNameChar
      some (wordToken word, word, rest.dropWhile isNameChar)
    else
      (mark? (c :: rest)).map fun (token, size) =>
        (token, (c :: rest).take size, (c :: rest).drop size)

theorem splitFraction_append (text : List Char) :
    (splitFraction text).1 ++ (splitFraction text).2 = text := by
  unfold splitFraction
  split
  · split <;> simp
  · simp

theorem splitSuffix_append (text : List Char) :
    (splitSuffix text).1 ++ (splitSuffix text).2 = text := by
  unfold splitSuffix
  split
  · split <;> simp
  · simp

theorem mark?_pos {text : List Char} {token : Token} {size : Nat}
    (h : mark? text = some (token, size)) : 0 < size := by
  unfold mark? at h
  split at h <;> simp_all <;> omega

/-- A token and what follows it make up the text, and a token has characters. -/
theorem eq_of_scan? {text front rest : List Char} {token : Token}
    (h : scan? text = some (token, front, rest)) : text = front ++ rest ∧ front ≠ [] := by
  unfold scan? at h
  split at h
  · simp at h
  · rename_i c tail
    split at h
    · simp only [Option.map_eq_some_iff] at h
      obtain ⟨⟨body, r⟩, h, heq⟩ := h
      simp only [Prod.mk.injEq] at heq
      obtain ⟨-, rfl, rfl⟩ := heq
      simp [Source.eq_of_quoted? h]
    · split at h
      · simp only [number?] at h
        split at h
        · simp at h
        · simp only [Option.some.injEq, Prod.mk.injEq] at h
          obtain ⟨-, rfl, rfl⟩ := h
          simp [splitSuffix_append, splitFraction_append]
      · split at h
        · simp only [Option.some.injEq, Prod.mk.injEq] at h
          obtain ⟨-, rfl, rfl⟩ := h
          simp
        · simp only [Option.map_eq_some_iff] at h
          obtain ⟨⟨t, size⟩, h, heq⟩ := h
          simp only [Prod.mk.injEq] at heq
          obtain ⟨-, rfl, rfl⟩ := heq
          have hpos := mark?_pos h
          refine ⟨(List.take_append_drop size _).symm, ?_⟩
          simp
          omega

/-- The tokens of a text that starts at `offset`. -/
def tokensFrom? (offset : Nat) (text : List Char) : Option (List Lexeme) :=
  let start := offset + Source.byteSize (splitTrivia text).1
  match _hs : (splitTrivia text).2 with
  | [] => some []
  | c :: tail =>
    match _h : scan? (c :: tail) with
    | none => none
    | some (token, front, rest) =>
      let stop := start + Source.byteSize front
      (tokensFrom? stop rest).map (⟨token, ⟨start, stop⟩⟩ :: ·)
termination_by text.length
decreasing_by
  obtain ⟨heq, hne⟩ := eq_of_scan? _h
  have hlen := congrArg List.length heq
  have hpos := List.length_pos_iff.2 hne
  have hle := length_splitTrivia_le text
  rw [_hs] at hle
  simp only [List.length_append] at hlen
  omega

/-- The tokens of a source. -/
def tokens? (source : List Char) : Option (List Lexeme) := tokensFrom? 0 source

end Scriptlet.Grammar
