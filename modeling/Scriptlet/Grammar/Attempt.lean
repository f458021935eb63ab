import Scriptlet.Grammar.ParseError
import Scriptlet.Grammar.Pattern

/-!
# Attempts

Where a source stops making sense, and what could have stood there. A match of the grammar
against a source records, at the farthest place where a rule was tried, the rules that failed
there. A rule that fails takes the place of the rules it tried at its own start, unless it tried
just one.
-/
namespace Scriptlet.Grammar

/-- The rules tried at the farthest place so far. -/
structure Attempts where
  offset : Nat
  /-- Rules that were wanted and failed. -/
  wanted : List Rule
  /-- Rules that matched where they must not. -/
  unwanted : List Rule

namespace Attempts

/-- Before anything was tried. -/
def start : Attempts := ⟨0, [], []⟩

/-- How many rules are recorded at a place. -/
def countAt (a : Attempts) (offset : Nat) : Nat :=
  if a.offset = offset then a.wanted.length + a.unwanted.length else 0

/-- What is recorded at a place. -/
def recordedAt (a : Attempts) (offset : Nat) : Attempts :=
  if a.offset = offset then a else ⟨offset, [], []⟩

/-- Records a rule that was tried at `offset`, given what was recorded before it was tried. -/
def record (a : Attempts) (negated : Bool) (rule : Rule) (offset : Nat) (earlier : Attempts) :
    Attempts :=
  if a.countAt offset = earlier.countAt offset + 1 then a
  else
    let base :=
      if a.offset = offset then
        ⟨offset, a.wanted.take (earlier.recordedAt offset).wanted.length,
          a.unwanted.take (earlier.recordedAt offset).unwanted.length⟩
      else if a.offset < offset then ⟨offset, [], []⟩
      else a
    if base.offset ≠ offset then base
    else if negated then { base with unwanted := base.unwanted ++ [rule] }
    else { base with wanted := base.wanted ++ [rule] }

end Attempts

/-- A place in a source: an offset and the text from there on. -/
structure Place where
  offset : Nat
  text : List Char

namespace Place

/-- The place after some characters. -/
def after (p : Place) (front rest : List Char) : Place :=
  ⟨p.offset + Source.byteSize front, rest⟩

/-- The place after blanks and comments. -/
def skipTrivia (p : Place) : Place :=
  p.after (splitTrivia p.text).1 (splitTrivia p.text).2

/-- The place after the given characters, if they stand here. -/
def skipText? (p : Place) (s : List Char) : Option Place :=
  if s.isPrefixOf p.text then some (p.after s (p.text.drop s.length)) else none

/-- The place after a character that passes the test. -/
def skipOne? (p : Place) (test : Char → Bool) : Option Place :=
  match p.text with
  | c :: rest => if test c then some (p.after [c] rest) else none
  | [] => none

end Place

/-- How the rules around a pattern treat it. -/
structure Surroundings where
  style : Style
  /-- Inside a pattern that must be absent. -/
  negated : Bool

namespace Surroundings

/-- Inside a rule. -/
def enter (s : Surroundings) (rule : Rule) : Surroundings :=
  match rule.style with
  | .silent => s
  | .spaced => s
  | style => { s with style := style }

/-- The place after what may stand between two parts. -/
def skip (s : Surroundings) (p : Place) : Place :=
  if s.style = .spaced then p.skipTrivia else p

/-- Whether errors mention a rule that failed, or matched where it must not. -/
def mentions (s : Surroundings) (rule : Rule) (matched : Bool) : Bool :=
  rule.style != .silent && s.style != .atomic && matched == s.negated

end Surroundings

/-- The place after a match, if there is one, and the attempts. -/
abbrev Outcome := Option Place × Attempts

/-- Matches a pattern; `fuel` bounds the depth of the match. -/
def run : Nat → Surroundings → Pattern → Place → Attempts → Outcome
  | 0, _, _, _, a => (none, a)
  | fuel + 1, s, pattern, p, a =>
    match pattern with
    | .text chars => (p.skipText? chars, a)
    | .one test => (p.skipOne? test, a)
    | .stop => (if p.text.isEmpty then some p else none, a)
    | .seq first second =>
      match run fuel s first p a with
      | (some q, a) => run fuel s second (s.skip q) a
      | (none, a) => (none, a)
    | .alt first second =>
      match run fuel s first p a with
      | (some q, a) => (some q, a)
      | (none, a) => run fuel s second p a
    | .opt inner =>
      match run fuel s inner p a with
      | (some q, a) => (some q, a)
      | (none, a) => (some p, a)
    | .star inner =>
      match run fuel s inner p a with
      | (none, a) => (some p, a)
      | (some q, a) =>
        match run fuel s (.star inner) (s.skip q) a with
        | (some r, a) => (some (if r.offset = (s.skip q).offset then q else r), a)
        | (none, a) => (some q, a)
    | .absent inner =>
      match run fuel { s with negated := !s.negated } inner p a with
      | (some _, a) => (none, a)
      | (none, a) => (some p, a)
    | .rule r =>
      match run fuel (s.enter r) r.pattern p a with
      | (result, b) =>
        if s.mentions r result.isSome then (result, b.record s.negated r p.offset a)
        else (result, b)

/-- Enough for any match of the grammar against a source. -/
def fuelFor (source : List Char) : Nat := 64 * (source.length + 4)

/-- The attempts of a match of the whole grammar. -/
def attempts (source : List Char) : Attempts :=
  (run (fuelFor source) ⟨.spaced, false⟩ (.rule .main) ⟨0, source⟩ .start).2

/-- The rules in order of declaration, each once. -/
def inOrder (rules : List Rule) : List Rule := Rule.all.filter rules.contains

/-- The error that says which parts were expected and found. -/
def unexpected (wanted unwanted : List Rule) (span : Span) : ParseError :=
  ⟨.unexpectedToken (Rule.describeExpected wanted) (Rule.describeFound unwanted), span⟩

/-- The error of a source that the grammar does not match. -/
def explain (source : List Char) : ParseError :=
  let a := attempts source
  unexpected (inOrder a.wanted) (inOrder a.unwanted) ⟨a.offset, a.offset⟩

end Scriptlet.Grammar
