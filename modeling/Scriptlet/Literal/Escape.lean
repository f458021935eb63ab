import Scriptlet.Text.Numeral

/-!
# Escapes in string literals

A backslash and the character after it stand for one character: `n`, `t`, `r` and `0` for
controls, `u` with up to four hexadecimal digits for a code point, any other for itself.
-/
namespace Scriptlet.Literal

/-- The character that an escape letter other than `u` stands for. -/
def escaped (c : Char) : Char :=
  if c = 'n' then '\n'
  else if c = 't' then '\t'
  else if c = 'r' then '\r'
  else if c = '0' then '\x00'
  else c

/-- The character whose code point is written in hexadecimal. -/
def codePoint? (digits : List Char) : Option Char :=
  (Text.readHex? digits).bind fun n =>
    if h : n.isValidChar then some (Char.ofNatAux n h) else none

/-- The text of the body of a literal, or the escape that names no character. A lone backslash
at the end stands for itself. -/
def unescape : List Char → Except (List Char) (List Char)
  | [] => .ok []
  | '\\' :: 'u' :: rest =>
    match codePoint? (rest.take 4) with
    | some c => (unescape (rest.drop 4)).map (c :: ·)
    | none => .error ('\\' :: 'u' :: rest.take 4)
  | '\\' :: c :: rest => (unescape rest).map (escaped c :: ·)
  | c :: rest => (unescape rest).map (c :: ·)
termination_by text => text.length
decreasing_by all_goals (simp; try omega)

end Scriptlet.Literal
