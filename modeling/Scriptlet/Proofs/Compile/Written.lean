import Scriptlet.Proofs.Compile.Legible
import Scriptlet.Proofs.Node.Term

/-!
# Terms and their texts

The text of a term is laid out in the tokens of an operand: signs and a primary, with parentheses
around every binary operation. Which operand it is can be told from the term.
-/
namespace Scriptlet

open Grammar

/-- The type of a binary operation without strong typing. -/
def joinedTy (op : Operator) (left right : Ty) : Ty :=
  if op = .add ∧ (left = .string ∨ right = .string) then .string else op.resultTy left right

/-- In the scope the term is written as the signs and the primary. A minus sign that stands right
before a number would be part of it. -/
inductive Term.Written (scope : Scope) : Term → List Sign → Primary → Prop
  | literal {v : Value} {l : Leaf} (legible : v.Legible l) :
    Written scope (.literal v v.ty) [] (.leaf l .origin)
  | reference {name : List Char} (spelled : Token.Spelled (.leaf (.ident name)) name) :
    Written scope (.reference (String.ofList name)
      ((scope.lookup? (String.ofList name)).getD .any)) [] (.leaf (.ident name) .origin)
  | unary {op : UnaryOp} {t : Term} {signs : List Sign} {p : Primary}
      (written : Written scope t signs p)
      (apart : op = .neg → signs = [] → p.isNumber = false) :
    Written scope (.unary op t (Compile.unaryTy op t.ty)) (⟨op, .origin⟩ :: signs) p
  | binary {l r : Term} {signs signs' : List Sign} {p p' : Primary} (op : Operator)
      (left : Written scope l signs p) (right : Written scope r signs' p') :
    Written scope (.binary op l r (joinedTy op l.ty r.ty)) []
      (.group (.mk (.mk signs p) (.cons op .origin (.mk signs' p') .nil) .origin) .origin)

namespace Grammar

/-- Blanks, closing parentheses and semicolons end every token. -/
def Stops (rest : List Char) : Prop := ∀ c ∈ rest.head?, c = ' ' ∨ c = ')' ∨ c = ';'

theorem Stops.clear {rest : List Char} (h : Stops rest) (t : Token) :
    ∀ c ∈ rest.head?, t.clear c = true := by
  intro c hc
  rcases h c hc with rfl | rfl | rfl
  all_goals
    cases t with
    | leaf l => cases l <;> rfl
    | operator op => cases op <;> rfl
    | _ => rfl

theorem stops_cons {c : Char} (h : c = ' ' ∨ c = ')' ∨ c = ';') (rest : List Char) :
    Stops (c :: rest) := by
  intro d hd
  obtain rfl := Option.some.inj hd
  exact h

theorem spelled_operator (op : Operator) :
    Token.Spelled (.operator op) op.symbol.toList := by
  cases op <;> exact .mark rfl

theorem spelled_sign (s : Sign) : s.lexeme.token.Spelled s.op.symbol.toList := by
  obtain ⟨op, place⟩ := s
  cases op with
  | neg =>
    show Token.Spelled (.operator .sub) UnaryOp.neg.symbol.toList
    exact .mark rfl
  | not =>
    show Token.Spelled .bang UnaryOp.not.symbol.toList
    exact .mark rfl

theorem mark?_ne_leaf {text : List Char} {l : Leaf} {size : Nat} :
    mark? text ≠ some (.leaf l, size) := by
  unfold mark?
  split <;> simp

/-- No leaf starts like `=`. -/
theorem Token.Spelled.ne_assign {l : Leaf} {text : List Char}
    (h : Token.Spelled (.leaf l) text) : ∃ c rest, text = c :: rest ∧ c ≠ '=' := by
  generalize ht : Token.leaf l = t at h
  cases h with
  | @string quote body mark => exact ⟨quote, _, rfl, by rcases mark with rfl | rfl <;> decide⟩
  | @number digits fraction suffix present digit =>
    obtain ⟨c, digits, rfl⟩ := List.exists_cons_of_ne_nil present
    have hc := digit c (List.mem_cons_self ..)
    refine ⟨c, digits ++ fraction ++ suffix, by simp, ?_⟩
    rintro rfl
    cases hc
  | @word c rest start =>
    refine ⟨c, rest, rfl, ?_⟩
    rintro rfl
    cases start
  | mark marked => exact absurd (ht ▸ marked) mark?_ne_leaf

theorem Token.Spelled.number_ne_nil {digits text : List Char}
    (h : Token.Spelled (.leaf (.number digits)) text) : digits ≠ [] := by
  generalize ht : Token.leaf (.number digits) = t at h
  cases h with
  | string => cases ht
  | number present =>
    obtain rfl := Leaf.number.inj (Token.leaf.inj ht)
    simp [present]
  | word =>
    unfold wordToken at ht
    split at ht
    · cases ht
    split at ht
    · cases ht
    split at ht <;> cases ht
  | mark marked => exact absurd (ht ▸ marked) mark?_ne_leaf

/-- A name is spelled as it is. -/
theorem Token.Spelled.eq_name {name text : List Char}
    (h : Token.Spelled (.leaf (.ident name)) text) : text = name := by
  generalize ht : Token.leaf (.ident name) = t at h
  cases h with
  | string | number => cases ht
  | word =>
    unfold wordToken at ht
    split at ht
    · cases ht
    split at ht
    · cases ht
    split at ht
    · cases ht
    · exact (Leaf.ident.inj (Token.leaf.inj ht)).symm
  | mark marked => exact absurd (ht ▸ marked) mark?_ne_leaf

end Grammar

namespace Term.Written

variable {scope : Scope} {t : Term} {signs : List Sign} {p : Primary}

theorem ne_assign (h : t.Written scope signs p) : ∃ c rest, t.chars = c :: rest ∧ c ≠ '=' := by
  cases h with
  | literal legible => exact legible.spelled.ne_assign
  | reference spelled =>
    obtain ⟨c, rest, heq, hc⟩ := spelled.ne_assign
    exact ⟨c, rest, by rw [Term.chars, String.toList_ofList, heq], hc⟩
  | @unary op t signs p written =>
    cases op with
    | neg => exact ⟨'-', t.chars, rfl, by decide⟩
    | not => exact ⟨'!', t.chars, rfl, by decide⟩
  | binary op left right => exact ⟨'(', _, rfl, by decide⟩

/-- The text of a term is laid out in the tokens of its operand. -/
theorem laidOut (h : t.Written scope signs p) {gap rest : List Char} {pieces : List Piece}
    (trivia : Trivia gap) (later : LaidOut rest pieces) (stops : Stops rest) :
    ∃ pieces', LaidOut (gap ++ (t.chars ++ rest)) pieces' ∧
      pieces'.map (·.token) =
        tokensOf (Operand.mk signs p).lexemes ++ pieces.map (·.token) := by
  induction h generalizing gap rest pieces with
  | literal legible =>
    exact ⟨_, .piece trivia legible.spelled (stops.clear _) later, rfl⟩
  | @reference name spelled =>
    rw [Term.chars, String.toList_ofList]
    exact ⟨_, .piece trivia spelled (stops.clear _) later, rfl⟩
  | @unary op t signs p written _ ih =>
    obtain ⟨pieces', laid, tokens⟩ := ih .nil later stops
    have clear : ∀ c ∈ ([] ++ (t.chars ++ rest)).head?,
        (Sign.lexeme ⟨op, .origin⟩).token.clear c = true := by
      obtain ⟨d, tail, heq, hd⟩ := written.ne_assign
      intro c hc
      rw [heq] at hc
      obtain rfl := Option.some.inj hc
      cases op with
      | neg => rfl
      | not => simpa [Sign.lexeme, Token.clear] using hd
    have laid := LaidOut.piece trivia (spelled_sign ⟨op, .origin⟩) clear laid
    rw [Term.chars, List.append_assoc]
    exact ⟨_, laid, by rw [List.map_cons, tokens]; rfl⟩
  | @binary l r signs signs' p p' op left right ihl ihr =>
    have opening : Token.Spelled .lparen ['('] := .mark rfl
    have closing : Token.Spelled .rparen [')'] := .mark rfl
    have blank : Trivia [' '] := .blank rfl .nil
    -- From the closing parenthesis to the opening one, each token with the gap before it.
    have closed := LaidOut.piece .nil closing (stops.clear _) later
    obtain ⟨onRight, laidRight, tokensRight⟩ := ihr blank closed (stops_cons (.inr (.inl rfl)) _)
    have operated := LaidOut.piece blank (spelled_operator op)
      ((stops_cons (.inl rfl) _).clear _) laidRight
    obtain ⟨onLeft, laidLeft, tokensLeft⟩ := ihl .nil operated (stops_cons (.inl rfl) _)
    have laid := LaidOut.piece trivia opening (fun _ _ => rfl) laidLeft
    refine ⟨_, by simpa [Term.chars] using laid, ?_⟩
    simp [tokensLeft, tokensRight, Operand.lexemes, Primary.lexemes, Expression.lexemes,
      Links.lexemes]

end Term.Written

end Scriptlet
