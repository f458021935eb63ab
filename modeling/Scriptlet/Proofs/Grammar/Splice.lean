import Scriptlet.Proofs.Grammar.Insertion

/-!
# Slices of a source

A slice of a source from the start of one token to the end of another can be taken out and put
before other tokens, and so can what stands before it. Only the last token must end where the next
one starts, which every token does before a parenthesis, and every mark before a name.
-/
namespace Scriptlet.Grammar

/-- The token ends where the text starts. -/
def Token.EndsBefore (t : Token) (rest : List Char) : Prop :=
  ∀ c ∈ rest.head?, t.clear c = true

namespace Piece

/-- The characters of pieces. -/
def chars (pieces : List Piece) : List Char := pieces.flatMap fun p => p.gap ++ p.text

theorem chars_cons (p : Piece) (pieces : List Piece) :
    chars (p :: pieces) = p.gap ++ (p.text ++ chars pieces) := by
  rw [chars, List.flatMap_cons, List.append_assoc]
  rfl

/-- Pieces are divided as their tokens are. -/
theorem split_of_lexemesFrom {offset : Nat} {pieces : List Piece} {before after : List Lexeme}
    (h : lexemesFrom offset pieces = before ++ after) :
    ∃ front back, pieces = front ++ back ∧ lexemesFrom offset front = before ∧
      lexemesFrom (offset + Source.byteSize (chars front)) back = after := by
  induction before generalizing offset pieces with
  | nil => exact ⟨[], pieces, rfl, rfl, h⟩
  | cons t before ih =>
    cases pieces with
    | nil => contradiction
    | cons p pieces =>
      obtain ⟨rfl, later⟩ := List.cons.inj h
      obtain ⟨front, back, rfl, rfl, rfl⟩ := ih later
      refine ⟨p :: front, back, rfl, rfl, ?_⟩
      rw [chars_cons, Source.byteSize_append, Source.byteSize_append]
      simp only [Nat.add_assoc]

theorem stop_lexemesFrom {offset : Nat} {pieces : List Piece} {l : Lexeme}
    (h : (lexemesFrom offset pieces).getLast? = some l) :
    l.span.stop = offset + Source.byteSize (chars pieces) := by
  obtain ⟨before, hl⟩ := List.getLast?_eq_some_iff.mp h
  obtain ⟨front, back, rfl, -, hback⟩ := split_of_lexemesFrom hl
  cases back with
  | nil => contradiction
  | cons p back =>
    obtain ⟨rfl, hback⟩ := List.cons.inj hback
    cases back with
    | cons => contradiction
    | nil =>
      have size : Source.byteSize (chars (front ++ [p])) = Source.byteSize (chars front) +
          (Source.byteSize p.gap + Source.byteSize p.text) := by
        simp [chars]
      rw [size]
      simp only [Nat.add_assoc]

end Piece

/-- A text whose characters go before any tokens that its own last token ends before. -/
def Leads (front : List Char) (ts : List Token) : Prop :=
  ∀ rest next pieces, LaidOut rest (next :: pieces) → (∀ t ∈ ts.getLast?, t.EndsBefore rest) →
    ∃ pieces', LaidOut (front ++ rest) pieces' ∧
      pieces'.map (·.token) = ts ++ (next :: pieces).map (·.token)

open Piece

theorem LaidOut.split {source : List Char} {front back : List Piece}
    (h : LaidOut source (front ++ back)) :
    ∃ rest, source = chars front ++ rest ∧ LaidOut rest back := by
  induction front generalizing source with
  | nil => exact ⟨source, rfl, h⟩
  | cons p front ih =>
    cases h with
    | piece trivia spelled clear later =>
      obtain ⟨rest, rfl, laid⟩ := ih later
      refine ⟨rest, ?_, laid⟩
      rw [chars_cons, List.append_assoc, List.append_assoc]

theorem LaidOut.chars_ne_nil {source : List Char} {p : Piece} {pieces : List Piece}
    (h : LaidOut source (p :: pieces)) (others : List Piece) : chars (p :: others) ≠ [] := by
  cases h with
  | piece trivia spelled clear later =>
    obtain ⟨c, rest, rfl, -⟩ := spelled.start
    simp [chars]

theorem Leads.of_trivia {gap : List Char} (trivia : Trivia gap) : Leads gap [] := by
  intro rest next pieces laid _
  cases laid with
  | @piece own text rest t pieces trivia' spelled clear later =>
    refine ⟨⟨gap ++ own, t, text⟩ :: pieces, ?_, rfl⟩
    rw [← List.append_assoc]
    exact .piece (trivia.append trivia') spelled clear later

theorem head?_append_congr {front : List Char} (present : front ≠ []) (rest rest' : List Char) :
    (front ++ rest).head? = (front ++ rest').head? := by
  obtain ⟨c, tail, rfl⟩ := List.exists_cons_of_ne_nil present
  rfl

/-- The pieces before a place of a source go before other tokens, with the gap there. -/
theorem LaidOut.leads {front back : List Piece} {gap rest : List Char} (trivia : Trivia gap)
    (h : LaidOut (chars front ++ (gap ++ rest)) (front ++ back)) :
    Leads (chars front ++ gap) (front.map (·.token)) := by
  induction front with
  | nil => exact .of_trivia trivia
  | cons p front ih =>
    rw [chars_cons, List.append_assoc, List.append_assoc] at h
    obtain ⟨own, t, text⟩ := p
    generalize hsource : own ++ (text ++ (chars front ++ (gap ++ rest))) = source at h
    cases h with
    | piece trivia' spelled clear later =>
      obtain rfl := List.append_cancel_left (List.append_cancel_left hsource)
      intro rest' next pieces laid ends
      have last : ∀ u ∈ (front.map (·.token)).getLast?, u.EndsBefore rest' := by
        intro u hu
        refine ends u ?_
        rw [List.map_cons, List.getLast?_cons, hu]
        rfl
      obtain ⟨pieces', laid', tokens⟩ := ih later rest' next pieces laid last
      have clear' : ∀ c ∈ (chars front ++ gap ++ rest').head?, t.clear c = true := by
        by_cases present : chars front ++ gap = []
        · -- Nothing stands between the token and the tokens that follow now.
          obtain ⟨hfront, rfl⟩ := List.append_eq_nil_iff.mp present
          cases front with
          | nil => exact ends t rfl
          | cons q front => exact absurd hfront (later.chars_ne_nil front)
        · rw [← List.append_assoc] at clear
          rwa [head?_append_congr present rest' rest]
      refine ⟨⟨own, t, text⟩ :: pieces', ?_, by rw [List.map_cons, tokens]; rfl⟩
      rw [chars_cons]
      simp only [List.append_assoc] at laid' clear' ⊢
      exact .piece trivia' spelled clear' laid'

/-- Of two texts that are the same, as many bytes at the start are the same. -/
theorem append_inj_of_byteSize {front back front' back' : List Char}
    (h : front ++ back = front' ++ back') (size : Source.byteSize front = Source.byteSize front') :
    front = front' ∧ back = back' := by
  obtain ⟨middle, rfl, rfl⟩ := append_of_byteSize_le h (Nat.le_of_eq size)
  rw [Source.byteSize_append] at size
  obtain rfl : middle = [] := eq_nil_of_byteSize (by omega)
  exact ⟨(List.append_nil front).symm, rfl⟩

/-- A slice from one token to another and the text before it go before other tokens, and the text
after it is still laid out. -/
theorem LaidOut.cut {source front text back : List Char} {pieces : List Piece}
    {a b c : List Lexeme} {t u : Lexeme} (h : LaidOut source pieces)
    (tokens : lexemesFrom 0 pieces = a ++ (b ++ c)) (first : b.head? = some t)
    (last : b.getLast? = some u) (split : source = front ++ (text ++ back))
    (start : t.span.start = Source.byteSize front)
    (stop : u.span.stop = Source.byteSize (front ++ text)) :
    Leads front (tokensOf a) ∧ Leads text (tokensOf b) ∧
      ∃ later, LaidOut back later ∧ later.map (·.token) = tokensOf c := by
  obtain ⟨before, rest, rfl, rfl, hrest⟩ := split_of_lexemesFrom tokens
  obtain ⟨middle, later, rfl, hmiddle, rfl⟩ := split_of_lexemesFrom hrest
  rw [Nat.zero_add] at hmiddle
  have reach := stop_lexemesFrom (hmiddle ▸ last)
  subst hmiddle
  cases middle with
  | nil => contradiction
  | cons p middle =>
    obtain ⟨gap, token, chars⟩ := p
    obtain rfl := Option.some.inj first
    obtain ⟨rest, hsource, laid⟩ := h.split
    generalize hrow : (⟨gap, token, chars⟩ : Piece) :: middle ++ later = row at laid
    cases laid with
    | done => contradiction
    | piece trivia spelled clear laid =>
      obtain ⟨hp, rfl⟩ := List.cons.inj hrow
      obtain ⟨rfl, rfl, rfl⟩ := Piece.mk.inj hp
      obtain ⟨behind, rfl, laidLast⟩ := laid.split
      have whole : (Piece.chars before ++ gap) ++ (chars ++ (Piece.chars middle ++ behind)) =
          front ++ (text ++ back) := by
        rw [← split, hsource, List.append_assoc]
      obtain ⟨rfl, slice⟩ := append_inj_of_byteSize whole (by
        rw [← start, Source.byteSize_append])
      have slice : (chars ++ Piece.chars middle) ++ behind = text ++ back := by
        rw [List.append_assoc, slice]
      obtain ⟨rfl, rfl⟩ := append_inj_of_byteSize slice (by
        rw [stop, chars_cons] at reach
        simp only [Source.byteSize_append] at reach ⊢
        omega)
      refine ⟨?_, ?_, later, laidLast, by rw [tokensOf_lexemesFrom]⟩
      · rw [hsource] at h
        rw [tokensOf_lexemesFrom]
        exact h.leads trivia
      · have row : LaidOut (Piece.chars (⟨[], token, chars⟩ :: middle) ++ ([] ++ behind))
            ((⟨[], token, chars⟩ :: middle) ++ later) := by
          rw [chars_cons]
          simp only [List.nil_append, List.append_assoc]
          exact .piece .nil spelled clear laid
        have leads := row.leads .nil
        rw [chars_cons, List.append_nil] at leads
        rw [tokensOf_lexemesFrom]
        exact leads

/-! ## Parentheses and names -/

theorem Token.endsBefore_paren (t : Token) (rest : List Char) :
    t.EndsBefore ('(' :: rest) ∧ t.EndsBefore (')' :: rest) := by
  have opens : t.clear '(' = true := by
    cases t with
    | leaf l => cases l <;> rfl
    | operator op => cases op <;> rfl
    | _ => rfl
  have closes : t.clear ')' = true := by
    cases t with
    | leaf l => cases l <;> rfl
    | operator op => cases op <;> rfl
    | _ => rfl
  simp [EndsBefore, opens, closes]

/-- Only another character of a name goes on with what ends before a name. -/
theorem Token.clear_of_isNameStart {t : Token} (mark : ∀ l, t ≠ .leaf l) {c : Char}
    (h : isNameStart c = true) : t.clear c = true := by
  have other {d : Char} (hd : isNameStart d = false) : c ≠ d := by
    rintro rfl
    rw [h] at hd
    contradiction
  have signs : c ≠ '|' ∧ c ≠ '&' ∧ c ≠ '=' ∧ c ≠ '<' ∧ c ≠ '>' ∧ c ≠ '*' ∧ c ≠ '/' :=
    ⟨other rfl, other rfl, other rfl, other rfl, other rfl, other rfl, other rfl⟩
  cases t with
  | leaf l => exact absurd rfl (mark l)
  | operator op => cases op <;> simp [clear, signs]
  | _ => simp [clear, signs]

theorem splitTrivia_of_isNameChar {c : Char} (h : isNameChar c = true) (rest : List Char) :
    splitTrivia (c :: rest) = ([], c :: rest) := by
  refine splitTrivia_none ?_ ?_
  · by_contra blank
    simp only [isBlank, Bool.not_eq_false, Bool.or_eq_true, beq_iff_eq] at blank
    rcases blank with ((rfl | rfl) | rfl) | rfl <;> revert h <;> decide
  · have other : c ≠ '/' := by
      rintro rfl
      revert h
      decide
    simp [comment?, other]

theorem wordToken_leaf (word : List Char) : ∃ l, wordToken word = .leaf l := by
  unfold wordToken
  split
  · exact ⟨_, rfl⟩
  split
  · exact ⟨_, rfl⟩
  split <;> exact ⟨_, rfl⟩

/-- Where no leaf comes next, no character of a name does. -/
theorem LaidOut.unnamed {text : List Char} {pieces : List Piece} (h : LaidOut text pieces)
    (mark : ∀ p ∈ pieces.head?, ∀ l, p.token ≠ .leaf l) :
    ∀ c ∈ text.head?, isNameChar c = false := by
  intro c hc
  obtain ⟨tail, rfl⟩ := List.head?_eq_some_iff.mp hc
  by_contra name
  rw [Bool.not_eq_false] at name
  have visible := splitTrivia_of_isNameChar name tail
  generalize htext : c :: tail = source at h
  cases h with
  | done trivia =>
    rw [← htext, visible] at trivia
    contradiction
  | @piece gap text rest t pieces trivia spelled clear later =>
    -- The token comes first, and no mark starts with such a character.
    have split : splitTrivia (gap ++ (text ++ rest)) = (gap, text ++ rest) := by
      rw [splitTrivia_of_trivia trivia, spelled.splitTrivia clear, List.append_nil]
    rw [← htext, visible] at split
    obtain ⟨rfl, hrest⟩ := Prod.mk.inj split
    have unmarked := mark _ rfl
    cases spelled with
    | string => exact unmarked _ rfl
    | number => exact unmarked _ rfl
    | @word d word =>
      obtain ⟨l, hl⟩ := wordToken_leaf (d :: word)
      exact unmarked l hl
    | mark marked =>
      cases text with
      | nil => contradiction
      | cons d text =>
        obtain ⟨rfl, -⟩ := List.cons.inj hrest
        obtain ⟨-, digit, start⟩ := start_of_mark? marked
        simp only [isNameStart, Bool.or_eq_false_iff] at start
        simp [isNameChar, Char.isAlphanum, digit, start] at name

/-- The text is an identifier and no word with a meaning of its own. -/
def isName : List Char → Bool
  | [] => false
  | c :: rest => isNameStart c && rest.all isNameChar &&
    wordToken (c :: rest) == .leaf (.ident (c :: rest))

theorem starts_of_isName {name : List Char} (h : isName name = true) :
    ∃ c rest, name = c :: rest ∧ isNameStart c = true := by
  cases name with
  | nil => contradiction
  | cons c rest =>
    simp only [isName, Bool.and_eq_true] at h
    exact ⟨c, rest, rfl, h.1.1⟩

theorem spelled_of_isName {name : List Char} (h : isName name = true) :
    (Token.leaf (.ident name)).Spelled name := by
  cases name with
  | nil => contradiction
  | cons c rest =>
    simp only [isName, Bool.and_eq_true, List.all_eq_true, beq_iff_eq] at h
    obtain ⟨⟨start, chars⟩, word⟩ := h
    rw [← word]
    exact .word start chars

section

variable {front text back : List Char} {a b c : List Token} (leads : Leads front a)
  {later : List Piece} (laid : LaidOut back later) (tokens : later.map (·.token) = c)

include leads laid tokens

/-- A slice may be put in parentheses. -/
theorem laidOut_group (slice : Leads text b) :
    ∃ pieces, LaidOut (front ++ '(' :: (text ++ ')' :: back)) pieces ∧
      pieces.map (·.token) = a ++ .lparen :: (b ++ .rparen :: c) := by
  have close : LaidOut ([] ++ ([')'] ++ back)) (⟨[], .rparen, [')']⟩ :: later) :=
    .piece .nil (.mark rfl) (fun _ _ => rfl) laid
  obtain ⟨inner, laidInner, innerTokens⟩ :=
    slice _ _ _ close fun t _ => (t.endsBefore_paren back).2
  have opening : LaidOut ([] ++ (['('] ++ (text ++ ')' :: back))) (⟨[], .lparen, ['(']⟩ :: inner) :=
    .piece .nil (.mark rfl) (fun _ _ => rfl) laidInner
  obtain ⟨pieces, laidAll, allTokens⟩ :=
    leads _ _ _ opening fun t _ => (t.endsBefore_paren _).1
  refine ⟨pieces, laidAll, ?_⟩
  rw [allTokens, List.map_cons, innerTokens, List.map_cons, tokens]

/-- A name may stand between marks. -/
theorem laidOut_name {name : List Char} (isName : isName name = true)
    (before : ∀ t ∈ a.getLast?, ∀ l, t ≠ .leaf l) (after : ∀ t ∈ c.head?, ∀ l, t ≠ .leaf l) :
    ∃ pieces, LaidOut (front ++ (name ++ back)) pieces ∧
      pieces.map (·.token) = a ++ .leaf (.ident name) :: c := by
  have follows : ∀ p ∈ later.head?, ∀ l, p.token ≠ .leaf l := by
    intro p hp
    refine after p.token ?_
    rw [← tokens, List.head?_map, hp]
    rfl
  have clear : ∀ d ∈ back.head?, (Token.leaf (.ident name)).clear d = true := by
    intro d hd
    simp [Token.clear, laid.unnamed follows d hd]
  have laidName : LaidOut ([] ++ (name ++ back)) (⟨[], .leaf (.ident name), name⟩ :: later) :=
    .piece .nil (spelled_of_isName isName) clear laid
  obtain ⟨d, rest, rfl, starts⟩ := starts_of_isName isName
  obtain ⟨pieces, laidAll, allTokens⟩ := leads _ _ _ laidName fun t ht e he => by
    obtain rfl := Option.some.inj he
    exact Token.clear_of_isNameStart (before t ht) starts
  exact ⟨pieces, laidAll, by rw [allTokens, List.map_cons, tokens]⟩

end

end Scriptlet.Grammar
