import Scriptlet.Proofs.Grammar.Spelling
import Scriptlet.Proofs.Grammar.Trivia
import Scriptlet.Proofs.Grammar.Yield

/-!
# Sources in pieces

A source with a tree is a row of tokens with blanks and comments before each of them and after the
last. A scan of such a source needs to know what it does to a gap and to a token, and no more.
-/
namespace Scriptlet.Grammar

/-- A token with its characters and the blanks and comments before it. -/
structure Piece where
  gap : List Char
  token : Token
  text : List Char

namespace Piece

/-- The tokens of pieces that start at `offset`. -/
def lexemesFrom (offset : Nat) : List Piece → List Lexeme
  | [] => []
  | p :: rest =>
    let start := offset + Source.byteSize p.gap
    let stop := start + Source.byteSize p.text
    ⟨p.token, ⟨start, stop⟩⟩ :: lexemesFrom stop rest

theorem tokensOf_lexemesFrom (offset : Nat) (pieces : List Piece) :
    tokensOf (lexemesFrom offset pieces) = pieces.map (·.token) := by
  induction pieces generalizing offset with
  | nil => rfl
  | cons p rest ih => rw [lexemesFrom, tokensOf_cons, ih, List.map_cons]

theorem le_start (offset : Nat) (pieces : List Piece) :
    ∀ t ∈ lexemesFrom offset pieces, offset ≤ t.span.start := by
  induction pieces generalizing offset with
  | nil => simp [lexemesFrom]
  | cons p rest ih =>
    refine List.forall_mem_cons.mpr ⟨Nat.le_add_right .., fun t ht => ?_⟩
    have := ih _ t ht
    omega

end Piece

/-- The text consists of the pieces and of blanks and comments after them. No token goes on with
what follows it. -/
inductive LaidOut : List Char → List Piece → Prop
  | done {text : List Char} (trivia : (splitTrivia text).2 = []) : LaidOut text []
  | piece {gap text rest : List Char} {t : Token} {pieces : List Piece} (trivia : Trivia gap)
      (spelled : t.Spelled text) (clear : ∀ c ∈ rest.head?, t.clear c = true)
      (later : LaidOut rest pieces) : LaidOut (gap ++ (text ++ rest)) (⟨gap, t, text⟩ :: pieces)

/-- No token starts a comment. -/
theorem Token.Spelled.splitTrivia {t : Token} {text rest : List Char} (spelled : t.Spelled text)
    (clear : ∀ c ∈ rest.head?, t.clear c = true) :
    splitTrivia (text ++ rest) = ([], text ++ rest) := by
  obtain ⟨c, tail, rfl, visible, slash, -⟩ := spelled.start
  refine splitTrivia_none visible ?_
  by_cases hc : c = '/'
  · obtain ⟨rfl, rfl⟩ := slash hc
    subst hc
    cases rest with
    | nil => rfl
    | cons d more =>
      have hd : ¬ d = '/' ∧ ¬ d = '*' := by simpa [Token.clear] using clear d rfl
      simp [comment?, hd]
  · simp [comment?, hc]

theorem tokensFrom?_done {text : List Char} (h : (splitTrivia text).2 = []) (offset : Nat) :
    tokensFrom? offset text = some [] := by
  rw [tokensFrom?]
  split
  · rfl
  · rename_i hs
    rw [h] at hs
    contradiction

theorem tokensFrom?_of_scan? {text front rest : List Char} {t : Token} (offset : Nat)
    (h : scan? (splitTrivia text).2 = some (t, front, rest)) :
    tokensFrom? offset text =
      (tokensFrom? (offset + Source.byteSize (splitTrivia text).1 + Source.byteSize front)
        rest).map (⟨t, ⟨offset + Source.byteSize (splitTrivia text).1,
          offset + Source.byteSize (splitTrivia text).1 + Source.byteSize front⟩⟩ :: ·) := by
  rw [tokensFrom?]
  split
  · rename_i hs
    rw [hs] at h
    contradiction
  · rename_i c tail hs
    rw [hs] at h
    split
    · rename_i hnone
      rw [hnone] at h
      contradiction
    · rename_i hsome
      rw [hsome] at h
      simp only [Option.some.injEq, Prod.mk.injEq] at h
      obtain ⟨rfl, rfl, rfl⟩ := h
      rfl

theorem LaidOut.tokensFrom? {text : List Char} {pieces : List Piece} (h : LaidOut text pieces)
    (offset : Nat) : tokensFrom? offset text = some (Piece.lexemesFrom offset pieces) := by
  induction h generalizing offset with
  | done trivia => exact tokensFrom?_done trivia offset
  | @piece gap text rest t pieces trivia spelled clear _ ih =>
    have split : splitTrivia (gap ++ (text ++ rest)) = (gap, text ++ rest) := by
      rw [splitTrivia_of_trivia trivia, spelled.splitTrivia clear, List.append_nil]
    have scanned : scan? (splitTrivia (gap ++ (text ++ rest))).2 = some (t, text, rest) := by
      rw [split, scan?_append spelled clear]
    rw [tokensFrom?_of_scan? offset scanned, ih, split]
    rfl

theorem tokensFrom?_none {text : List Char} (visible : (splitTrivia text).2 ≠ [])
    (h : scan? (splitTrivia text).2 = none) (offset : Nat) : tokensFrom? offset text = none := by
  rw [tokensFrom?]
  split
  · rename_i hs
    exact absurd hs visible
  · rename_i c tail hs
    rw [hs] at h
    split
    · rfl
    · rename_i hsome
      rw [hsome] at h
      contradiction

theorem splitTrivia_point (rest : List Char) :
    splitTrivia ('.' :: rest) = ([], '.' :: rest) := splitTrivia_none rfl rfl

theorem splitTrivia_star (rest : List Char) :
    splitTrivia ('*' :: rest) = ([], '*' :: rest) := splitTrivia_none rfl rfl

theorem scan?_point (rest : List Char) : scan? ('.' :: rest) = none := by
  have unnamed : isNameStart '.' = false := by decide
  simp [scan?, unnamed, mark?]

theorem scan?_star (rest : List Char) :
    ∃ op front after, scan? ('*' :: rest) = some (.operator op, front, after) ∧
      Token.opens (.operator op) = false := by
  have unnamed : isNameStart '*' = false := by decide
  cases rest with
  | nil =>
    refine ⟨.mul, ['*'], [], ?_, rfl⟩
    simp [scan?, unnamed, mark?]
  | cons c rest =>
    by_cases hc : c = '*'
    · subst hc
      refine ⟨.pow, ['*', '*'], rest, ?_, rfl⟩
      simp [scan?, unnamed, mark?]
    · refine ⟨.mul, ['*'], c :: rest, ?_, rfl⟩
      simp [scan?, unnamed, mark?, hc]

/-- The tokens of a text one after the other, each with what is left after it. -/
inductive Scanned : Nat → List Char → List Lexeme → Prop
  | done {offset : Nat} {text : List Char} (trivia : (splitTrivia text).2 = []) :
    Scanned offset text []
  | token {offset start : Nat} {text front rest : List Char} {t : Token} {later : List Lexeme}
      (start_eq : start = offset + Source.byteSize (splitTrivia text).1)
      (scan : scan? (splitTrivia text).2 = some (t, front, rest))
      (more : Scanned (start + Source.byteSize front) rest later) :
    Scanned offset text (⟨t, ⟨start, start + Source.byteSize front⟩⟩ :: later)

theorem scanned_of_tokensFrom? {offset : Nat} {text : List Char} {ts : List Lexeme}
    (h : tokensFrom? offset text = some ts) : Scanned offset text ts := by
  induction hn : text.length using Nat.strongRecOn generalizing offset text ts with
  | ind n ih =>
    subst hn
    by_cases hs : (splitTrivia text).2 = []
    · rw [tokensFrom?_done hs] at h
      obtain rfl := Option.some.inj h
      exact .done hs
    · cases hscan : scan? (splitTrivia text).2 with
      | none =>
        rw [tokensFrom?_none hs hscan] at h
        contradiction
      | some r =>
        obtain ⟨t, front, rest⟩ := r
        rw [tokensFrom?_of_scan? offset hscan, Option.map_eq_some_iff] at h
        obtain ⟨later, hlater, rfl⟩ := h
        obtain ⟨heq, present⟩ := eq_of_scan? hscan
        have shorter : rest.length < text.length := by
          have hle := length_splitTrivia_le text
          have hpos := List.length_pos_iff.mpr present
          rw [heq, List.length_append] at hle
          omega
        exact .token rfl hscan (ih rest.length shorter hlater rfl)

/-- A token that was read does not go on with what follows it, if more tokens do: a point starts
none, and a slash with a star after it is a comment or has no operand after it. -/
theorem Scanned.clear {offset : Nat} {text front rest : List Char} {t : Token}
    {later : List Lexeme} (more : Scanned offset rest later)
    (h : scan? text = some (t, front, rest)) (uncommented : comment? text = none)
    (chain : (t :: tokensOf later).IsChain Token.Precedes) :
    ∀ c ∈ rest.head?, t.clear c = true := by
  intro c hc
  obtain ⟨after, rfl⟩ := List.head?_eq_some_iff.mp hc
  refine clear_of_scan? h hc ?_ ?_
  · rintro rfl
    cases more with
    | done trivia => simp [splitTrivia_point] at trivia
    | token _ scan =>
      rw [splitTrivia_point, scan?_point] at scan
      contradiction
  · rintro rfl
    obtain ⟨d, tail, rfl, -, slash, isSlash⟩ := (spelled_of_scan? h).start
    obtain rfl := isSlash rfl
    obtain ⟨-, rfl⟩ := slash rfl
    obtain ⟨rfl, -⟩ := eq_of_scan? h
    refine ⟨?_, ?_⟩
    · rintro rfl
      exact absurd uncommented (by simp [comment?])
    · rintro rfl
      cases more with
      | done trivia => simp [splitTrivia_star] at trivia
      | token _ scan =>
        obtain ⟨op, front', after', star, closed⟩ := scan?_star after
        rw [splitTrivia_star, star] at scan
        obtain ⟨rfl, -⟩ := Prod.mk.inj (Option.some.inj scan)
        have opens := (List.isChain_cons.mp chain).1 (.operator op) rfl .div rfl
        rw [closed] at opens
        contradiction

/-- A source whose operators are followed by operands is laid out in its tokens. -/
theorem Scanned.laidOut {offset : Nat} {text : List Char} {ts : List Lexeme}
    (h : Scanned offset text ts) (chain : (tokensOf ts).IsChain Token.Precedes) :
    ∃ pieces, LaidOut text pieces ∧ ts = Piece.lexemesFrom offset pieces := by
  induction h with
  | done trivia => exact ⟨[], .done trivia, rfl⟩
  | @token offset start text front rest t later start_eq scan more ih =>
    obtain ⟨pieces, laid, rfl⟩ := ih chain.tail
    obtain ⟨heq, present⟩ := eq_of_scan? scan
    have visible : (splitTrivia text).2 ≠ [] := by
      rw [heq]
      exact List.append_ne_nil_of_left_ne_nil present rest
    have uncommented : comment? (splitTrivia text).2 = none := by
      obtain ⟨c, tail, hs⟩ := List.exists_cons_of_ne_nil visible
      rw [hs]
      exact (splitTrivia_stops hs).2
    have laid := LaidOut.piece (trivia_of_splitTrivia visible) (spelled_of_scan? scan)
      (more.clear scan uncommented chain) laid
    rw [← heq, splitTrivia_append] at laid
    exact ⟨_, laid, by rw [start_eq]; rfl⟩

theorem Token.Spelled.byteSize {t : Token} {text : List Char} (spelled : t.Spelled text)
    (mark : t = .bang ∨ t = .operator .sub ∨ t = .lparen ∨ t = .rparen) :
    Source.byteSize text = 1 := by
  cases spelled with
  | string => simp at mark
  | number => simp at mark
  | @word c rest =>
    unfold wordToken at mark
    split at mark <;> [skip; split at mark <;> [skip; split at mark]] <;> simp at mark
  | mark marked =>
    unfold mark? at marked
    split at marked <;> first | contradiction | skip
    all_goals
      obtain ⟨rfl, size⟩ := Prod.mk.inj (Option.some.inj marked)
      first
      | simp at mark; done
      | obtain rfl := List.eq_nil_of_length_eq_zero (Nat.succ.inj size).symm
        rfl

theorem Scanned.narrow {offset : Nat} {text : List Char} {ts : List Lexeme}
    (h : Scanned offset text ts) : ∀ t ∈ ts, t.Narrow := by
  induction h with
  | done => simp
  | token start_eq scan _ ih =>
    refine List.forall_mem_cons.mpr ⟨fun mark => ?_, ih⟩
    rw [(spelled_of_scan? scan).byteSize mark]

/-- A source with a tree is laid out in its tokens, and the tree lists them again. -/
theorem laidOut_of_read? {source : List Char} {script : Script} (h : read? source = some script) :
    ∃ pieces, LaidOut source pieces ∧
      Sequence (skipSemicolons (Piece.lexemesFrom 0 pieces)) script.statements := by
  obtain ⟨ts, hts, h⟩ := Option.bind_eq_some_iff.mp h
  obtain ⟨statements, hstatements, rfl⟩ := Option.map_eq_some_iff.mp h
  have scanned := scanned_of_tokensFrom? hts
  obtain ⟨semicolons, hsemicolons, all⟩ := skipSemicolons_append ts
  have sequence := readStatements_sequence (suffix_narrow hsemicolons scanned.narrow) hstatements
  have chain : (tokensOf ts).IsChain Token.Precedes := by
    rw [hsemicolons]
    exact chain_semicolons all sequence.chain
  obtain ⟨pieces, laid, rfl⟩ := scanned.laidOut chain
  exact ⟨pieces, laid, sequence⟩

end Scriptlet.Grammar
