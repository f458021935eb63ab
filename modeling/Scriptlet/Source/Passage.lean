/-!
# Quoted passages and comments

Two readers that several scans of a source share. Each starts after an opening mark, answers
with what stands before the closing mark and what follows it, and has no answer when the closing
mark is missing.
-/
namespace Scriptlet.Source

/-- Reads up to a closing quote. A backslash takes the character after it along. -/
def quoted? (quote : Char) : List Char → Option (List Char × List Char)
  | [] => none
  | '\\' :: c :: rest => (quoted? quote rest).map fun (body, rest) => ('\\' :: c :: body, rest)
  | c :: rest =>
    if c = quote then some ([], rest)
    else (quoted? quote rest).map fun (body, rest) => (c :: body, rest)

/-- Reads up to the end of a block comment. -/
def block? : List Char → Option (List Char × List Char)
  | [] => none
  | '*' :: '/' :: rest => some ([], rest)
  | c :: rest => (block? rest).map fun (body, rest) => (c :: body, rest)

theorem eq_of_quoted? {quote : Char} {text body rest : List Char}
    (h : quoted? quote text = some (body, rest)) : text = body ++ quote :: rest := by
  induction text using quoted?.induct quote generalizing body rest with
  | case1 => simp [quoted?] at h
  | case2 c tail ih =>
    simp only [quoted?, Option.map_eq_some_iff] at h
    obtain ⟨⟨b, r⟩, h, heq⟩ := h
    simp only [Prod.mk.injEq] at heq
    obtain ⟨rfl, rfl⟩ := heq
    simp [ih h]
  | case3 tail hne =>
    rw [quoted?.eq_3 _ _ _ hne] at h
    simp at h
    obtain ⟨rfl, rfl⟩ := h
    rfl
  | case4 c tail hne hc ih =>
    rw [quoted?.eq_3 _ _ _ hne, if_neg hc] at h
    simp only [Option.map_eq_some_iff] at h
    obtain ⟨⟨b, r⟩, h, heq⟩ := h
    simp only [Prod.mk.injEq] at heq
    obtain ⟨rfl, rfl⟩ := heq
    simp [ih h]

theorem eq_of_block? {text body rest : List Char} (h : block? text = some (body, rest)) :
    text = body ++ '*' :: '/' :: rest := by
  induction text using block?.induct generalizing body rest with
  | case1 => simp [block?] at h
  | case2 tail =>
    simp only [block?, Option.some.injEq, Prod.mk.injEq] at h
    obtain ⟨rfl, rfl⟩ := h
    rfl
  | case3 c tail hne ih =>
    rw [block?.eq_3 _ _ hne] at h
    simp only [Option.map_eq_some_iff] at h
    obtain ⟨⟨b, r⟩, h, heq⟩ := h
    simp only [Prod.mk.injEq] at heq
    obtain ⟨rfl, rfl⟩ := heq
    simp [ih h]

end Scriptlet.Source
