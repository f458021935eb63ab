/-!
# Source text

A source is a list of characters. Offsets count the bytes of its UTF-8 form, so they only ever
point between characters when they are sums of character widths.
-/
namespace Scriptlet.Source

/-- The number of bytes of a text. -/
def byteSize (text : List Char) : Nat := text.foldr (·.utf8Size + ·) 0

@[simp] theorem byteSize_nil : byteSize [] = 0 := rfl

@[simp] theorem byteSize_cons (c : Char) (text : List Char) :
    byteSize (c :: text) = c.utf8Size + byteSize text := rfl

@[simp] theorem byteSize_append (front back : List Char) :
    byteSize (front ++ back) = byteSize front + byteSize back := by
  induction front with
  | nil => simp
  | cons c front ih => simp [ih, Nat.add_assoc]

/-- Splits a text after `offset` bytes: the characters that end by then, and the others. -/
def splitBytes (offset : Nat) : List Char → List Char × List Char
  | [] => ([], [])
  | c :: rest =>
    if c.utf8Size ≤ offset then
      let (front, back) := splitBytes (offset - c.utf8Size) rest
      (c :: front, back)
    else ([], c :: rest)

theorem splitBytes_append (offset : Nat) (text : List Char) :
    (splitBytes offset text).1 ++ (splitBytes offset text).2 = text := by
  induction text generalizing offset with
  | nil => rfl
  | cons c rest ih => by_cases h : c.utf8Size ≤ offset <;> simp [splitBytes, h, ih]

/-- The characters that end at or before the offset. -/
def before (offset : Nat) (text : List Char) : List Char := (splitBytes offset text).1

/-- The offset stands between two characters or at an end. -/
def isBoundary (offset : Nat) (text : List Char) : Bool := byteSize (before offset text) == offset

/-- The characters between two offsets, if both are boundaries in order. -/
def slice? (start stop : Nat) (text : List Char) : Option (List Char) :=
  if isBoundary start text && isBoundary stop text && decide (start ≤ stop) then
    some (before (stop - start) (splitBytes start text).2)
  else none

end Scriptlet.Source
