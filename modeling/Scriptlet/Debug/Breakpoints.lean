/-!
# Breakpoints

The registered lines of named sources. A table keeps the lines of each source in ascending order;
a source has an entry as long as it has a registered line.
-/
namespace Scriptlet

/-- Lines in ascending order, each once. -/
structure LineSet where
  toList : List Nat
  ascending : toList.Pairwise (· < ·)
  deriving DecidableEq, Repr

namespace LineSet

def empty : LineSet := ⟨[], .nil⟩

def isEmpty (s : LineSet) : Bool := s.toList.isEmpty

def contains (s : LineSet) (line : Nat) : Bool := s.toList.contains line

/-- Puts a line in front of the greater ones, unless it is there. -/
def place (line : Nat) : List Nat → List Nat
  | [] => [line]
  | l :: rest =>
    if line < l then line :: l :: rest
    else if line = l then l :: rest
    else l :: place line rest

theorem mem_place {line : Nat} {lines : List Nat} {k : Nat} :
    k ∈ place line lines ↔ k = line ∨ k ∈ lines := by
  induction lines with
  | nil => simp [place]
  | cons l rest ih =>
    rw [place]
    split
    · simp
    · split
      · rename_i same
        simp [same]
      · simp only [List.mem_cons, ih]
        exact or_left_comm

theorem place_ascending (line : Nat) {lines : List Nat} (h : lines.Pairwise (· < ·)) :
    (place line lines).Pairwise (· < ·) := by
  induction lines with
  | nil => exact List.pairwise_singleton _ _
  | cons l rest ih =>
    obtain ⟨above, ascending⟩ := List.pairwise_cons.mp h
    rw [place]
    split
    · rename_i below
      refine List.pairwise_cons.mpr ⟨fun k hk => ?_, h⟩
      rcases List.mem_cons.mp hk with rfl | hk
      · exact below
      · exact Nat.lt_trans below (above k hk)
    · split
      · exact h
      · refine List.pairwise_cons.mpr ⟨fun k hk => ?_, ih ascending⟩
        rcases mem_place.mp hk with rfl | hk
        · omega
        · exact above k hk

/-- Adds a line; tells whether it was absent. -/
def insert (s : LineSet) (line : Nat) : Bool × LineSet :=
  (!s.contains line, ⟨place line s.toList, place_ascending line s.ascending⟩)

/-- Removes a line; tells whether it was present. -/
def remove (s : LineSet) (line : Nat) : Bool × LineSet :=
  (s.contains line, ⟨s.toList.filter (· != line), s.ascending.filter _⟩)

theorem isEmpty_insert (s : LineSet) (line : Nat) : (s.insert line).2.isEmpty = false := by
  have placed : line ∈ (s.insert line).2.toList := mem_place.mpr (.inl rfl)
  rw [isEmpty, List.isEmpty_eq_false_iff_exists_mem]
  exact ⟨line, placed⟩

end LineSet

/-- The lines of each source that has any. -/
structure Breakpoints where
  entries : List (String × LineSet)
  distinct : (entries.map (·.1)).Nodup
  occupied : ∀ e ∈ entries, e.2.isEmpty = false
  deriving DecidableEq, Repr

namespace Breakpoints

def empty : Breakpoints := ⟨[], .nil, by simp⟩

instance : Inhabited Breakpoints := ⟨empty⟩

def isEmpty (b : Breakpoints) : Bool := b.entries.isEmpty

/-- The entry of a source. -/
def lineSet? (b : Breakpoints) (source : String) : Option LineSet := b.entries.lookup source

def isRegistered (b : Breakpoints) (source : String) (line : Nat) : Bool :=
  (b.lineSet? source).any (·.contains line)

/-- Removes the lines of one source. -/
def clearSource (b : Breakpoints) (source : String) : Breakpoints where
  entries := b.entries.filter (·.1 != source)
  distinct := b.distinct.sublist (List.filter_sublist.map _)
  occupied e he := b.occupied e (List.mem_filter.mp he).1

/-- Gives a source its lines, in place of those that it had. -/
def put (b : Breakpoints) (source : String) (s : LineSet) (h : s.isEmpty = false) :
    Breakpoints where
  entries := (source, s) :: (b.clearSource source).entries
  distinct := by
    refine List.nodup_cons.mpr ⟨fun hmem => ?_, (b.clearSource source).distinct⟩
    obtain ⟨e, he, same⟩ := List.mem_map.mp hmem
    have other := (List.mem_filter.mp he).2
    simp [same] at other
  occupied := List.forall_mem_cons.mpr ⟨h, (b.clearSource source).occupied⟩

/-- Adds a line; tells whether it was absent. -/
def register (b : Breakpoints) (source : String) (line : Nat) : Bool × Breakpoints :=
  let lines := (b.lineSet? source).getD .empty
  ((lines.insert line).1, b.put source (lines.insert line).2 (lines.isEmpty_insert line))

/-- Removes a line; tells whether it was present. The entry goes with the last line. -/
def clear (b : Breakpoints) (source : String) (line : Nat) : Bool × Breakpoints :=
  match b.lineSet? source with
  | none => (false, b)
  | some lines =>
    ((lines.remove line).1,
      if h : (lines.remove line).2.isEmpty then b.clearSource source
      else b.put source (lines.remove line).2 (eq_false_of_ne_true h))

/-- The lines of a source in ascending order. -/
def lines (b : Breakpoints) (source : String) : List Nat :=
  ((b.lineSet? source).getD .empty).toList

/-! ## The lines after an edit -/

variable (b : Breakpoints) (source other : String) (line : Nat)

theorem lookup_filter (entries : List (String × LineSet)) :
    (entries.filter (·.1 != source)).lookup other =
      if other = source then none else entries.lookup other := by
  induction entries with
  | nil => grind
  | cons entry rest ih => grind

theorem lineSet?_clearSource :
    (b.clearSource source).lineSet? other = if other = source then none else b.lineSet? other :=
  lookup_filter source other b.entries

theorem lineSet?_put {s : LineSet} (h : s.isEmpty = false) :
    (b.put source s h).lineSet? other = if other = source then some s else b.lineSet? other := by
  have rest := b.lineSet?_clearSource source other
  grind [put, lineSet?]

@[simp] theorem lines_empty : empty.lines source = [] := rfl

theorem isRegistered_eq : b.isRegistered source line = (b.lines source).contains line := by
  rw [isRegistered, lines]
  cases b.lineSet? source <;> rfl

theorem lines_ascending : (b.lines source).Pairwise (· < ·) := LineSet.ascending _

theorem register_fst : (b.register source line).1 = !b.isRegistered source line := by
  rw [isRegistered_eq]
  rfl

theorem clear_fst : (b.clear source line).1 = b.isRegistered source line := by
  rw [clear, isRegistered]
  cases b.lineSet? source <;> rfl

theorem lines_clearSource :
    (b.clearSource source).lines other = if other = source then [] else b.lines other := by
  rw [lines, lineSet?_clearSource]
  split <;> rfl

theorem lines_put {s : LineSet} (h : s.isEmpty = false) :
    (b.put source s h).lines other = if other = source then s.toList else b.lines other := by
  rw [lines, lineSet?_put]
  split <;> rfl

theorem lines_register :
    (b.register source line).2.lines other =
      if other = source then LineSet.place line (b.lines source) else b.lines other :=
  b.lines_put source other (LineSet.isEmpty_insert _ line)

theorem lines_clear :
    (b.clear source line).2.lines other =
      if other = source then (b.lines source).filter (· != line) else b.lines other := by
  rw [clear]
  cases found : b.lineSet? source with
  | none =>
    have absent : b.lines source = [] := by rw [lines, found]; rfl
    by_cases same : other = source <;> simp [same, absent]
  | some s =>
    have present : b.lines source = s.toList := by rw [lines, found]; rfl
    rw [present]
    dsimp only
    split
    · rename_i last
      have nothing : s.toList.filter (· != line) = [] := List.isEmpty_iff.mp last
      rw [lines_clearSource, nothing]
    · exact lines_put ..

/-- No entry is left without lines, so a table without entries is one without lines. -/
theorem isEmpty_iff : b.isEmpty = true ↔ ∀ source, b.lines source = [] := by
  obtain ⟨entries, distinct, occupied⟩ := b
  cases entries with
  | nil => exact iff_of_true rfl fun _ => rfl
  | cons e rest =>
    refine iff_of_false (by simp [isEmpty]) fun nothing => ?_
    have first : e.2.toList = [] := by
      have := nothing e.1
      grind [lines, lineSet?]
    have present := occupied e (List.mem_cons_self ..)
    simp [LineSet.isEmpty, first] at present

end Breakpoints

end Scriptlet
