/-!
# Host classes

A class is a name with the names of its ancestors. A `ClassTable` holds one class for each name:
the first declaration stays.
-/
namespace Scriptlet

/-- A reference type declared by the host. -/
structure ClassType where
  name : String
  /-- The names of the ancestors, the parent first. -/
  ancestors : List String
  deriving DecidableEq, Repr

namespace ClassType

/-- The class and its ancestors, by name. -/
def lineage (c : ClassType) : List String := c.name :: c.ancestors

/-- The class is the other one or an ancestor of it. -/
def isAncestorOf (c other : ClassType) : Bool := other.lineage.contains c.name

/-- The name of the parent. -/
def parentName? (c : ClassType) : Option String := c.ancestors.head?

/-- A new class below a parent. -/
def below (name : String) (parent : Option ClassType) : ClassType :=
  ⟨name, (parent.map lineage).getD []⟩

theorem isAncestorOf_refl (c : ClassType) : c.isAncestorOf c = true := by
  simp [isAncestorOf, lineage]

end ClassType

/-- The declared classes, in order of declaration. -/
structure ClassTable where
  classes : List ClassType
  deriving Inhabited

namespace ClassTable

def empty : ClassTable := ⟨[]⟩

/-- The class of a name. -/
def find? (table : ClassTable) (name : String) : Option ClassType :=
  table.classes.find? (·.name == name)

/-- Declares a class. A name that is declared already keeps its class. -/
def declare (table : ClassTable) (name : String) (parent : Option ClassType) :
    ClassType × ClassTable :=
  match table.find? name with
  | some c => (c, table)
  | none =>
    let c := ClassType.below name parent
    (c, ⟨table.classes ++ [c]⟩)

theorem find?_declare_self (table : ClassTable) (name : String) (parent : Option ClassType) :
    (table.declare name parent).2.find? name = some (table.declare name parent).1 := by
  unfold declare
  cases h : table.find? name with
  | some c => simpa using h
  | none =>
    simp only [find?] at h ⊢
    simp [List.find?_append, h, ClassType.below]

end ClassTable

end Scriptlet
