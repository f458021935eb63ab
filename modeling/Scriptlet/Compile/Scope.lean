import Scriptlet.Kind.Ty

/-!
# Scopes

The names that a statement can use: declared inputs and the variables assigned before it.
-/
namespace Scriptlet

/-- Names with their types; the last declaration of a name counts. -/
structure Scope where
  names : List (String × Ty)
  deriving Inhabited

namespace Scope

def empty : Scope := ⟨[]⟩

/-- Declares a name, in place of any earlier declaration. -/
def declare (s : Scope) (name : String) (ty : Ty) : Scope := ⟨(name, ty) :: s.names⟩

/-- The type of a name. -/
def lookup? (s : Scope) (name : String) : Option Ty := s.names.lookup name

/-- The scope of declared inputs. -/
def ofInputs (inputs : List (String × Ty)) : Scope :=
  inputs.foldl (fun s (name, ty) => s.declare name ty) empty

end Scope

end Scriptlet
