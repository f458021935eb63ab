import Scriptlet.Value.Basic

/-!
# Bindings

The values of names during an evaluation. A name has one value; names keep the order in which
they were first bound.
-/
namespace Scriptlet

/-- Names with their values, each name once. -/
structure Bindings where
  entries : List (String × Value)
  deriving Inhabited

namespace Bindings

def empty : Bindings := ⟨[]⟩

def isEmpty (b : Bindings) : Bool := b.entries.isEmpty

/-- The number of bound names. -/
def size (b : Bindings) : Nat := b.entries.length

/-- The value of a name. -/
def get? (b : Bindings) (name : String) : Option Value := b.entries.lookup name

/-- The entries with a name bound anew. -/
def setIn (name : String) (value : Value) : List (String × Value) → List (String × Value)
  | [] => [(name, value)]
  | (n, v) :: rest => if n = name then (n, value) :: rest else (n, v) :: setIn name value rest

/-- Binds a name, in place of what it was bound to. -/
def set (b : Bindings) (name : String) (value : Value) : Bindings := ⟨setIn name value b.entries⟩

/-- Binds names in order. -/
def ofList (pairs : List (String × Value)) : Bindings :=
  pairs.foldl (fun b (name, value) => b.set name value) empty

theorem lookup_setIn (entries : List (String × Value)) (name other : String) (value : Value) :
    (setIn name value entries).lookup other =
      if other = name then some value else entries.lookup other := by
  induction entries with
  | nil => grind [setIn]
  | cons entry rest ih => grind [setIn]

/-- A name reads as what it was last bound to; other names are unchanged. -/
theorem get?_set (b : Bindings) (name other : String) (value : Value) :
    (b.set name value).get? other = if other = name then some value else b.get? other :=
  lookup_setIn b.entries name other value

end Bindings

end Scriptlet
