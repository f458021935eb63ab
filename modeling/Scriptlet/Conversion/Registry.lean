import Scriptlet.Conversion.Builtin

/-!
# The conversion registry

Whether a value of one type can become a value of another, and what it becomes. The rules
between built-in types are fixed; those into a host class are given by a handler for its name.
-/
namespace Scriptlet

/-- Conversion into a host class. -/
structure ConversionHandler where
  /-- The types it takes values of. -/
  accepts : Ty → Bool
  convert : Value → Ty → Conversion.Result

/-- Handlers by class name; the last one given for a name counts. -/
structure ConversionRegistry where
  handlers : List (String × ConversionHandler)
  deriving Inhabited

namespace ConversionRegistry

def empty : ConversionRegistry := ⟨[]⟩

/-- Gives the class of that name a handler. -/
def register (r : ConversionRegistry) (name : String) (handler : ConversionHandler) :
    ConversionRegistry :=
  ⟨(name, handler) :: r.handlers⟩

/-- The handler of a class. -/
def handler? (r : ConversionRegistry) (name : String) : Option ConversionHandler :=
  r.handlers.lookup name

/-- Values of the source type can be given to the class's handler. -/
def handles (r : ConversionRegistry) (c : ClassType) (source : Ty) : Bool :=
  (r.handler? c.name).any (·.accepts source)

/-- The rules into a primitive or boxed kind or a big number. -/
def acceptsBuiltin (target source : Ty) : Bool :=
  if target.isNumber then source.isNumber || source == .string || source.isChar
  else if target.isBoolean then source.isBoolean || source == .string
  else if target.isChar then source.isChar || source == .string || source.isIntegral
  else false

/-- Whether a value of type `source` can become one of type `target`. From the universal type
the answer is yes; each value decides for itself. -/
def canConvert (r : ConversionRegistry) (target source : Ty) : Bool :=
  target.assignableFrom source ||
    match target, source with
    | _, .any => true
    | .any, _ | .string, _ => true
    | t, .null => !t.isPrimitive
    | .hostClass c, s => r.handles c s
    | t, s => acceptsBuiltin t s

/-- An object of the class, or of a class below it. -/
def isInstance (c : ClassType) : Value → Bool
  | .object o => c.isAncestorOf o.hostClass
  | _ => false

/-- The value as an instance of a host class. -/
def toHostClass (r : ConversionRegistry) (v : Value) (c : ClassType) : Conversion.Result :=
  if isInstance c v then .ok v
  else
    match r.handler? c.name with
    | some handler =>
      if handler.accepts v.ty then handler.convert v (.hostClass c)
      else .error (Conversion.unsupported v (.hostClass c))
    | none => .error (Conversion.unsupported v (.hostClass c))

/-- The value as a value of type `target`. Null stays null, except for a primitive type. -/
def convert (r : ConversionRegistry) (v : Value) (target : Ty) : Conversion.Result :=
  if v.isNull then
    if target.isPrimitive then .error (Conversion.unsupported v target) else .ok .null
  else
    match target with
    | .any => .ok v
    | .string => .ok (.string v.display)
    | .primitive p | .boxed p => Conversion.toPrimitive v p target
    | .bigInteger => Conversion.toBigInteger v target
    | .bigDecimal => Conversion.toBigDecimal v target
    | .null => .error (Conversion.unsupported v target)
    | .hostClass c => r.toHostClass v c

theorem convert_null (r : ConversionRegistry) (target : Ty) (h : target.isPrimitive = false) :
    r.convert .null target = .ok .null := by
  simp [convert, Value.isNull, h]

theorem canConvert_refl (r : ConversionRegistry) (t : Ty) : r.canConvert t t = true := by
  simp [canConvert, Ty.assignableFrom_refl]

end ConversionRegistry

end Scriptlet
