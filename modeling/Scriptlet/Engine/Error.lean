import Scriptlet.Compile.Error
import Scriptlet.Eval.Error

/-!
# Engine errors

The errors that the engine's callers see, with the source that their diagnostics point into.
-/
namespace Scriptlet

inductive EngineError where
  /-- The engine was used in a wrong way. -/
  | usage (message : String)
  | compilation (diagnostics : List Diagnostic) (source : String)
  | runtime (d : Diagnostic) (source : String)
  | resourceExceeded (message : String)
  deriving DecidableEq, Repr

namespace EngineError

def ofCompile (e : CompileError) (source : String) : EngineError :=
  .compilation [e.diagnostic] source

/-- An evaluation that went too deep exceeded a resource; it is not a fault of the source. -/
def ofExecution (e : ExecutionError) (source : String) : EngineError :=
  if e.isTooDeep then .resourceExceeded e.kind.message else .runtime e.diagnostic source

def diagnostics : EngineError → List Diagnostic
  | .compilation ds _ => ds
  | .runtime d _ => [d]
  | .usage _ | .resourceExceeded _ => []

/-- The source that the diagnostics point into. -/
def source? : EngineError → Option String
  | .compilation _ source | .runtime _ source => some source
  | .usage _ | .resourceExceeded _ => none

/-- The code of the first diagnostic. -/
def code? (e : EngineError) : Option String := e.diagnostics.head?.bind (·.code)

def errorCount (ds : List Diagnostic) : Nat := (ds.filter (·.severity == .error)).length

def display : EngineError → String
  | .usage message => "API error: " ++ message
  | .compilation ds _ =>
    "Compilation failed with " ++ String.ofList (Nat.toDigits 10 (errorCount ds)) ++ " error(s)" ++
      match ds with
      | d :: _ => ": " ++ d.message
      | [] => ""
  | .runtime d _ => "Runtime error: " ++ d.message
  | .resourceExceeded message => "Resource limit exceeded: " ++ message

end EngineError

end Scriptlet
