import Scriptlet.Compile.Program
import Scriptlet.Debug.Session
import Scriptlet.Engine.Error
import Scriptlet.Engine.Options

/-!
# Compiled expressions

A compiled expression is a program with all it takes to run it, any number of times.
-/
namespace Scriptlet

structure CompiledExpression where
  program : Program
  /-- The declared inputs. -/
  inputs : List (String × Ty)
  conversions : ConversionRegistry
  /-- The source after macro expansion. -/
  source : String
  mode : EvaluationMode
  execution : ExecutionOptions

namespace CompiledExpression

/-- The evaluation of the program under a depth limit. -/
def evaluation (e : CompiledExpression) (options : ExecutionOptions) : Evaluation :=
  ⟨e.program.arena, e.conversions, options.maxDepth, e.mode⟩

/-- An execution error as callers see it. -/
def error (e : CompiledExpression) (x : ExecutionError) : EngineError := .ofExecution x e.source

/-- A result as callers see it. -/
def answer (e : CompiledExpression) (r : Except ExecutionError Value) : Except EngineError Value :=
  r.mapError e.error

/-- The value of the program, and the bindings afterwards. -/
def runWith (e : CompiledExpression) (options : ExecutionOptions) (b : Bindings) :
    Except EngineError Value × Bindings :=
  let (result, b) := (e.evaluation options).evalAll e.program.statements b
  (e.answer result, b)

/-- Runs the program with the engine's limits. -/
def run (e : CompiledExpression) (b : Bindings) : Except EngineError Value × Bindings :=
  e.runWith e.execution b

/-- Runs the program with named arguments, each of which must name a declared input. -/
def runArgs (e : CompiledExpression) (args : List (String × Value)) : Except EngineError Value :=
  match args.find? fun (name, _) => !e.inputs.any (·.1 == name) with
  | some (name, _) => .error (.usage ("Unknown input '" ++ name ++ "'"))
  | none => (e.run (.ofList args)).1

/-- A debug session of the program. -/
def debug (e : CompiledExpression) (b : Bindings) : Session :=
  .begin (e.evaluation e.execution) e.program.statements b

/-- Runs the program under a debugger, which has a state of its own. -/
def runDebugged {σ : Type} (e : CompiledExpression) (onBreak : σ → Frame → Directive × σ)
    (breakpoints : Breakpoints) (state : σ) (b : Bindings) :
    Except EngineError Value × Bindings × σ :=
  let (result, b, state) := (e.debug b).runToCompletion onBreak (fun _ => breakpoints) state
  (e.answer result, b, state)

end CompiledExpression

end Scriptlet
