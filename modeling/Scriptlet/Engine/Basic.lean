import Scriptlet.Engine.Expression
import Scriptlet.Macro

/-!
# The engine

An engine holds the services that the expressions it compiles share: conversions, equality
rules and macros.
-/
namespace Scriptlet

structure Engine where
  conversions : ConversionRegistry
  equality : EqualityStrategy
  macros : MacroTable
  compilation : CompilationOptions
  execution : ExecutionOptions

namespace Engine

/-- Compiles a source with declared inputs, after macro expansion. -/
def compileWith (engine : Engine) (options : CompilationOptions) (source : String)
    (inputs : List (String × Ty)) : Except EngineError CompiledExpression :=
  let expanded := engine.macros.expand source
  let ctx : BuildContext :=
    ⟨options.strongTyping, engine.conversions, engine.equality, expanded.toList,
      options.sourceFile⟩
  match Scriptlet.compile ctx inputs options.debugSymbols options.maxDepth with
  | .ok program =>
    .ok ⟨program, inputs, engine.conversions, expanded, options.mode, engine.execution⟩
  | .error e => .error (.ofCompile e expanded)

/-- Compiles with the engine's options. -/
def compile (engine : Engine) (source : String) (inputs : List (String × Ty)) :
    Except EngineError CompiledExpression :=
  engine.compileWith engine.compilation source inputs

end Engine

end Scriptlet
