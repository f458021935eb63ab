import Scriptlet.Engine.Basic
import Scriptlet.Proofs.Compile.Faults
import Scriptlet.Proofs.Debug.Sites

/-!
# Places of diagnostics

A diagnostic that a caller of the engine sees points at slices of the source that its error
carries, whether that source does not compile or a run of it fails.
-/
namespace Scriptlet

/-- The span of a diagnostic and those related to it are slices of the text. -/
structure Diagnostic.Placed (text : List Char) (d : Diagnostic) : Prop where
  span : d.span.ValidIn text
  related : ∀ r ∈ d.related, r.span.ValidIn text

variable {text : List Char}

/-! ## Compilation -/

/-- Without a span, a diagnostic is at the start of the text. -/
theorem Span.validIn_getD {span : Option Span} (h : ∀ s, span = some s → s.ValidIn text) :
    (span.getD .origin).ValidIn text := by
  cases span with
  | none => exact validIn_origin text
  | some s => exact h s rfl

theorem BuildError.placed {e : BuildError} (h : ∀ s, e.span? = some s → s.ValidIn text) :
    e.diagnostic.Placed text := by
  refine ⟨Span.validIn_getD h, fun r hr => ?_⟩
  change r ∈ e.related at hr
  unfold related at hr
  split at hr
  · obtain rfl := List.mem_singleton.mp hr
    exact h _ rfl
  · contradiction

theorem CompileError.Fault.placed {ctx : BuildContext} {e : CompileError} (h : e.Fault ctx) :
    e.diagnostic.Placed ctx.source := by
  cases h with
  | text external valid =>
    exact ⟨valid, by simp [diagnostic, ParseError.diagnostic, Diagnostic.plain]⟩
  | typing strong external valid => exact BuildError.placed valid

/-! ## Runs -/

theorem ExecutionError.Sited.placed {a : Arena} {e : ExecutionError} (h : e.Sited a)
    (shaped : a.Shaped text) : e.diagnostic.Placed text := by
  obtain ⟨id, span⟩ := h
  refine ⟨Span.validIn_getD fun s hs => ?_, by simp [diagnostic, Diagnostic.plain]⟩
  exact (shaped.solid (span.symm.trans hs)).valid

/-! ## Errors of the engine -/

/-- The error carries the source that its diagnostics point into. -/
def EngineError.PlacedIn (source : String) (e : EngineError) : Prop :=
  ∀ d ∈ e.diagnostics, e.source? = some source ∧ d.Placed source.toList

theorem EngineError.placedIn_ofCompile {source : String} {e : CompileError}
    (h : e.diagnostic.Placed source.toList) : (ofCompile e source).PlacedIn source := by
  intro d hd
  obtain rfl := List.mem_singleton.mp hd
  exact ⟨rfl, h⟩

theorem EngineError.placedIn_ofExecution {source : String} {e : ExecutionError}
    (h : e.diagnostic.Placed source.toList) : (ofExecution e source).PlacedIn source := by
  unfold ofExecution
  split
  · simp [PlacedIn, diagnostics]
  · intro d hd
    obtain rfl := List.mem_singleton.mp hd
    exact ⟨rfl, h⟩

namespace CompiledExpression

variable {expr : CompiledExpression} (wellFormed : expr.program.WellFormed expr.source.toList)

include wellFormed

theorem placedIn_error {x : ExecutionError} (h : x.Sited expr.program.arena) :
    (expr.error x).PlacedIn expr.source :=
  EngineError.placedIn_ofExecution (h.placed wellFormed.shaped)

theorem placedIn_answer {r : Except ExecutionError Value} {e : EngineError}
    (sited : ∀ x, r = .error x → x.Sited expr.program.arena) (h : expr.answer r = .error e) :
    e.PlacedIn expr.source := by
  cases r with
  | ok v => contradiction
  | error x =>
    obtain rfl := Except.error.inj h
    exact placedIn_error wellFormed (sited x rfl)

theorem placedIn_runWith {limits : ExecutionOptions} {b : Bindings} {e : EngineError}
    (h : (expr.runWith limits b).1 = .error e) : e.PlacedIn expr.source :=
  placedIn_answer wellFormed (fun _ failed => Evaluation.sited_of_evalFrom failed) h

theorem placedIn_runArgs {args : List (String × Value)} {e : EngineError}
    (h : expr.runArgs args = .error e) : e.PlacedIn expr.source := by
  unfold runArgs at h
  split at h
  · obtain rfl := Except.error.inj h
    simp [EngineError.PlacedIn, EngineError.diagnostics]
  · exact placedIn_runWith wellFormed h

theorem placedIn_runDebugged {σ : Type} {onBreak : σ → Frame → Directive × σ}
    {breakpoints : Breakpoints} {state : σ} {b : Bindings} {e : EngineError}
    (h : (expr.runDebugged onBreak breakpoints state b).1 = .error e) : e.PlacedIn expr.source :=
  placedIn_answer wellFormed (fun _ failed => Session.sited_of_runFrom failed) h

end CompiledExpression

namespace Engine

variable (engine : Engine) (options : CompilationOptions) (source : String)
  (inputs : List (String × Ty))

/-- A compiled expression has a well-formed program of the expanded source. -/
theorem wellFormed_of_compileWith {expr : CompiledExpression}
    (h : engine.compileWith options source inputs = .ok expr) :
    expr.source = engine.macros.expand source ∧
      expr.program.WellFormed expr.source.toList := by
  simp only [compileWith] at h
  split at h
  · rename_i compiled
    obtain rfl := Except.ok.inj h
    exact ⟨rfl, wellFormed_of_compile compiled⟩
  · contradiction

theorem diagnostics_placed :
    (∀ e, engine.compileWith options source inputs = .error e →
      e.PlacedIn (engine.macros.expand source)) ∧
    ∀ expr, engine.compileWith options source inputs = .ok expr →
      (∀ limits b e, (expr.runWith limits b).1 = .error e →
        e.PlacedIn (engine.macros.expand source)) ∧
      (∀ args e, expr.runArgs args = .error e → e.PlacedIn (engine.macros.expand source)) ∧
      (∀ b calls n x, (expr.debug b).answerAt calls n = .failed x →
        (expr.error x).PlacedIn (engine.macros.expand source)) ∧
      ∀ (σ : Type) (onBreak : σ → Frame → Directive × σ) breakpoints state b e,
        (expr.runDebugged onBreak breakpoints state b).1 = .error e →
          e.PlacedIn (engine.macros.expand source) := by
  constructor
  · intro e h
    simp only [compileWith] at h
    split at h
    · contradiction
    · rename_i failed
      obtain rfl := Except.error.inj h
      exact EngineError.placedIn_ofCompile (fault_of_compile failed).placed
  · intro expr h
    obtain ⟨expanded, wellFormed⟩ := wellFormed_of_compileWith engine options source inputs h
    rw [← expanded]
    refine ⟨?_, ?_, ?_, ?_⟩
    · intro limits b e failed
      exact CompiledExpression.placedIn_runWith wellFormed failed
    · intro args e failed
      exact CompiledExpression.placedIn_runArgs wellFormed failed
    · intro b calls n x failed
      exact CompiledExpression.placedIn_error wellFormed (Session.sited_of_answerAt failed)
    · intro σ onBreak breakpoints state b e failed
      exact CompiledExpression.placedIn_runDebugged wellFormed failed

/-- An engine with one macro and the empty registry. -/
def withMacro (name text : String) : Engine where
  conversions := .empty
  equality := .rejectAll
  macros := MacroTable.empty.define name text
  compilation := {}
  execution := {}

/-- The spans of the diagnostics of an answer. -/
def spansOf {α : Type} : Except EngineError α → List Span
  | .error e => e.diagnostics.map (·.span)
  | .ok _ => []

theorem error_of_spansOf {α : Type} {r : Except EngineError α} {spans : List Span}
    (h : spansOf r = spans) (some : spans ≠ []) :
    ∃ e, r = .error e ∧ e.diagnostics.map (·.span) = spans := by
  cases r with
  | ok v => exact absurd h.symm some
  | error e => exact ⟨e, rfl, h⟩

/-- The macro is longer than its name, and stands after a character of two bytes. -/
theorem diagnostics_placed_macro :
    (∃ e, (withMacro "rate" "x / 0").compileWith {} "'é' + rate + " [] = .error e ∧
      e.diagnostics.map (·.span) = [⟨15, 15⟩] ∧ e.PlacedIn "'é' + x / 0 + ") ∧
    ∃ expr e, (withMacro "rate" "x / 0").compileWith {} "'é' + rate" [] = .ok expr ∧
      (expr.runWith {} (.ofList [("x", .int 1)])).1 = .error e ∧
      e.diagnostics.map (·.span) = [⟨7, 12⟩] ∧ e.PlacedIn "'é' + x / 0" := by
  have unread : spansOf ((withMacro "rate" "x / 0").compileWith {} "'é' + rate + " []) =
      [⟨15, 15⟩] := by
    decide +kernel
  have fails : ((withMacro "rate" "x / 0").compileWith {} "'é' + rate" []).map
      (fun expr => spansOf (expr.runWith {} (.ofList [("x", .int 1)])).1) = .ok [⟨7, 12⟩] := by
    decide +kernel
  have expanded : (withMacro "rate" "x / 0").macros.expand "'é' + rate + " =
      "'é' + x / 0 + " := by
    decide +kernel
  have expanded' : (withMacro "rate" "x / 0").macros.expand "'é' + rate" = "'é' + x / 0" := by
    decide +kernel
  constructor
  · obtain ⟨e, failed, spans⟩ := error_of_spansOf unread (by simp)
    have placed := (diagnostics_placed (withMacro "rate" "x / 0") {} "'é' + rate + " []).1 e failed
    exact ⟨e, failed, spans, expanded ▸ placed⟩
  · obtain ⟨expr, compiled, spans⟩ := Kernel.map_eq_ok fails
    obtain ⟨e, failed, spans⟩ := error_of_spansOf spans (by simp)
    obtain ⟨run, -⟩ :=
      (diagnostics_placed (withMacro "rate" "x / 0") {} "'é' + rate" []).2 expr compiled
    exact ⟨expr, e, compiled, failed, spans, expanded' ▸ run _ _ e failed⟩

end Engine

end Scriptlet
