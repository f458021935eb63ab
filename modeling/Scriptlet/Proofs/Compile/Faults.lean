import Scriptlet.Proofs.Compile.Part
import Scriptlet.Proofs.Compile.Shape
import Scriptlet.Proofs.Compile.Strong
import Scriptlet.Proofs.Grammar.Places

/-!
# Errors of compilation

A source fails to compile for what is wrong with it, at a slice of it. The errors that stand for
defects of the compiler itself, on parts that the grammar never finds and operations without
operands, are never seen. Without strong typing there is nothing that can be wrong but the text.
-/
namespace Scriptlet

/-- The errors that tell of a defect of the compiler. -/
def CompileError.isInternal : CompileError → Bool
  | .parse ⟨.other _, _⟩ => true
  | .build (.missingOperand ..) | .build (.notBinary _) => true
  | _ => false

/-- An error of a source, which is one of its text unless typing is strong. -/
structure CompileError.Proper (e : CompileError) (ctx : BuildContext) : Prop where
  external : e.isInternal = false
  loose : ctx.strongTyping = false → ∃ pe, e = .parse pe

/-- What is wrong at a slice of the source: its text or, under strong typing, its types. -/
inductive CompileError.Fault (ctx : BuildContext) : CompileError → Prop
  | text {pe : ParseError} (external : (CompileError.parse pe).isInternal = false)
      (valid : pe.span.ValidIn ctx.source) : Fault ctx (.parse pe)
  | typing {be : BuildError} (strong : ctx.strongTyping = true)
      (external : (CompileError.build be).isInternal = false)
      (valid : ∀ span, be.span? = some span → span.ValidIn ctx.source) : Fault ctx (.build be)

theorem CompileError.Fault.proper {ctx : BuildContext} {e : CompileError} (h : e.Fault ctx) :
    e.Proper ctx := by
  cases h with
  | text external => exact ⟨external, fun _ => ⟨_, rfl⟩⟩
  | typing strong external =>
    refine ⟨external, fun loose => ?_⟩
    rw [strong] at loose
    contradiction

namespace Compile

open Arena

variable {ctx : BuildContext} {scope : Scope} {a : Arena} {e : CompileError}

theorem bind_eq_error {ε α β : Type} {x : Except ε α} {f : α → Except ε β} {e : ε}
    (h : (x >>= f) = .error e) : x = .error e ∨ ∃ v, x = .ok v ∧ f v = .error e := by
  cases x with
  | error e' =>
    obtain rfl := Except.error.inj h
    exact .inl rfl
  | ok v => exact .inr ⟨v, rfl, h⟩

theorem fault_of_parse {limit : Nat} {pe : ParseError}
    (h : Grammar.parse limit ctx.source = .error pe) : (CompileError.parse pe).Fault ctx := by
  refine .text ?_ (Grammar.validIn_of_parse h)
  unfold Grammar.parse at h
  split at h
  · obtain rfl := Except.error.inj h
    rfl
  · split at h
    · contradiction
    · obtain rfl := Except.error.inj h
      rfl

theorem fault_of_leaf {l : Grammar.Leaf} {span : Span} (valid : span.ValidIn ctx.source)
    (h : compileLeaf ctx scope a span l = .error e) : e.Fault ctx := by
  cases l with
  | null | boolean => contradiction
  | number text =>
    simp only [compileLeaf, compileNumber] at h
    split at h
    · contradiction
    · obtain rfl := Except.error.inj h
      exact .text rfl valid
  | string quote body =>
    simp only [compileLeaf, compileString] at h
    split at h
    · contradiction
    · obtain rfl := Except.error.inj h
      exact .text rfl valid
  | ident name =>
    simp only [compileLeaf, compileName] at h
    split at h
    · contradiction
    · split at h
      · rename_i strong
        obtain rfl := Except.error.inj h
        exact .typing strong rfl fun s hs => Option.some.inj hs ▸ valid
      · contradiction

theorem fault_of_unary {op : UnaryOp} {operand : NodeId} {span : Span}
    (valid : span.ValidIn ctx.source) (h : compileUnary ctx a op operand span = .error e) :
    e.Fault ctx := by
  unfold compileUnary at h
  simp only at h
  split at h
  · contradiction
  · split at h
    · rename_i refused
      simp only [Bool.and_eq_true] at refused
      obtain rfl := Except.error.inj h
      exact .typing refused.1 rfl fun s hs => Option.some.inj hs ▸ valid
    · contradiction

/-- Operands that do not fit together are an error at the first one that has a span. -/
theorem span?_incompatible {op : Operator} {l r : NodeId} {leftTy rightTy : Ty} :
    (a.incompatible ctx op l r leftTy rightTy).span? = (a.span? l).or (a.span? r) := by
  simp [incompatible, BuildError.span?, Function.comp_def]

/-- Where both operands are nodes, only strong typing refuses an operation, at one of them. -/
theorem fault_of_binary {op : Operator} {l r : NodeId} {be : BuildError}
    (ha : a.Shaped ctx.source) (hl : l.index < a.size) (hr : r.index < a.size)
    (h : a.buildBinary ctx op l r = .error be) : (CompileError.build be).Fault ctx := by
  obtain ⟨nl, hnl⟩ := node?_isSome hl
  obtain ⟨nr, hnr⟩ := node?_isSome hr
  simp only [buildBinary, hnl, hnr, Option.isNone_some, Bool.false_eq_true, if_false,
    joinBinary] at h
  split at h
  · contradiction
  · split at h
    · rename_i strong
      split at h
      · contradiction
      · split at h
        · contradiction
        · rename_i e' failed
          obtain rfl := Except.error.inj h
          unfold convertLiteral at failed
          split at failed
          · split at failed
            · contradiction
            · obtain rfl := Except.error.inj failed
              exact .typing strong rfl fun s hs => (ha.solid hs).valid
          · contradiction
      · obtain rfl := Except.error.inj h
        refine .typing strong rfl fun s hs => ?_
        rw [span?_incompatible] at hs
        rcases Option.or_eq_some_iff.mp hs with hs | ⟨-, hs⟩
        · exact (ha.solid hs).valid
        · exact (ha.solid hs).valid
    · contradiction

theorem fault_of_build {f : Formula} (sound : f.Sound ctx.source) (ha : a.Shaped ctx.source)
    (h : f.build ctx scope a = .error e) : e.Fault ctx := by
  induction f generalizing a with
  | leaf l span => exact fault_of_leaf sound.solid.valid h
  | group inner span ih =>
    obtain ⟨-, soundInner, -⟩ := sound.of_group
    rcases bind_eq_error h with h | ⟨_, -, h⟩
    · exact ih soundInner ha h
    · contradiction
  | unary op operand span ih =>
    obtain ⟨solid, soundOperand, -⟩ := sound.of_unary
    rcases bind_eq_error h with h | ⟨_, -, h⟩
    · exact ih soundOperand ha h
    · exact fault_of_unary solid.valid h
  | binary op left right ihl ihr =>
    obtain ⟨soundLeft, soundRight, -⟩ := sound.of_binary
    rcases bind_eq_error h with h | ⟨⟨l, a₁⟩, h₁, h⟩
    · exact ihl soundLeft ha h
    have builtLeft := build_shapes soundLeft ha h₁
    rcases bind_eq_error h with h | ⟨⟨r, a₂⟩, h₂, h⟩
    · exact ihr soundRight builtLeft.shaped h
    -- Both operands were built, so the operation has them.
    have builtRight := build_shapes soundRight builtLeft.shaped h₂
    have hl : l.index < a₂.size := index_lt_of_span? (builtRight.grows.span? builtLeft.span)
    have hr : r.index < a₂.size := index_lt_of_span? builtRight.span
    simp only [ofBuilt] at h
    cases built : a₂.buildBinary ctx op l r with
    | ok next =>
      rw [built] at h
      contradiction
    | error be =>
      rw [built] at h
      obtain rfl := Except.error.inj h
      exact fault_of_binary builtRight.shaped hl hr built

theorem fault_of_statement {s : Grammar.Statement} (sound : Formula.StatementSound ctx.source s)
    (ha : a.Shaped ctx.source) (h : compileStatement ctx scope a s = .error e) : e.Fault ctx := by
  cases sound with
  | expression sound | assignment sound solid within =>
    rw [compileStatement, Formula.compileExpression_eq] at h
    split at h
    · contradiction
    · rename_i failed
      obtain rfl := Except.error.inj h
      exact fault_of_build sound ha failed

theorem fault_of_statements {lines : Option LineIndex} {statements : List Grammar.Statement}
    (sound : ∀ s ∈ statements, Formula.StatementSound ctx.source s) (ha : a.Shaped ctx.source)
    (h : compileStatements ctx lines scope a statements = .error e) : e.Fault ctx := by
  induction statements generalizing scope a with
  | nil => contradiction
  | cons s rest ih =>
    obtain ⟨first, sound⟩ := List.forall_mem_cons.mp sound
    rw [compileStatements] at h
    split at h
    · rename_i failed
      obtain rfl := Except.error.inj h
      exact fault_of_statement first ha failed
    · rename_i root scope' a₁ compiled
      have rooted := rooted_located ctx (compileStatement_rooted first ha compiled) lines root
      split at h
      · contradiction
      · rename_i failed
        obtain rfl := Except.error.inj h
        exact ih sound rooted.shaped failed

end Compile

/-- A source that does not compile has a fault. -/
theorem fault_of_compile {ctx : BuildContext} {inputs : List (String × Ty)} {debugSymbols : Bool}
    {limit : Nat} {e : CompileError} (h : compile ctx inputs debugSymbols limit = .error e) :
    e.Fault ctx := by
  unfold compile at h
  split at h
  · rename_i failed
    obtain rfl := Except.error.inj h
    exact Compile.fault_of_parse failed
  · rename_i script parsed
    split at h
    · contradiction
    · rename_i failed
      obtain rfl := Except.error.inj h
      exact Compile.fault_of_statements (Compile.Formula.statementSound_of_parse parsed)
        (.empty ctx.source) failed

/-- The defects of a compiler of parts are out of reach: on the parts of every source it answers
as the compiler of trees, whose errors are those of the source. Without strong typing these are
errors of the text. -/
theorem internal_defects_unreachable (ctx : BuildContext) (inputs : List (String × Ty))
    (debugSymbols : Bool) (limit : Nat) :
    Compile.compileSource ctx inputs debugSymbols limit =
      compile ctx inputs debugSymbols limit ∧
    ∀ e, compile ctx inputs debugSymbols limit = .error e → e.isInternal = false ∧
      (ctx.strongTyping = false → ∃ pe, e = .parse pe) := by
  refine ⟨compileSource_eq ctx inputs debugSymbols limit, fun e h => ?_⟩
  have proper : e.Proper ctx := (fault_of_compile h).proper
  exact ⟨proper.external, proper.loose⟩

/-- A number that no type holds, without strong typing. -/
theorem internal_defects_unreachable_overlong :
    ∃ e, compile (strict "x = 99999999999999999999").loose [] false 128 = .error e ∧
      e.isInternal = false ∧ ∃ pe, e = .parse pe := by
  have computed : (compile (strict "x = 99999999999999999999").loose [] false 128).map
      (fun _ => ()) = .error (.parse ⟨.invalidNumber "99999999999999999999", ⟨4, 24⟩⟩) := by
    decide +kernel
  cases failed : compile (strict "x = 99999999999999999999").loose [] false 128 with
  | ok p =>
    rw [failed] at computed
    contradiction
  | error e =>
    obtain ⟨-, proper⟩ := internal_defects_unreachable
      (strict "x = 99999999999999999999").loose [] false 128
    obtain ⟨external, loose⟩ := proper e failed
    exact ⟨e, rfl, external, loose rfl⟩

end Scriptlet
