import Scriptlet.Kernel.Apply

/-!
# Errors of the kernel

An operation fails only for reasons of its own, and the error names it: its operands do not go
together, or one is null, or does not read as a number, or the result does not exist.
-/
namespace Scriptlet.Kernel

/-- The errors of a binary operation. -/
inductive Fault (op : Operator) : RuntimeError → Prop
  | divisionByZero (divides : op = .div ∨ op = .rem) : Fault op .divisionByZero
  | nullOperand : Fault op (.nullOperand op)
  | incompatible (left right : Tag) : Fault op (.incompatibleOperands op left right)
  | overflow : Fault op (.overflow op)
  | conversion (e : ConversionError) : Fault op (.conversion e)

/-- A computation that fails only with errors of the operation. -/
def Faults {α : Type} (op : Operator) (r : Except RuntimeError α) : Prop :=
  ∀ e, r = .error e → Fault op e

variable {α β : Type} {op : Operator} {e : RuntimeError}

theorem faults_ok (op : Operator) (x : α) : Faults op (.ok x) := by
  intro e h
  contradiction

theorem Fault.faults (h : Fault op e) : Faults op (.error e : Except RuntimeError α) := by
  intro e' he
  obtain rfl := Except.error.inj he
  exact h

theorem Faults.map {r : Except RuntimeError α} (h : Faults op r) (f : α → β) :
    Faults op (r.map f) := by
  cases r with
  | ok x => exact faults_ok op (f x)
  | error e => exact (h e rfl).faults

theorem faults_getD {r : Option Result} (h : ∀ x, r = some x → Faults op x)
    (left right : Operand) : Faults op (r.getD (.error (incompatible op left right))) := by
  cases r with
  | none => exact (Fault.incompatible left.tag right.tag).faults
  | some x => exact h x rfl

theorem faults_divided {zero : Prop} [Decidable zero] (divides : op = .div ∨ op = .rem)
    {quotient : Except RuntimeError α} (h : Faults op quotient) :
    Faults op (if zero then .error .divisionByZero else quotient) := by
  split
  · exact (Fault.divisionByZero divides).faults
  · exact h

theorem faults_machine {l r : Int64} {x : Except RuntimeError Int64}
    (h : Machine.arithmetic? op l r = some x) : Faults op x := by
  cases op <;> cases h
  case div => exact faults_divided (.inl rfl) (faults_ok _ _)
  case rem => exact faults_divided (.inr rfl) (faults_ok _ _)
  all_goals exact faults_ok _ _

theorem faults_big {l r : Int} {x : Except RuntimeError Int}
    (h : Big.arithmetic? op l r = some x) : Faults op x := by
  cases op <;> cases h
  case div => exact faults_divided (.inl rfl) (faults_ok _ _)
  case rem => exact faults_divided (.inr rfl) (faults_ok _ _)
  case pow =>
    unfold Big.pow
    split
    · exact faults_ok _ _
    · split
      · exact Fault.overflow.faults
      · exact faults_ok _ _
  all_goals exact faults_ok _ _

theorem faults_bigBitwise {l r : Int} {x : Except RuntimeError Int}
    (h : Big.bitwise? op l r = some x) : Faults op x := by
  have distance : Faults op (Big.distance op r) := by
    unfold Big.distance
    split
    · exact Fault.overflow.faults
    · exact faults_ok op _
  cases op <;> cases h
  case shl => exact distance.map _
  case shr => exact distance.map _
  all_goals exact faults_ok _ _

theorem faults_decimal {l r : Decimal} {x : Except RuntimeError Decimal}
    (h : decimalArithmetic? op l r = some x) : Faults op x := by
  have result (d : Option Decimal) : Faults op (decimalResult op d) := by
    cases d with
    | none => exact Fault.overflow.faults
    | some d => exact faults_ok op d
  cases op <;> cases h
  case div => exact faults_divided (.inl rfl) (result _)
  case rem => exact faults_divided (.inr rfl) (result _)
  all_goals exact result _

theorem faults_promoted {tag : Tag} {left right : Value} {x : Result}
    (h : promotedArithmetic? op tag left right = some x) : Faults op x := by
  unfold promotedArithmetic? at h
  split at h <;> obtain ⟨⟨l, r⟩, -, h⟩ := Option.bind_eq_some_iff.mp h <;>
    obtain ⟨y, hy, rfl⟩ := Option.map_eq_some_iff.mp h
  · exact faults_ok op _
  · exact faults_ok op _
  · exact (faults_big hy).map _
  · exact (faults_decimal hy).map _
  · exact (faults_machine hy).map _

theorem faults_arithmetic (op : Operator) (left right : Operand) :
    Faults op (arithmetic op left right) := by
  unfold arithmetic
  split
  · exact faults_getD (fun _ => faults_promoted) left right
  · exact (Fault.incompatible left.tag right.tag).faults

theorem faults_integralBitwise {left right : Operand} {x : Result}
    (h : integralBitwise? op left right = some x) : Faults op x := by
  unfold integralBitwise? at h
  split at h
  · obtain ⟨⟨l, r⟩, -, h⟩ := Option.bind_eq_some_iff.mp h
    obtain ⟨y, hy, rfl⟩ := Option.map_eq_some_iff.mp h
    exact (faults_bigBitwise hy).map _
  · obtain ⟨⟨l, r⟩, -, h⟩ := Option.bind_eq_some_iff.mp h
    simp only at h
    split at h <;> obtain ⟨n, -, rfl⟩ := Option.map_eq_some_iff.mp h <;> exact faults_ok op _

theorem faults_bitwise (op : Operator) (left right : Operand) :
    Faults op (bitwise op left right) := by
  refine faults_getD (fun x h => ?_) left right
  split at h
  · obtain ⟨⟨l, r⟩, -, h⟩ := Option.bind_eq_some_iff.mp h
    obtain ⟨b, -, rfl⟩ := Option.map_eq_some_iff.mp h
    exact faults_ok op _
  · split at h
    · exact faults_integralBitwise h
    · contradiction

theorem faults_comparison (op : Operator) (left right : Operand) :
    Faults op (comparison op left right) := by
  unfold comparison
  split
  · exact faults_ok op _
  · exact (Fault.incompatible left.tag right.tag).faults

theorem faults_logical (op : Operator) (left right : Operand) :
    Faults op (logical op left right) := by
  unfold logical
  split
  · exact faults_ok op _
  · exact (Fault.incompatible left.tag right.tag).faults

theorem faults_numeric (op : Operator) (left right : Operand) :
    Faults op (numeric op left right) := by
  unfold numeric
  split
  all_goals first
    | exact faults_comparison _ left right
    | exact faults_arithmetic _ left right
    | exact faults_bitwise _ left right

theorem faults_spellOut (r : ConversionRegistry) (op : Operator) (left right : Operand) :
    Faults op (spellOut r left right) := by
  unfold spellOut
  split
  · split
    · exact faults_ok op _
    · exact (Fault.conversion _).faults
  · split
    · split
      · exact faults_ok op _
      · exact (Fault.conversion _).faults
    · exact faults_ok op _

theorem faults_withNull (op : Operator) (left right : Value) :
    Faults op (withNull op left right) := by
  unfold withNull
  split
  · exact faults_ok _ _
  · exact faults_ok _ _
  · exact Fault.nullOperand.faults

theorem faults_applyPresent (r : ConversionRegistry) (op : Operator) (left right : Operand) :
    Faults op (applyPresent r op left right) := by
  have spelled := faults_spellOut r op left right
  unfold applyPresent
  split
  · exact faults_ok _ _
  · exact faults_ok _ _
  · exact faults_logical _ left right
  · exact faults_logical _ left right
  · split
    · exact faults_numeric op _ _
    · rename_i e he
      exact (spelled e he).faults

/-- A binary operation fails with errors of its own. -/
theorem faults_apply (r : ConversionRegistry) (op : Operator) (leftTag : Tag) (left : Value)
    (rightTag : Tag) (right : Value) : Faults op (apply r op leftTag left rightTag right) := by
  unfold apply applyLive
  split
  · exact faults_ok op _
  · split
    · exact faults_withNull op _ _
    · exact faults_applyPresent r op _ _

/-- A prefix operation fails only on an operand that it does not take. -/
theorem invalid_of_applyUnary {op : UnaryOp} {v : Value} (h : applyUnary op v = .error e) :
    e = .invalidUnaryOperand op v.tag := by
  unfold applyUnary at h
  simp only at h
  split at h
  · contradiction
  · exact (Except.error.inj h).symm

end Scriptlet.Kernel
