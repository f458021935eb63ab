import Mathlib.Data.List.Forall2
import Scriptlet.Proofs.Compile.Strong

/-!
# Strong typing as a filter

Strong typing refuses programs and rewrites literals, and does nothing else. The type of a literal
that it makes is not seen above the operation with that literal, because an operation gets its
type from the operands as they were written.
-/
namespace Scriptlet

namespace Arena

/-- Nodes of one place in the source and of one static type. -/
structure Alike (a : Arena) (i : NodeId) (c : Arena) (j : NodeId) : Prop where
  span : a.span? i = c.span? j
  egress : a.egress i = c.egress j

/-- The trees under `i` and `j` have the same nodes but for their numbers and for the tags of
operands. Only a literal on the right of an operation can be another one: strong typing made `w`
of the literal `v`. -/
inductive Rewrites (ctx : BuildContext) (a c : Arena) : NodeId → NodeId → Prop
  | literal {i j : NodeId} {v : Value} {ty : Ty} (alike : a.Alike i c j)
      (left : a.node? i = some (.literal v ty)) (right : c.node? j = some (.literal v ty)) :
      Rewrites ctx a c i j
  | named {i j : NodeId} {name : String} {ty : Ty} (alike : a.Alike i c j)
      (left : a.node? i = some (.variable name ty))
      (right : c.node? j = some (.variable name ty)) : Rewrites ctx a c i j
  | group {i j k m : NodeId} (alike : a.Alike i c j) (left : a.node? i = some (.group k))
      (right : c.node? j = some (.group m)) (inner : Rewrites ctx a c k m) : Rewrites ctx a c i j
  | unary {i j k m : NodeId} {op : UnaryOp} {ty : Ty} (alike : a.Alike i c j)
      (left : a.node? i = some (.unary op k ty)) (right : c.node? j = some (.unary op m ty))
      (operand : Rewrites ctx a c k m) : Rewrites ctx a c i j
  | assign {i j k m : NodeId} {name : String} {ty : Ty} (alike : a.Alike i c j)
      (left : a.node? i = some (.assign name k ty)) (right : c.node? j = some (.assign name m ty))
      (value : Rewrites ctx a c k m) : Rewrites ctx a c i j
  | binary {i j : NodeId} {m n : BinaryNode} (alike : a.Alike i c j)
      (left : a.node? i = some (.binary m)) (right : c.node? j = some (.binary n))
      (op : m.op = n.op) (egress : m.egress = n.egress) (operand : Rewrites ctx a c m.left n.left)
      (operand' : Rewrites ctx a c m.right n.right) : Rewrites ctx a c i j
  | rewritten {i j : NodeId} {m n : BinaryNode} {v w : Value} {ty : Ty} (alike : a.Alike i c j)
      (left : a.node? i = some (.binary m)) (right : c.node? j = some (.binary n))
      (op : m.op = n.op) (egress : m.egress = n.egress) (operand : Rewrites ctx a c m.left n.left)
      (literal : a.node? m.right = some (.literal w ty)) (replaced : c.Replaced ctx n v w)
      (place : a.span? m.right = c.span? n.right) : Rewrites ctx a c i j

variable {ctx : BuildContext} {scope : Scope} {a c : Arena} {i j : NodeId}

theorem Rewrites.alike (h : a.Rewrites ctx c i j) : a.Alike i c j := by
  cases h <;> assumption

theorem alike_of_node? (ha : a.Ordered) (hc : c.Ordered) {node node' : Node}
    (left : a.node? i = some node) (right : c.node? j = some node')
    (span : a.span? i = c.span? j) (ty : typeOf a.egress node = typeOf c.egress node') :
    a.Alike i c j :=
  ⟨span, by rw [egress_eq ha left, egress_eq hc right, ty]⟩

theorem Twin.rewrites (ha : a.Ordered) (hc : c.Ordered) (h : a.Twin ctx scope c i j) :
    a.Rewrites ctx c i j := by
  induction h with
  | @leaf i j node leaf left right span =>
    have alike (same : typeOf a.egress node = typeOf c.egress node) : a.Alike i c j :=
      alike_of_node? ha hc left right span same
    cases node with
    | literal v ty => exact .literal (alike rfl) left right
    | «variable» name ty => exact .named (alike rfl) left right
    | group | unary | assign | binary => contradiction
  | group left right span _ ih =>
    exact .group (alike_of_node? ha hc left right span ih.alike.egress) left right ih
  | unary left right span _ ih =>
    exact .unary (alike_of_node? ha hc left right span rfl) left right ih
  | binary left right span _ _ ihl ihr =>
    exact .binary (alike_of_node? ha hc left right span rfl) left right rfl rfl ihl ihr
  | converted left right span op egress _ literal replaced literalSpan _ _ _ ih =>
    have alike := alike_of_node? ha hc left right span egress
    exact .rewritten alike left right op egress ih literal replaced literalSpan

end Arena

open Arena

theorem Evaluation.Twins.rewrites {ctx : BuildContext} {scope : Scope} {a c : Arena}
    {is js : List NodeId} (ha : a.Ordered) (hc : c.Ordered)
    (h : Evaluation.Twins ctx a c scope is js) : List.Forall₂ (a.Rewrites ctx c) is js := by
  induction h with
  | nil => exact .nil
  | value twin _ ih => exact .cons (twin.rewrites ha hc) ih
  | assign left right span twin _ _ ih =>
    have alike := alike_of_node? ha hc left right span rfl
    exact .cons (.assign alike left right (twin.rewrites ha hc)) ih

theorem Compile.returnTy_congr {ctx : BuildContext} {a c : Arena} {is js : List NodeId}
    (h : List.Forall₂ (a.Rewrites ctx c) is js) : returnTy is a = returnTy js c := by
  induction h with
  | nil => rfl
  | @cons i j is js first rest ih =>
    cases rest with
    | nil => exact first.alike.egress
    | cons second later =>
      rw [returnTy, returnTy, List.getLast?_cons_cons, List.getLast?_cons_cons]
      exact ih

/-- What compiles with strong typing compiles without it, with the same return type, and into the
same statements but for rewritten literals. -/
theorem strong_typing_rewrites {ctx : BuildContext} {inputs : List (String × Ty)}
    {debugSymbols : Bool} {limit : Nat} {p : Program}
    (hp : compile ctx inputs debugSymbols limit = .ok p) :
    ∃ q, compile ctx.loose inputs debugSymbols limit = .ok q ∧ q.returnTy = p.returnTy ∧
      q.statements.length = p.statements.length ∧
      List.Forall₂ (p.arena.Rewrites ctx q.arena) p.statements q.statements := by
  obtain ⟨script, parsed, h⟩ := compile_ok hp
  obtain ⟨js, G, loose, twins⟩ := Compile.compileStatements_twins .empty .empty h
  have ordered : p.arena.Ordered := (compile_layout hp).1
  have ordered' : G.Ordered := (Compile.compileStatements_layout .empty loose).2.1
  have rewrites := twins.rewrites ordered ordered'
  have sameTy : Compile.returnTy js G = p.returnTy := by
    rw [returnTy_of_compile hp, Compile.returnTy_congr rewrites]
  exact ⟨⟨G, js, Compile.returnTy js G⟩, compile_eq_ok parsed loose, sameTy,
    rewrites.length_eq.symm, rewrites⟩

/-- Strong typing appends one node more, for the `long` that it makes of the literal. -/
theorem strong_typing_rewrites_sum :
    ∃ p q, compile (strict "y = x + 1;\ny") [("x", .primitive .long)] false 128 = .ok p ∧
      compile (strict "y = x + 1;\ny").loose [("x", .primitive .long)] false 128 = .ok q ∧
      p.arena.size = 6 ∧ q.arena.size = 5 ∧ q.returnTy = p.returnTy ∧ q.statements.length = 2 ∧
      List.Forall₂ (p.arena.Rewrites (strict "y = x + 1;\ny") q.arena) p.statements
        q.statements := by
  have strong : (compile (strict "y = x + 1;\ny") [("x", .primitive .long)] false 128).map
      (fun p => (p.arena.size, p.statements.length)) = .ok (6, 2) := by
    decide +kernel
  have loose : (compile (strict "y = x + 1;\ny").loose [("x", .primitive .long)] false 128).map
      (·.arena.size) = .ok 5 := by
    decide +kernel
  obtain ⟨p, hp, strong⟩ := Kernel.map_eq_ok strong
  obtain ⟨size, two⟩ := Prod.mk.inj strong
  obtain ⟨q, hq, sameTy, length, rewrites⟩ := strong_typing_rewrites hp
  rw [hq] at loose
  exact ⟨p, q, hp, hq, size, Except.ok.inj loose, sameTy, length.trans two, rewrites⟩

end Scriptlet
