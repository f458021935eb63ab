import Scriptlet.Proofs.Compile.Extent
import Scriptlet.Proofs.Node.Shape

/-!
# The shape of compiled programs

Whatever the compiler makes of a source, with its groups, prefixes, folded and converted literals,
the arena is well shaped, and the statements are the roots of its trees in order.
-/
namespace Scriptlet

open Arena

variable {source : List Char}

namespace Compile

variable {ctx : BuildContext} {scope : Scope} {f : Formula} {a b a' : Arena} {id : NodeId}

/-! ## Formulas -/

/-- What building a formula gives: a well-shaped arena whose last node, held by none, has the span
of the formula. -/
structure Shapes (source : List Char) (f : Formula) (a : Arena) (id : NodeId) (a' : Arena) :
    Prop where
  shaped : a'.Shaped source
  grows : a.Grows a'
  adds : a.Adds [] a'
  last : id.index + 1 = a'.size
  low : a.size ≤ id.index
  span : a'.span? id = some f.span

theorem Shapes.free (h : Shapes source f a id a') : id ∉ a'.held :=
  h.shaped.ordered.last_not_held h.last

theorem Shapes.push {node : Node} (shaped : b.Shaped source) (grows : a.Grows b)
    (adds : a.Adds [] b) (fits : b.Fits source node f.span)
    (later : ∀ x ∈ node.operands, a.size ≤ x.index)
    (pure : ∀ name value ty, node ≠ .assign name value ty) :
    Shapes source f a ⟨b.size⟩ (b.push node (some f.span)).2 where
  shaped := shaped.push fits
  grows := grows.trans (b.grows_push _ _)
  adds := adds.push later fun name value ty h => absurd h (pure name value ty)
  last := by rw [size_push]
  low := grows.size_le
  span := b.span?_push _ _

/-- A node without operands can stand anywhere. -/
theorem Shapes.leaf {node : Node} (shaped : b.Shaped source) (grows : a.Grows b)
    (adds : a.Adds [] b) (solid : f.span.Solid source) (leaf : node.operands = []) :
    Shapes source f a ⟨b.size⟩ (b.push node (some f.span)).2 := by
  refine .push shaped grows adds (.leaf solid leaf) (by simp [leaf]) fun name value ty h => ?_
  subst h
  cases leaf

/-- A node over the formula that was built last. -/
theorem Shapes.over {inner : Formula} {node : Node} (h : Shapes source inner a id b)
    (solid : f.span.Solid source) (within : inner.span.Within f.span)
    (operand : node.operands = [id]) (pure : ∀ name value ty, node ≠ .assign name value ty) :
    Shapes source f a ⟨b.size⟩ (b.push node (some f.span)).2 := by
  refine .push h.shaped h.grows h.adds (.over solid operand h.span within h.free) ?_ pure
  simpa [operand] using h.low

/-- An operation on two formulas that were built one after the other. -/
theorem Shapes.join {left right : Formula} {op : Operator} {node : BinaryNode} {a₁ : Arena}
    (hl : Shapes source left a node.left a₁) (hr : Shapes source right a₁ node.right b)
    (sound : (Formula.binary op left right).Sound source) :
    Shapes source (.binary op left right) a ⟨b.size⟩
      (b.push (.binary node) (some (left.span.combine right.span))).2 := by
  obtain ⟨soundLeft, soundRight, apart⟩ := sound.of_binary
  have before : node.left.index < a₁.size := by
    have := hl.last
    omega
  have ne : node.left ≠ node.right := by
    intro h
    have := h ▸ hr.low
    omega
  refine .push (f := .binary op left right) hr.shaped (hl.grows.trans hr.grows)
    (hl.adds.trans hr.adds hl.grows hr.grows) ?_ ?_ (by simp)
  · exact .join (hr.grows.span? hl.span) hr.span soundLeft.solid soundRight.solid apart
      (hr.adds.not_held hl.free before) hr.free ne
  · intro x hx
    rcases List.mem_pair.mp hx with rfl | rfl
    · exact hl.low
    · exact Nat.le_trans hl.grows.size_le hr.low

/-- The literal that an operation converts gives way to a new one with its span. -/
theorem Shapes.joined {left right : Formula} {op : Operator} {l r : NodeId} {a₁ : Arena}
    {next : NodeId × Arena} (hl : Shapes source left a l a₁) (hr : Shapes source right a₁ r b)
    (sound : (Formula.binary op left right).Sound source) (h : b.Joined ctx op l r next) :
    Shapes source (.binary op left right) a next.1 next.2 := by
  have span : b.joinedSpan l r = some (left.span.combine right.span) := by
    rw [joinedSpan, hr.grows.span? hl.span, hr.span]
  have solid : right.span.Solid source := sound.of_binary.2.1.solid
  cases h with
  | concat =>
    rw [span]
    exact hl.join hr sound
  | plain =>
    rw [span]
    exact hl.join hr sound
  | @converted _ v _ target =>
    rw [span, hr.span]
    have literal : Shapes source right a₁ ⟨b.size⟩
        (b.push (.literal (v.heldBy ⟨b.size⟩) target) (some right.span)).2 :=
      .leaf hr.shaped hr.grows hr.adds solid rfl
    exact hl.join literal sound

theorem build_shapes (sound : f.Sound source) (ha : a.Shaped source)
    (h : f.build ctx scope a = .ok (id, a')) : Shapes source f a id a' := by
  induction f generalizing a a' id with
  | leaf l span =>
    have solid := sound.solid
    rcases compileLeaf_ok h with ⟨v, h⟩ | ⟨name, ty, -, h⟩ <;> obtain ⟨rfl, rfl⟩ := Prod.mk.inj h
    · exact .leaf (f := .leaf l span) ha (.refl a) (.refl a) solid rfl
    · exact .leaf (f := .leaf l span) ha (.refl a) (.refl a) solid rfl
  | group inner span ih =>
    obtain ⟨⟨i, a₁⟩, h₁, h⟩ := bind_eq_ok h
    obtain ⟨rfl, rfl⟩ := Prod.mk.inj (Except.ok.inj h)
    obtain ⟨solid, soundInner, within⟩ := sound.of_group
    exact (ih soundInner ha h₁).over (f := .group inner span) solid within rfl (by simp)
  | unary op operand span ih =>
    obtain ⟨solid, soundOperand, within⟩ := sound.of_unary
    obtain ⟨⟨i, a₁⟩, h₁, h⟩ := bind_eq_ok h
    have built := ih soundOperand ha h₁
    rcases compileUnary_ok h with ⟨v, w, ty, -, -, -, h⟩ | ⟨-, -, h⟩ <;>
      obtain ⟨rfl, rfl⟩ := Prod.mk.inj h
    · exact .leaf (f := .unary op operand span) built.shaped built.grows built.adds solid rfl
    · exact built.over (f := .unary op operand span) solid within rfl (by simp)
  | binary op left right ihl ihr =>
    obtain ⟨soundLeft, soundRight, -⟩ := sound.of_binary
    obtain ⟨⟨l, a₁⟩, h₁, h⟩ := bind_eq_ok h
    obtain ⟨⟨r, a₂⟩, h₂, h⟩ := bind_eq_ok h
    have builtLeft := ihl soundLeft ha h₁
    have builtRight := ihr soundRight builtLeft.shaped h₂
    exact builtLeft.joined builtRight sound (joined_of_buildBinary (ofBuilt_ok h))

/-! ## Statements -/

theorem compileStatement_rooted {s : Grammar.Statement} {scope' : Scope}
    (sounds : Formula.StatementSound source s) (ha : a.Shaped source)
    (h : compileStatement ctx scope a s = .ok (id, scope', a')) : a.Rooted source [id] a' := by
  cases sounds with
  | expression sound =>
    obtain ⟨id', a'', h₁, h⟩ := compileStatement_expression h
    cases h
    have built := build_shapes sound ha h₁
    refine .single built.shaped built.grows ⟨built.adds.held, ?_⟩ built.low built.last
    exact fun x name value ty hx => (built.adds.assigns x name value ty hx).imp_right (by simp)
  | assignment sound solid within =>
    obtain ⟨id', a'', h₁, h⟩ := compileStatement_assignment h
    cases h
    have built := build_shapes sound ha h₁
    refine .single (built.shaped.push (.over solid rfl built.span within built.free))
      (built.grows.trans (a''.grows_push _ _)) (built.adds.push ?_ (by simp)) built.grows.size_le
      (by rw [size_push])
    simpa [Node.operands] using built.low

/-- With or without locations a statement adds the same. -/
theorem rooted_located (ctx : BuildContext) {roots : List NodeId} (h : a.Rooted source roots a')
    (lines : Option LineIndex) (root : NodeId) :
    a.Rooted source roots (located ctx lines root a') := by
  obtain ⟨grows, -, -⟩ := located_layout ctx lines root h.shaped.ordered
  exact h.of_grows grows (nodes_located ctx lines root a')

theorem compileStatements_rooted {lines : Option LineIndex} {statements : List Grammar.Statement}
    {roots : List NodeId} (sounds : ∀ s ∈ statements, Formula.StatementSound source s)
    (ha : a.Shaped source)
    (h : compileStatements ctx lines scope a statements = .ok (roots, a')) :
    a.Rooted source roots a' := by
  induction statements generalizing scope a roots with
  | nil =>
    rw [compileStatements] at h
    obtain ⟨rfl, rfl⟩ := Prod.mk.inj (Except.ok.inj h)
    exact .nil ha
  | cons s rest ih =>
    obtain ⟨root, roots', scope', a₁, h₁, h₂, rfl⟩ := compileStatements_cons h
    obtain ⟨sound, sounds⟩ := List.forall_mem_cons.mp sounds
    have first := rooted_located ctx (compileStatement_rooted sound ha h₁) lines root
    exact first.append (ih sounds first.shaped h₂)

end Compile

/-! ## Programs -/

/-- The arena is well shaped and the statements are the roots of its trees, in order. Only roots
assign. -/
structure Program.WellFormed (source : List Char) (p : Program) : Prop where
  shaped : p.arena.Shaped source
  within : ∀ r ∈ p.statements, r.index < p.arena.size
  roots : ∀ r ∈ p.statements, r ∉ p.arena.held
  rise : p.statements.Pairwise (·.index < ·.index)
  assigns : ∀ id name value ty, p.arena.node? id = some (.assign name value ty) →
    id ∈ p.statements

variable {ctx : BuildContext} {inputs : List (String × Ty)} {debugSymbols : Bool} {limit : Nat}
  {p : Program}

theorem wellFormed_of_compile (h : compile ctx inputs debugSymbols limit = .ok p) :
    p.WellFormed ctx.source := by
  obtain ⟨script, parsed, h⟩ := compile_ok h
  have rooted := Compile.compileStatements_rooted (Compile.Formula.statementSound_of_parse parsed)
    (.empty ctx.source) h
  refine ⟨rooted.shaped, rooted.within, rooted.free, rooted.rise, ?_⟩
  intro id name value ty hn
  rcases rooted.adds.assigns id name value ty hn with hlt | hmem
  · exact absurd hlt (Nat.not_lt_zero _)
  · exact hmem

theorem wellFormed_of_compile_signs :
    ∃ p, compile (strict "y = -(-x) * (2 + 1);\n- -7 < y") [("x", .primitive .int)] true 128 =
      .ok p ∧ p.statements.length = 2 ∧
      p.WellFormed (strict "y = -(-x) * (2 + 1);\n- -7 < y").source := by
  have statements : (compile (strict "y = -(-x) * (2 + 1);\n- -7 < y")
      [("x", .primitive .int)] true 128).map (·.statements.length) = .ok 2 := by
    decide +kernel
  obtain ⟨p, hp, length⟩ := Kernel.map_eq_ok statements
  exact ⟨p, hp, length, wellFormed_of_compile hp⟩

end Scriptlet
