import Scriptlet.Compile.Program

/-!
# Formulas

The grouping of a chain by precedence does not depend on what its operands become. A formula is
an expression after that grouping; building its operands and then its operations gives what the
compiler gives, errors included. So facts about compiled expressions are inductions over
formulas.
-/
namespace Scriptlet.Compile

/-- An expression whose chains are grouped by precedence. -/
inductive Formula where
  | leaf (l : Grammar.Leaf) (span : Span)
  | group (inner : Formula) (span : Span)
  | unary (op : UnaryOp) (operand : Formula) (span : Span)
  | binary (op : Operator) (left right : Formula)

namespace Formula

/-- Signs on a formula, the innermost first. -/
def signed (span : Span) : List Grammar.Sign → Formula → Formula
  | [], f => f
  | sign :: outer, f => signed span outer (.unary sign.op f span)

/-- Operands before their operators, the last one first. -/
abbrev Waiting := List (Formula × Operator)

/-- Groups what comes before the operator `next`. -/
def groupBefore (next : Operator) : Waiting → Formula → Waiting × Formula
  | [], last => ([], last)
  | (left, op) :: rest, last =>
    if op.reducesBefore next then groupBefore next rest (.binary op left last)
    else ((left, op) :: rest, last)

/-- Groups everything. -/
def groupAll : Waiting → Formula → Formula
  | [], last => last
  | (left, op) :: rest, last => groupAll rest (.binary op left last)

mutual

def ofPrimary : Grammar.Primary → Formula
  | .leaf l span => .leaf l span
  | .group inner span => .group (ofExpression inner) span

def ofOperand : Grammar.Operand → Formula
  | .mk signs primary =>
    let span := (Grammar.Operand.mk signs primary).span
    match primary, splitMinus signs.reverse with
    | .leaf (.number text) numberSpan, some (minus, outer) =>
      signed span outer (.leaf (.number ('-' :: text)) (minus.span.combine numberSpan))
    | _, _ => signed span signs.reverse (ofPrimary primary)

/-- The rest of a chain after the operand `last`. -/
def ofLinks (waiting : Waiting) (last : Formula) : Grammar.Links → Formula
  | .nil => groupAll waiting last
  | .cons op _ operand rest =>
    ofLinks (((groupBefore op waiting last).2, op) :: (groupBefore op waiting last).1)
      (ofOperand operand) rest

def ofExpression : Grammar.Expression → Formula
  | .mk first links _ => ofLinks [] (ofOperand first) links

end

variable (ctx : BuildContext) (scope : Scope)

/-- Appends the nodes of a formula, operands before operations. -/
def build (a : Arena) : Formula → Compiled
  | leaf l span => compileLeaf ctx scope a span l
  | group inner span => do
    let (id, a) ← build a inner
    return a.push (.group id) (some span)
  | unary op operand span => do
    let (id, a) ← build a operand
    compileUnary ctx a op id span
  | binary op left right => do
    let (l, a) ← build a left
    let (r, a) ← build a right
    ofBuilt (a.buildBinary ctx op l r)

/-- Appends the operands that wait, from the first one on. -/
def buildWaiting (a : Arena) : Waiting → Except CompileError (Pending × Arena)
  | [] => return ([], a)
  | (f, op) :: rest => do
    let (pending, a) ← buildWaiting a rest
    let (id, a) ← build ctx scope a f
    return ((id, op) :: pending, a)

/-- Appends the operands that wait and then the one after them. -/
def buildChain (a : Arena) (waiting : Waiting) (last : Formula) :
    Except CompileError (Pending × NodeId × Arena) := do
  let (pending, a) ← buildWaiting ctx scope a waiting
  let (id, a) ← build ctx scope a last
  return (pending, id, a)

variable {ctx : BuildContext} {scope : Scope}

theorem buildChain_cons (a : Arena) (left : Formula) (op : Operator) (rest : Waiting)
    (last : Formula) :
    buildChain ctx scope a ((left, op) :: rest) last =
      (do
        let (pending, l, a) ← buildChain ctx scope a rest left
        let (r, a) ← build ctx scope a last
        return ((l, op) :: pending, r, a)) := by
  simp only [buildChain, buildWaiting, bind_assoc, pure_bind]

theorem compileSigns_eq (span : Span) (signs : List Grammar.Sign) (a : Arena) (f : Formula) :
    (do let (id, a) ← build ctx scope a f; compileSigns ctx span signs id a) =
      build ctx scope a (signed span signs f) := by
  induction signs generalizing f with
  | nil =>
    cases h : build ctx scope a f <;> simp [signed, compileSigns, h, bind, Except.bind]
  | cons sign outer ih =>
    rw [signed, ← ih]
    simp only [build, bind_assoc]
    cases build ctx scope a f with
    | error e => rfl
    | ok r =>
      simp only [compileSigns, bind, Except.bind]
      cases compileUnary ctx r.2 sign.op r.1 span <;> rfl

theorem reduceBefore_cons (next : Operator) (left : NodeId) (op : Operator) (rest : Pending)
    (last : NodeId) (a : Arena) (h : op.reducesBefore next) :
    reduceBefore ctx next ((left, op) :: rest) last a =
      (do
        let (id, a) ← ofBuilt (a.buildBinary ctx op left last)
        reduceBefore ctx next rest id a) := by
  rw [reduceBefore, if_pos h]
  cases a.buildBinary ctx op left last <;> rfl

theorem reduceAll_cons (left : NodeId) (op : Operator) (rest : Pending) (last : NodeId)
    (a : Arena) :
    reduceAll ctx ((left, op) :: rest) last a =
      (do
        let (id, a) ← ofBuilt (a.buildBinary ctx op left last)
        reduceAll ctx rest id a) := by
  rw [reduceAll]
  cases a.buildBinary ctx op left last <;> rfl

theorem reduceBefore_eq (next : Operator) (waiting : Waiting) (a : Arena) (f : Formula) :
    (do
      let (pending, id, a) ← buildChain ctx scope a waiting f
      reduceBefore ctx next pending id a) =
      buildChain ctx scope a (groupBefore next waiting f).1 (groupBefore next waiting f).2 := by
  induction waiting generalizing f with
  | nil =>
    simp only [groupBefore, buildChain, buildWaiting, bind_assoc, pure_bind]
    rfl
  | cons entry rest ih =>
    obtain ⟨left, op⟩ := entry
    rw [groupBefore]
    by_cases h : op.reducesBefore next
    · rw [if_pos h, ← ih]
      simp only [buildChain, buildWaiting, build, bind_assoc, pure_bind,
        reduceBefore_cons _ _ _ _ _ _ h]
    · rw [if_neg h]
      simp only [buildChain, buildWaiting, bind_assoc, pure_bind, reduceBefore, if_neg h]
      rfl

theorem reduceAll_eq (waiting : Waiting) (a : Arena) (f : Formula) :
    (do
      let (pending, id, a) ← buildChain ctx scope a waiting f
      reduceAll ctx pending id a) = build ctx scope a (groupAll waiting f) := by
  induction waiting generalizing f with
  | nil =>
    simp only [groupAll, buildChain, buildWaiting, bind_assoc, pure_bind]
    exact bind_pure _
  | cons entry rest ih =>
    obtain ⟨left, op⟩ := entry
    rw [groupAll, ← ih]
    simp only [buildChain, buildWaiting, build, bind_assoc, pure_bind, reduceAll_cons]

theorem compileLinks_cons (op : Operator) (span : Span) (operand : Grammar.Operand)
    (rest : Grammar.Links) (pending : Pending) (last : NodeId) (a : Arena) :
    compileLinks ctx scope pending last a (.cons op span operand rest) =
      (do
        let (pending, left, a) ← reduceBefore ctx op pending last a
        let (id, a) ← compileOperand ctx scope a operand
        compileLinks ctx scope ((left, op) :: pending) id a rest) := by
  rw [compileLinks]
  rcases reduceBefore ctx op pending last a with e | ⟨pending, left, a⟩
  · rfl
  · simp only [bind, Except.bind]
    cases compileOperand ctx scope a operand <;> rfl

mutual

theorem compilePrimary_eq (a : Arena) : ∀ p : Grammar.Primary,
    compilePrimary ctx scope a p = build ctx scope a (ofPrimary p)
  | .leaf l span => rfl
  | .group inner span => by
    rw [compilePrimary, compileExpression_eq a inner, ofPrimary, build]
    cases build ctx scope a (ofExpression inner) <;> rfl

theorem compileOperand_eq (a : Arena) : ∀ o : Grammar.Operand,
    compileOperand ctx scope a o = build ctx scope a (ofOperand o)
  | .mk signs primary => by
    simp only [compileOperand.eq_def]
    split
    · rename_i text numberSpan minus outer hminus
      simp only [ofOperand, hminus]
      rw [← compileSigns_eq]
      simp only [build, compileLeaf]
      cases compileNumber a ('-' :: text) (minus.span.combine numberSpan) <;> rfl
    · rename_i primary _ _ hother
      rw [ofOperand, ← compileSigns_eq, compilePrimary_eq a primary]
      · cases build ctx scope a (ofPrimary primary) <;> rfl
      · exact hother

theorem compileLinks_eq (a : Arena) (waiting : Waiting) (f : Formula) : ∀ links : Grammar.Links,
    (do
      let (pending, id, a) ← buildChain ctx scope a waiting f
      compileLinks ctx scope pending id a links) =
      build ctx scope a (ofLinks waiting f links)
  | .nil => by
    simp only [compileLinks, ofLinks]
    exact reduceAll_eq waiting a f
  | .cons op span operand rest => by
    rw [ofLinks, ← compileLinks_eq a _ _ rest, buildChain_cons, ← reduceBefore_eq]
    simp only [bind_assoc, pure_bind, compileLinks_cons, compileOperand_eq _ operand]

theorem compileExpression_eq (a : Arena) : ∀ e : Grammar.Expression,
    compileExpression ctx scope a e = build ctx scope a (ofExpression e)
  | .mk first links span => by
    rw [compileExpression, compileOperand_eq a first, ofExpression, ← compileLinks_eq a _ _ links]
    simp only [buildChain, buildWaiting, bind_assoc, pure_bind]
    cases build ctx scope a (ofOperand first) <;> rfl

end

end Formula

end Scriptlet.Compile
