import Scriptlet.Proofs.Compile.Reflow
import Scriptlet.Proofs.Compile.Strong
import Scriptlet.Proofs.Grammar.Exchange
import Scriptlet.Proofs.Node.RightSpine

/-!
# Grafting a last operand

The last operand of a chain is the last one on the right spine of what the chain is compiled to,
whatever its operators are. So giving the spine another last operand is as good as compiling the
chain with that operand.
-/
namespace Scriptlet

open Arena

/-- The last operand of a script that is one chain of two operands or more. -/
def Grammar.Script.lastOperand? : Grammar.Script → Option Grammar.Operand
  | ⟨[.expression (.mk _ links _)], _⟩ => links.operands.getLast?
  | _ => none

theorem Grammar.Script.lastOperand?_eq_some {script : Grammar.Script} {o : Grammar.Operand}
    (h : script.lastOperand? = some o) : ∃ first links span,
      script.statements = [.expression (.mk first links span)] ∧
        links.operands.getLast? = some o := by
  unfold lastOperand? at h
  split at h
  · exact ⟨_, _, _, rfl, h⟩
  · contradiction

namespace Compile

open Grammar

/-! ## The last operand of a formula -/

namespace Formula

/-- All that is grouped before the last operand of a chain is the same for other last operands. -/
theorem exists_last {o : Operand} : ∀ links : Links, links.operands.getLast? = some o →
    ∀ (waiting : Waiting) (f : Formula), ∃ entry rest,
      ofLinks waiting f links = groupAll (entry :: rest) (ofOperand o) ∧
      ∀ o', ∃ links', links.Exchanged o o' links' ∧
        ofLinks waiting f links' = groupAll (entry :: rest) (ofOperand o')
  | .nil, last, _, _ => by contradiction
  | .cons op span operand .nil, last, waiting, f => by
    obtain rfl : operand = o := Option.some.inj last
    have grouped (o' : Operand) : ofLinks waiting f (.cons op span o' .nil) =
        groupAll (((groupBefore op waiting f).2, op) :: (groupBefore op waiting f).1)
          (ofOperand o') := by
      rw [ofLinks, ofLinks]
    exact ⟨_, _, grouped operand, fun o' => ⟨_, .here, grouped o'⟩⟩
  | .cons op span operand (.cons op' span' operand' rest), last, waiting, f => by
    obtain ⟨entry, before, grouped, others⟩ := exists_last (.cons op' span' operand' rest) last
      (((groupBefore op waiting f).2, op) :: (groupBefore op waiting f).1) (ofOperand operand)
    refine ⟨entry, before, by rw [ofLinks, grouped], fun o' => ?_⟩
    obtain ⟨links', exchanged, grouped'⟩ := others o'
    exact ⟨.cons op span operand links', .later exchanged, by rw [ofLinks, grouped']⟩

end Formula

variable {ctx : BuildContext} {scope : Scope} {a aw al ar a' : Arena} {id last root : NodeId}
  {pending : Pending}

theorem build_groupAll {waiting : Formula.Waiting} {f : Formula} :
    (Formula.groupAll waiting f).build ctx scope a = .ok (root, ar) ↔
      ∃ pending aw last al, Formula.buildWaiting ctx scope a waiting = .ok (pending, aw) ∧
        f.build ctx scope aw = .ok (last, al) ∧ reduceAll ctx pending last al = .ok (root, ar) := by
  rw [← Formula.reduceAll_eq, Formula.buildChain]
  constructor
  · intro h
    obtain ⟨⟨pending, last, al⟩, chain, reduced⟩ := bind_eq_ok h
    obtain ⟨⟨pending', aw⟩, waited, chain⟩ := bind_eq_ok chain
    obtain ⟨⟨last', al'⟩, built, chain⟩ := bind_eq_ok chain
    cases chain
    exact ⟨_, _, _, _, waited, built, reduced⟩
  · rintro ⟨pending, aw, last, al, waited, built, reduced⟩
    simp only [waited, built, bind, Except.bind, pure, Except.pure, reduced]

/-- The operands that wait are nodes of the arena that they are built into. -/
theorem buildWaiting_ordered {waiting : Formula.Waiting} (ha : a.Ordered)
    (h : Formula.buildWaiting ctx scope a waiting = .ok (pending, a')) :
    a.Grows a' ∧ a'.Ordered ∧ pending.length = waiting.length ∧
      ∀ w ∈ pending, w.1.index < a'.size := by
  induction waiting generalizing pending a' with
  | nil =>
    cases h
    exact ⟨.refl a, ha, rfl, by simp⟩
  | cons entry rest ih =>
    obtain ⟨f, op⟩ := entry
    obtain ⟨⟨pending, a₁⟩, waited, h⟩ := bind_eq_ok h
    obtain ⟨⟨id, a₂⟩, built, h⟩ := bind_eq_ok h
    cases h
    obtain ⟨grows, ordered, length, within⟩ := ih waited
    obtain ⟨grows', planted⟩ := build_planted ordered built
    refine ⟨grows.trans grows', planted.ordered, congrArg (· + 1) length, ?_⟩
    exact List.forall_mem_cons.mpr
      ⟨planted.index_lt, fun w hw => Nat.lt_of_lt_of_le (within w hw) grows'.size_le⟩

theorem buildBinary_pushes (ctx : BuildContext) (op : Operator) {l r : NodeId}
    (hl : l.index < a.size) (hr : r.index < a.size) : ∃ b span, a.buildBinary ctx.loose op l r =
      .ok (a.push (.binary b) span) ∧ b.op = op ∧ b.left = l ∧ b.right = r := by
  rw [buildBinary_loose hl hr]
  split
  · exact ⟨_, _, rfl, rfl, rfl, rfl⟩
  · exact ⟨_, _, rfl, rfl, rfl, rfl⟩

/-- Without strong typing all that waits is built, along the right spine. -/
theorem reduceAll_spine (ctx : BuildContext) (ha : a.Ordered)
    (lefts : ∀ w ∈ pending, w.1.index < a.size) (hl : last.index < a.size) :
    ∃ root a', reduceAll ctx.loose pending last a = .ok (root, a') ∧ a.Grows a' ∧ a'.Ordered ∧
      a'.Spine pending last root := by
  induction pending generalizing last a with
  | nil => exact ⟨last, a, rfl, .refl a, ha, .nil last⟩
  | cons entry rest ih =>
    obtain ⟨left, op⟩ := entry
    obtain ⟨first, others⟩ := List.forall_mem_cons.mp lefts
    obtain ⟨b, span, built, rfl, rfl, rfl⟩ := buildBinary_pushes ctx op first hl
    have ordered : (a.push (.binary b) span).2.Ordered := ha.push_pair rfl first hl span
    have room : (a.push (.binary b) span).2.size = a.size + 1 := a.size_push _ _
    have high : (⟨a.size⟩ : NodeId).index < (a.push (.binary b) span).2.size := by
      rw [room]
      exact Nat.lt_succ_self _
    obtain ⟨root, a', reduced, grows, ordered', spine⟩ := ih ordered
      (fun w hw => Nat.lt_of_lt_of_le (others w hw) (by omega)) high
    refine ⟨root, a', by rw [reduceAll, built]; exact reduced,
      (a.grows_push _ _).trans grows, ordered', .cons grows.pushed.1 spine⟩

/-- Only operations of a chain are binary nodes. -/
theorem not_binary_of_build {f : Formula} (operand : f.chain = .operand f)
    (h : f.build ctx scope a = .ok (id, a')) : a'.binary? id = none := by
  obtain ⟨node, hn, makes⟩ := build_makes h
  rw [Arena.binary?, hn]
  cases f with
  | binary op left right => contradiction
  | leaf l span => cases node <;> first | rfl | cases makes
  | group inner span => cases node <;> first | rfl | cases makes
  | unary op inner span => cases node <;> first | rfl | cases makes

/-- Names are compiled to variables. -/
theorem build_name (loose : ctx.strongTyping = false) (scope : Scope) (a : Arena)
    (name : List Char) (span : Span) :
    ∃ ty, (Formula.ofOperand (.mk [] (.leaf (.ident name) span))).build ctx scope a =
      .ok (a.push (.variable (String.ofList name) ty) (some span)) := by
  have operand : Formula.ofOperand (.mk [] (.leaf (.ident name) span)) =
      .leaf (.ident name) span := rfl
  rw [operand, Formula.build, compileLeaf, compileName]
  cases scope.lookup? (String.ofList name) with
  | some ty => exact ⟨ty, rfl⟩
  | none => exact ⟨.any, by rw [loose]; rfl⟩

theorem compileStatements_single {lines : Option LineIndex} {e : Expression}
    {roots : List NodeId} :
    compileStatements ctx lines scope a [.expression e] = .ok (roots, a') ↔
      ∃ root a₁, (Formula.ofExpression e).build ctx scope a = .ok (root, a₁) ∧ roots = [root] ∧
        a' = located ctx lines root a₁ := by
  constructor
  · intro h
    obtain ⟨root, roots', scope', a₁, first, rest, rfl⟩ := compileStatements_cons h
    obtain ⟨id, a₂, built, same⟩ := compileStatement_expression first
    cases same
    cases rest
    exact ⟨_, _, built, rfl, rfl⟩
  · rintro ⟨root, a₁, built, rfl, rfl⟩
    have first : compileStatement ctx scope a (.expression e) = .ok (root, scope, a₁) := by
      rw [compileStatement, Formula.compileExpression_eq, built]
    exact compileStatements_eq_ok first rfl

/-! ## Spines over operands that wait -/

/-- Operations on the operands that waited in `aw` are built to a right spine from `root`, with
`last` at its end. -/
structure Over (aw : Arena) (pending : Pending) (last root : NodeId) (a : Arena) : Prop where
  waiting : aw.Ordered
  lefts : ∀ w ∈ pending, w.1.index < aw.size
  keeps : ∀ x : NodeId, x.index < aw.size → a.node? x = aw.node? x
  ordered : a.Ordered
  spine : a.Spine pending last root
  low : aw.size ≤ last.index
  high : last.index < a.size

theorem Over.of_nodes (h : Over aw pending last root a) (same : a'.nodes = a.nodes) :
    Over aw pending last root a' where
  waiting := h.waiting
  lefts := h.lefts
  keeps x hx := (node?_congr same x).trans (h.keeps x hx)
  ordered id node hn := h.ordered id node ((node?_congr same id).symm.trans hn)
  spine := h.spine.mono fun hn => (node?_congr same _).trans hn
  low := h.low
  high := size_congr same ▸ h.high

/-- Over the operands that wait, any last operand is built to the end of a right spine. -/
theorem exists_over (loose : ctx.strongTyping = false) (waiting : aw.Ordered)
    (lefts : ∀ w ∈ pending, w.1.index < aw.size) {f : Formula}
    (built : f.build ctx scope aw = .ok (last, al)) :
    ∃ root ar, reduceAll ctx pending last al = .ok (root, ar) ∧ al.Grows ar ∧
      Over aw pending last root ar := by
  obtain ⟨grows, planted⟩ := build_planted waiting built
  obtain ⟨root, ar, reduced, grows', ordered, spine⟩ := reduceAll_spine ctx
    planted.ordered (fun w hw => Nat.lt_of_lt_of_le (lefts w hw) grows.size_le) planted.index_lt
  rw [BuildContext.loose_eq loose] at reduced
  exact ⟨root, ar, reduced, grows', waiting, lefts, (grows.trans grows').node?_eq, ordered, spine,
    planted.low_le_root, Nat.lt_of_lt_of_le planted.index_lt grows'.size_le⟩

/-- A chain that ends in a name is built with a variable at the end of the spine. -/
theorem exists_over_name (loose : ctx.strongTyping = false) {first : Operand} {links : Links}
    {waiting : Formula.Waiting} {name : List Char} {place : Span}
    (grouped : Formula.ofLinks [] (Formula.ofOperand first) links =
      Formula.groupAll waiting (Formula.ofOperand (.mk [] (.leaf (.ident name) place))))
    (waited : Formula.buildWaiting ctx scope a waiting = .ok (pending, aw)) (ordered : aw.Ordered)
    (lefts : ∀ w ∈ pending, w.1.index < aw.size) (span : Span) :
    ∃ root ar ty, compileStatements ctx none scope a [.expression (.mk first links span)] =
        .ok ([root], ar) ∧ Over aw pending ⟨aw.size⟩ root ar ∧
      ar.node? ⟨aw.size⟩ = some (.variable (String.ofList name) ty) := by
  obtain ⟨ty, built⟩ := build_name loose scope aw name place
  obtain ⟨root, ar, reduced, grows, stacked⟩ := exists_over loose ordered lefts built
  refine ⟨root, ar, ty, compileStatements_single.mpr ⟨root, ar, ?_, rfl, rfl⟩, stacked,
    grows.node? (aw.node?_push _ _)⟩
  rw [Formula.ofExpression, grouped, build_groupAll]
  exact ⟨pending, aw, _, _, waited, built, reduced⟩

/-- The text of a spine on operands that are older than it, with a variable at its end. -/
theorem render_spine {name : String} {ty : Ty} (waiting : aw.Ordered)
    (lefts : ∀ w ∈ pending, w.1.index < aw.size)
    (keeps : ∀ x : NodeId, x.index < aw.size → a.node? x = aw.node? x)
    (spine : a.Spine pending last root) (reference : a.node? last = some (.variable name ty)) :
    (a.render root).toList = around (fun l => (aw.render l).toList) pending name.toList := by
  have renders : ∀ w ∈ pending, a.Renders w.1 (aw.render w.1).toList := by
    intro w hw
    obtain ⟨text, renders, rendered⟩ := (waiting.grounded w.1).terminating.renders
    rw [rendered]
    exact renders.keep waiting keeps (lefts w hw)
  exact (spine.renders renders (.reference reference)).render

/-- A variable is grafted to the end of the spine. -/
theorem Over.graft (h : Over aw pending last root a) (ne : pending ≠ [])
    (ended : a.binary? last = none) (name : String) (ty : Ty) (position : Option Span) :
    let v := a.push (.variable name ty) position
    ∃ t a', v.2.setRightMost root v.1 = .ok (t, a') ∧ v.2.Grafted t v.1 (OperandTag.ofTy ty) a' ∧
      (a'.render root).toList = around (fun l => (aw.render l).toList) pending name.toList := by
  intro v
  have pushed : a.Grows v.2 := a.grows_push _ _
  have ordered : v.2.Ordered := h.ordered.push (by simp [Node.operands]) _
  have reference : v.2.node? v.1 = some (.variable name ty) := a.node?_push _ _
  have present : (v.2.node? v.1).isSome := by
    rw [reference]
    rfl
  have ended : v.2.binary? last = none := by
    rw [Arena.binary?, pushed.node?_eq last h.high]
    exact ended
  obtain ⟨t, a', grafted, later, changed, spine⟩ :=
    (h.spine.mono pushed.node?).graft ordered ne ended present
  rw [egress_eq ordered reference, typeOf] at changed
  have kept (x : NodeId) (hx : x ≠ t) : a'.node? x = v.2.node? x := by
    rw [Arena.node?, changed.others x hx, Arena.node?]
  have keeps (x : NodeId) (hx : x.index < aw.size) : a'.node? x = aw.node? x := by
    have old : x.index < a.size := Nat.lt_trans (Nat.lt_of_lt_of_le hx h.low) h.high
    have other : x ≠ t := by
      rintro rfl
      have := h.low
      omega
    rw [kept x other, pushed.node?_eq x old, h.keeps x hx]
  have other : v.1 ≠ t := by
    rintro rfl
    obtain ⟨b, binary, -⟩ := changed.target
    rw [Arena.binary?, reference] at binary
    contradiction
  exact ⟨t, a', grafted, changed,
    render_spine h.waiting h.lefts keeps spine ((kept v.1 other).trans reference)⟩

end Compile

variable {ctx : BuildContext} {inputs : List (String × Ty)} {debugSymbols : Bool} {limit : Nat}
  {p : Program}

/-- A chain is compiled to one root, and the end of the right spine from there takes a variable as
right operand, with the tag of its type. Then the root has the text of what the chain with that
name as last operand is compiled to. -/
theorem graft_last_operand {before text after name : List Char} {script : Grammar.Script}
    {o : Grammar.Operand} (loose : ctx.strongTyping = false)
    (source : ctx.source = before ++ (text ++ after))
    (compiled : compile ctx inputs debugSymbols limit = .ok p)
    (parsed : Grammar.parse limit ctx.source = .ok script)
    (last : script.lastOperand? = some o)
    (place : o.span = ⟨Source.byteSize before, Source.byteSize (before ++ text)⟩)
    (isName : Grammar.isName name = true) (ty : Ty) (position : Option Span) :
    ∃ root q root' t a, p.statements = [root] ∧
      compile { ctx with source := before ++ (name ++ after) } inputs debugSymbols limit = .ok q ∧
      q.statements = [root'] ∧
      let v := p.arena.push (.variable (String.ofList name) ty) position
      v.2.setRightMost root v.1 = .ok (t, a) ∧ a.render root = q.arena.render root' ∧
        v.2.Grafted t v.1 (OperandTag.ofTy ty) a := by
  obtain ⟨script', parsed', h⟩ := compile_ok compiled
  obtain rfl := Except.ok.inj (parsed.symm.trans parsed')
  obtain ⟨first, links, span, chain, last⟩ := Grammar.Script.lastOperand?_eq_some last
  rw [chain, Compile.compileStatements_single] at h
  obtain ⟨root, ar, built, roots, arena⟩ := h
  obtain ⟨entry, rest, grouped, others⟩ :=
    Compile.Formula.exists_last links last [] (Compile.Formula.ofOperand first)
  rw [Compile.Formula.ofExpression, grouped, Compile.build_groupAll] at built
  obtain ⟨pending, aw, tip, al, waited, builtLast, reduced⟩ := built
  obtain ⟨-, waiting, length, lefts⟩ := Compile.buildWaiting_ordered .empty waited
  obtain ⟨root₁, ar₁, reduced₁, grows, stacked⟩ := Compile.exists_over loose waiting lefts builtLast
  obtain ⟨rfl, rfl⟩ := Prod.mk.inj (Except.ok.inj (reduced.symm.trans reduced₁))
  -- The chain with the name is built over the same operands.
  obtain ⟨links', exchanged, grouped'⟩ := others (.mk [] (.leaf (.ident name) .origin))
  obtain ⟨root', ar', nameTy, compiled', stacked', named⟩ :=
    Compile.exists_over_name loose grouped' waited waiting lefts span
  rw [source] at parsed
  have alone : script.statements = [] ++ .expression (.mk first links span) :: [] := chain
  obtain ⟨script', parsed', bare⟩ := Grammar.parse_name parsed alone isName place
    (.expression (.here (.links exchanged)))
  obtain ⟨q, hq, roots', nodes'⟩ := compile_of_bare parsed' bare compiled'
  have overName := stacked'.of_nodes nodes'
  have reference := (node?_congr nodes' _).trans named
  -- The variable is grafted to the first program.
  have nodes : p.arena.nodes = ar.nodes := by rw [arena, Compile.nodes_located]
  have ended : p.arena.binary? tip = none := by
    obtain ⟨-, planted⟩ := Compile.build_planted waiting builtLast
    rw [Arena.binary?, node?_congr nodes, grows.node?_eq tip planted.index_lt]
    exact Compile.not_binary_of_build (Compile.Formula.chain_ofOperand o) builtLast
  have ne : pending ≠ [] := by
    rintro rfl
    contradiction
  obtain ⟨t, a, grafted, changed, text⟩ :=
    (stacked.of_nodes nodes).graft ne ended (String.ofList name) ty position
  refine ⟨root, q, root', t, a, roots, hq, roots', grafted, String.toList_injective ?_, changed⟩
  rw [text, Compile.render_spine waiting lefts overName.keeps overName.spine reference]

/-- The last operand has a sign, and the chain ends in another operation than the root. -/
theorem graft_last_operand_signed :
    ∃ p root q root' t a, compile (strict "a + b * -2 < c ** -b;").loose [] false 128 = .ok p ∧
      compile { (strict "").loose with source := "a + b * -2 < c ** delta;".toList } [] false 128 =
        .ok q ∧ p.statements = [root] ∧ q.statements = [root'] ∧
      let v := p.arena.push (.variable "delta" (.primitive .long)) none
      v.2.setRightMost root v.1 = .ok (t, a) ∧ a.render root = q.arena.render root' ∧
        v.2.Grafted t v.1 (OperandTag.ofTy (.primitive .long)) a ∧
        q.arena.render root' = "((a + (b * -2)) < (c ** delta))" := by
  have compiled : (compile (strict "a + b * -2 < c ** -b;").loose [] false 128).map
      (·.statements.length) = .ok 1 := by
    decide +kernel
  have other : (compile { (strict "").loose with source := "a + b * -2 < c ** delta;".toList } []
      false 128).map (fun q => q.statements.map q.arena.render) =
        .ok ["((a + (b * -2)) < (c ** delta))"] := by
    decide +kernel
  have operand : (Grammar.parse 128 "a + b * -2 < c ** -b;".toList).map
      (·.lastOperand?.map (·.span)) = .ok (some ⟨18, 20⟩) := by
    decide +kernel
  obtain ⟨p, hp, -⟩ := Kernel.map_eq_ok compiled
  obtain ⟨script, parsed, operand⟩ := Kernel.map_eq_ok operand
  obtain ⟨o, last, place⟩ := Option.map_eq_some_iff.mp operand
  have source : (strict "a + b * -2 < c ** -b;").loose.source =
      "a + b * -2 < c ** ".toList ++ ("-b".toList ++ ";".toList) := rfl
  have isName : Grammar.isName "delta".toList = true := by decide
  obtain ⟨root, q, root', t, a, roots, hq, roots', grafted, text, changed⟩ :=
    graft_last_operand rfl source hp parsed last place isName (.primitive .long) none
  obtain ⟨q', hq', texts⟩ := Kernel.map_eq_ok other
  obtain rfl := Except.ok.inj (hq.symm.trans hq')
  rw [roots'] at texts
  exact ⟨p, root, q, root', t, a, hp, hq, roots, roots', grafted, text, changed,
    (List.cons.inj texts).1⟩

end Scriptlet
