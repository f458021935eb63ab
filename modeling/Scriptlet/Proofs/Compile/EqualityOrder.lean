import Scriptlet.Host
import Scriptlet.Proofs.Compile.Graft
import Scriptlet.Proofs.Compile.Written

/-!
# The order of compared operands

Under strong typing the operands of `==` and `!=` meet if one of their types is assignable to the
other, or if the right operand converts to the type of the left one. Conversions have a direction,
so there are operands that meet in one order only: a class with a handler for the primitive values
on the right, and a number that characters convert to and that does not convert to them.
-/
namespace Scriptlet

namespace Ty

open ConversionRegistry

/-- Operands of the types meet in this order, whatever the operator is. -/
def meets (r : ConversionRegistry) (left right : Ty) : Bool :=
  left.assignableFrom right || right.assignableFrom left || compatible r left right

/-- Byte and the floating numbers: characters convert to them and not back. -/
def takesChars (t : Ty) : Bool := t.kind? == some .byte || t.isFloating

/-- The right operand converts to the type of the left one and not back. -/
inductive OneWay (r : ConversionRegistry) : Ty → Ty → Prop
  | handled {c : ClassType} {p : Primitive} (handles : r.handles c (.boxed p) = true) :
      OneWay r (.hostClass c) (.primitive p)
  | char {left right : Ty} (char : right.isChar = true) (takes : left.takesChars = true)
      (primitive : (left.isPrimitive || right.isPrimitive) = true)
      (apart : left.assignableFrom right = false) : OneWay r left right

@[simp] theorem takesChars_box (t : Ty) : t.box.takesChars = t.takesChars := by
  cases t <;> rfl

theorem isChar_box (t : Ty) : t.box.isChar = t.isChar := by
  rw [isChar, kind?_box, isChar]

variable {r : ConversionRegistry} {t left right : Ty}

theorem canConvert_boxed (p q : Primitive) : r.canConvert (.boxed p) (.boxed q) =
    (boxed p == boxed q || acceptsBuiltin (.boxed p) (.boxed q)) := by
  simp [canConvert, assignableFrom, widensFrom]

/-- A boxed kind and another type convert in one direction only if the other type is a class with a
handler for the kind, or if one of them is the type of characters and the other takes these. -/
theorem converts_one_way_iff (p : Primitive) (boxed : t.isPrimitive = false)
    (present : t ≠ .null) :
    (r.canConvert t (.boxed p) = true ∧ r.canConvert (.boxed p) t = false ↔
      (∃ c, t = .hostClass c ∧ r.handles c (.boxed p) = true) ∨
        p = .char ∧ t.takesChars = true) ∧
    (r.canConvert (.boxed p) t = true ∧ r.canConvert t (.boxed p) = false ↔
      t.isChar = true ∧ (Ty.boxed p).takesChars = true) := by
  cases t with
  | primitive q => cases boxed
  | null => contradiction
  | boxed q =>
    rw [canConvert_boxed, canConvert_boxed]
    cases p <;> cases q <;> simp [acceptsBuiltin, takesChars, isNumber, isBoolean, isChar,
      isIntegral, isFloating, kind?, Primitive.isNumeric]
  | bigInteger | bigDecimal | string | any | hostClass =>
    cases p <;> simp [canConvert, assignableFrom, widensFrom, acceptsBuiltin, takesChars, isNumber,
      isBoolean, isChar, isIntegral, isFloating, kind?, Primitive.isNumeric, isPrimitive]

theorem box_ne_null (present : t ≠ .null) : t.box ≠ .null := by
  cases t <;> simp_all [box]

/-- All that is asked beside the conversion is the same in both orders. -/
theorem meets_one_way_iff_converts :
    (left.meets r right = true ∧ right.meets r left = false) ↔
      (left.isPrimitive || right.isPrimitive) = true ∧ left ≠ .null ∧ right ≠ .null ∧
        left.assignableFrom right = false ∧ right.assignableFrom left = false ∧
        (left.isNumber && right.isNumber) = false ∧
        r.canConvert left.box right.box = true ∧ r.canConvert right.box left.box = false := by
  rw [meets, meets, compatible, compatible, Bool.or_comm right.isPrimitive,
    Bool.and_comm right.isNumber]
  by_cases hl : left = .null
  · simp [hl]
  by_cases hr : right = .null
  · simp [hr]
  have nulls : (left == .null) = false ∧ (right == .null) = false := by simp [hl, hr]
  rw [nulls.1, nulls.2]
  grind

theorem exists_primitive (h : t.isPrimitive = true) : ∃ p, t = .primitive p := by
  cases t with
  | primitive p => exact ⟨p, rfl⟩
  | _ => contradiction

theorem eq_hostClass_of_box {c : ClassType} (h : t.box = .hostClass c) : t = .hostClass c := by
  cases t with
  | primitive p => cases h
  | _ => exact h

theorem box_of_isChar (h : t.isChar = true) : t.box = .boxed .char := by
  cases t with
  | primitive p | boxed p => cases p <;> first | rfl | contradiction
  | _ => contradiction

/-- No character is assigned what it converts to and not back. -/
theorem not_assignable_of_takesChars (char : right.isChar = true) (takes : left.takesChars = true) :
    right.assignableFrom left = false ∧ left ≠ .null := by
  have boxed := box_of_isChar char
  cases left with
  | primitive p | boxed p =>
    cases p <;> first
      | contradiction
      | (cases right <;> simp_all [box, assignableFrom, widensFrom, Primitive.widensTo,
          Primitive.wider])
  | bigDecimal => cases right <;> simp_all [box, assignableFrom, widensFrom]
  | _ => contradiction

theorem meets_one_way_iff :
    (left.meets r right = true ∧ right.meets r left = false) ↔ OneWay r left right := by
  rw [meets_one_way_iff_converts]
  constructor
  · rintro ⟨primitive, presentLeft, presentRight, apart, -, -, converts, back⟩
    -- The side that is primitive has a boxed kind, which is what the conversions are known of.
    rcases Bool.or_eq_true_iff.mp primitive with h | h
    · obtain ⟨p, rfl⟩ := exists_primitive h
      obtain ⟨char, takes⟩ := (converts_one_way_iff p (isPrimitive_box right)
        (box_ne_null presentRight)).2.mp ⟨converts, back⟩
      exact .char (isChar_box right ▸ char) takes primitive apart
    · obtain ⟨p, rfl⟩ := exists_primitive h
      rcases (converts_one_way_iff p (isPrimitive_box left) (box_ne_null presentLeft)).1.mp
        ⟨converts, back⟩ with ⟨c, hc, handles⟩ | ⟨rfl, takes⟩
      · obtain rfl := eq_hostClass_of_box hc
        exact .handled handles
      · exact .char rfl (takesChars_box left ▸ takes) primitive apart
  · rintro (handles | ⟨char, takes, primitive, apart⟩)
    · rename_i c p
      have converts := (converts_one_way_iff p rfl (by simp)).1.mpr (.inl ⟨c, rfl, handles⟩)
      exact ⟨rfl, by simp, by simp, rfl, rfl, rfl, converts⟩
    · obtain ⟨apart', present⟩ := not_assignable_of_takesChars char takes
      have converts := (converts_one_way_iff (r := r) .char (isPrimitive_box left)
        (box_ne_null present)).1.mpr (.inr ⟨rfl, (takesChars_box left).trans takes⟩)
      rw [box_of_isChar char]
      have other : right ≠ .null ∧ right.isNumber = false := by
        cases right <;> simp_all [isChar, kind?, isNumber, Primitive.isNumeric]
      exact ⟨primitive, present, other.1, apart, apart', by simp [other.2], converts⟩

end Ty

namespace Grammar

/-- An operation on two names. -/
def onNames (x y : List Char) (op : Operator) : List Char :=
  x ++ ' ' :: (op.symbol.toList ++ ' ' :: y)

/-- The statement that is an operation on two names. -/
def namesStatement (x y : List Char) (op : Operator) : Statement :=
  .expression (.mk (.mk [] (.leaf (.ident x) .origin))
    (.cons op .origin (.mk [] (.leaf (.ident y) .origin)) .nil) .origin)

theorem parse_onNames {x y : List Char} (hx : isName x = true) (hy : isName y = true)
    (op : Operator) (limit : Nat) : ∃ script, parse limit (onNames x y op) = .ok script ∧
      script.statements.map Statement.bare = [namesStatement x y op].map Statement.bare := by
  have blank : Trivia [' '] := .blank rfl .nil
  have nothing : LaidOut [] [] := .done (by simp [splitTrivia])
  have last := LaidOut.piece blank (spelled_of_isName hy) (by simp) nothing
  rw [List.append_nil] at last
  have later := LaidOut.piece blank (spelled_operator op) ((stops_cons (.inl rfl) _).clear _) last
  have laid := LaidOut.piece .nil (spelled_of_isName hx) ((stops_cons (.inl rfl) _).clear _) later
  exact laid.parse (.last (.expression _)) rfl (by simp)

end Grammar

namespace Compile

variable {ctx : BuildContext} {scope : Scope} {op : Operator} {A B : Ty} {x y : List Char}

/-- A comparison of two variables is built if their types meet or the strategy allows them. -/
theorem exists_buildBinary_iff {a : Arena} {left right : NodeId} (strong : ctx.strongTyping = true)
    (equality : op.isEquality = true) (hl : (a.node? left).isSome) (hr : (a.node? right).isSome)
    (named : a.isLiteral right = false) :
    (∃ built, a.buildBinary ctx op left right = .ok built) ↔
      ((a.egress left).meets ctx.conversions (a.egress right) ||
        ctx.equality.allows (a.egress left) (a.egress right)) = true := by
  obtain ⟨l, hl⟩ := Option.isSome_iff_exists.mp hl
  obtain ⟨r, hr⟩ := Option.isSome_iff_exists.mp hr
  have unadded : op ≠ .add := by
    rintro rfl
    contradiction
  simp only [Arena.buildBinary, hl, hr, Option.isNone_some, Arena.joinBinary, unadded, strong,
    Arena.rightOperand, named, equality, Ty.meets]
  cases (a.egress left).assignableFrom (a.egress right) ||
    (a.egress right).assignableFrom (a.egress left) <;>
  cases Ty.compatible ctx.conversions (a.egress left) (a.egress right) <;>
  cases ctx.equality.allows (a.egress left) (a.egress right) <;> simp

theorem exists_compileStatements_names_iff (strong : ctx.strongTyping = true)
    (equality : op.isEquality = true) (hx : scope.lookup? (String.ofList x) = some A)
    (hy : scope.lookup? (String.ofList y) = some B) :
    (∃ r, compileStatements ctx none scope .empty [Grammar.namesStatement x y op] = .ok r) ↔
      (A.meets ctx.conversions B || ctx.equality.allows A B) = true := by
  let a : Arena := ((Arena.empty.push (.variable (String.ofList x) A) (some .origin)).2.push
    (.variable (String.ofList y) B) (some .origin)).2
  have formula : Formula.ofExpression (.mk (.mk [] (.leaf (.ident x) .origin))
      (.cons op .origin (.mk [] (.leaf (.ident y) .origin)) .nil) .origin) =
        .binary op (.leaf (.ident x) .origin) (.leaf (.ident y) .origin) := rfl
  have built : (Formula.binary op (.leaf (.ident x) .origin) (.leaf (.ident y) .origin)).build ctx
      scope .empty = ofBuilt (a.buildBinary ctx op ⟨0⟩ ⟨1⟩) := by
    simp only [Formula.build, compileLeaf, compileName, hx, hy]
    rfl
  have accepted : (∃ built, a.buildBinary ctx op ⟨0⟩ ⟨1⟩ = .ok built) ↔
      (A.meets ctx.conversions B || ctx.equality.allows A B) = true :=
    exists_buildBinary_iff strong equality rfl rfl rfl
  rw [← accepted]
  constructor
  · rintro ⟨⟨roots, a'⟩, h⟩
    obtain ⟨root, a₁, h, -, -⟩ := compileStatements_single.mp h
    rw [formula, built] at h
    exact ⟨_, ofBuilt_ok h⟩
  · rintro ⟨⟨root, a₁⟩, h⟩
    refine ⟨([root], a₁), compileStatements_single.mpr ⟨root, a₁, ?_, rfl, rfl⟩⟩
    rw [formula, built, h]
    rfl

end Compile

/-- The operation on two names compiles. -/
def Accepts (ctx : BuildContext) (inputs : List (String × Ty)) (debugSymbols : Bool) (limit : Nat)
    (op : Operator) (left right : List Char) : Prop :=
  ∃ p, compile { ctx with source := Grammar.onNames left right op } inputs debugSymbols limit =
    .ok p

section

variable {ctx : BuildContext} {op : Operator} {x y : List Char} {A B : Ty}
  {inputs : List (String × Ty)} {debugSymbols : Bool} {limit : Nat}

theorem accepts_iff (strong : ctx.strongTyping = true) (equality : op.isEquality = true)
    (isName : Grammar.isName x = true) (isName' : Grammar.isName y = true)
    (hx : (Scope.ofInputs inputs).lookup? (String.ofList x) = some A)
    (hy : (Scope.ofInputs inputs).lookup? (String.ofList y) = some B) :
    Accepts ctx inputs debugSymbols limit op x y ↔
      (A.meets ctx.conversions B || ctx.equality.allows A B) = true := by
  obtain ⟨script, parsed, bare⟩ := Grammar.parse_onNames isName isName' op limit
  rw [Accepts, exists_compile_iff parsed bare]
  exact Compile.exists_compileStatements_names_iff strong equality hx hy

/-- Two variables are compared in both orders or in neither, unless the strategy leaves their types
out and one converts to the other and not back: then they are compared with that one on the
right. -/
theorem accepts_one_way_iff (strong : ctx.strongTyping = true)
    (symmetric : ctx.equality.Symmetric) (equality : op.isEquality = true)
    (isName : Grammar.isName x = true) (isName' : Grammar.isName y = true)
    (hx : (Scope.ofInputs inputs).lookup? (String.ofList x) = some A)
    (hy : (Scope.ofInputs inputs).lookup? (String.ofList y) = some B)
    (debugSymbols : Bool) (limit : Nat) :
    (Accepts ctx inputs debugSymbols limit op x y ∧
        ¬ Accepts ctx inputs debugSymbols limit op y x ↔
      ctx.equality.allows A B = false ∧ Ty.OneWay ctx.conversions A B) ∧
    (Accepts ctx inputs debugSymbols limit op y x ∧
        ¬ Accepts ctx inputs debugSymbols limit op x y ↔
      ctx.equality.allows A B = false ∧ Ty.OneWay ctx.conversions B A) := by
  rw [accepts_iff strong equality isName isName' hx hy,
    accepts_iff strong equality isName' isName hy hx, symmetric B A,
    ← Ty.meets_one_way_iff, ← Ty.meets_one_way_iff]
  cases ctx.equality.allows A B <;> simp

end

/-- A decimal is compared with a character on its right, and not on its left. -/
theorem accepts_one_way_decimal :
    Accepts (strict "") [("d", .bigDecimal), ("c", .primitive .char)] false 0 .neq ['d'] ['c'] ∧
      ¬ Accepts (strict "") [("d", .bigDecimal), ("c", .primitive .char)] false 0 .neq ['c']
        ['d'] :=
  (accepts_one_way_iff rfl (fun _ _ => rfl) rfl (by decide) (by decide) rfl rfl false 0).1.mpr
    ⟨rfl, .char rfl rfl rfl rfl⟩

/-- A date is compared with the integer on its right that its handler takes; an integer is not
compared with a date. -/
theorem order_of_equality_matters :
    ∃ (ctx : BuildContext) (inputs : List (String × Ty)), ctx.strongTyping = true ∧
      ctx.equality.Symmetric ∧
      (∃ p, compile { ctx with source := "d == n".toList } inputs false 128 = .ok p) ∧
      ∀ p, compile { ctx with source := "n == d".toList } inputs false 128 ≠ .ok p := by
  let ctx : BuildContext := { strict "" with
    conversions := ConversionRegistry.empty.register "Date" Host.dateHandler }
  let inputs : List (String × Ty) := [("d", .hostClass ⟨"Date", []⟩), ("n", .primitive .int)]
  have accepted : (compile { ctx with source := "d == n".toList } inputs false 128).isOk =
      true := by
    decide +kernel
  have rejected : (compile { ctx with source := "n == d".toList } inputs false 128).isOk =
      false := by
    decide +kernel
  refine ⟨ctx, inputs, rfl, fun _ _ => rfl, ?_, fun p compiled => ?_⟩
  · cases compiled : compile { ctx with source := "d == n".toList } inputs false 128 with
    | ok p => exact ⟨p, rfl⟩
    | error e =>
      rw [compiled] at accepted
      contradiction
  · rw [compiled] at rejected
    contradiction

end Scriptlet
