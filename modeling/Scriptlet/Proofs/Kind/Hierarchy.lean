import Mathlib.Data.List.Chain
import Mathlib.Data.List.Infix
import Mathlib.Data.List.Nodup
import Mathlib.Logic.Relation
import Scriptlet.Kind.Ty

/-!
# The order of the declared classes

A class carries the names of its ancestors, copied from its parent when it is declared, and a
type is assignable from another one when its name is among them. That this is an order rests on
what every declaration keeps (`Founded`): a name has one class, and a class stands on ancestors
that were declared before it.
-/
namespace Scriptlet

theorem Ty.hostClass?_eq_some {t : Ty} {c : ClassType} :
    t.hostClass? = some c ↔ t = .hostClass c := by
  cases t <;> simp [hostClass?]

theorem ClassType.parentName?_below (name : String) (parent : Option ClassType) :
    (below name parent).parentName? = parent.map ClassType.name := by
  cases parent <;> rfl

/-- A call that declares a class. -/
structure Declaration where
  name : String
  parent : Option Ty
  deriving Repr

namespace Declaration

/-- The class that the call makes if its name is new. -/
def made (d : Declaration) : ClassType := .below d.name (d.parent.bind Ty.hostClass?)

/-- The first call for a name. -/
def first? (calls : List Declaration) (name : String) : Option Declaration :=
  calls.find? (·.name == name)

/-- The first call for `child` has a parent class, which is named `parent`. -/
def Extends (calls : List Declaration) (child parent : String) : Prop :=
  ∃ d c, first? calls child = some d ∧ d.parent = some (.hostClass c) ∧ c.name = parent

@[simp] theorem made_name (d : Declaration) : d.made.name = d.name := rfl

theorem first?_cons (d : Declaration) (calls : List Declaration) (name : String) :
    first? (d :: calls) name = if d.name = name then some d else first? calls name := by
  by_cases h : d.name = name <;> simp [first?, h]

theorem parentClass_eq_some {d : Declaration} {c : ClassType} :
    d.parent.bind Ty.hostClass? = some c ↔ d.parent = some (.hostClass c) := by
  simp [Option.bind_eq_some_iff, Ty.hostClass?_eq_some]

theorem made_parentName? (d : Declaration) {parent : String} :
    d.made.parentName? = some parent ↔
      ∃ c, d.parent = some (.hostClass c) ∧ c.name = parent := by
  simp only [made, ClassType.parentName?_below, Option.map_eq_some_iff, parentClass_eq_some]

end Declaration

namespace ClassType

theorem isAncestorOf_iff (a c : ClassType) : a.isAncestorOf c = true ↔ a.name ∈ c.lineage := by
  simp [isAncestorOf]

theorem assignableFrom_iff (a c : ClassType) :
    (Ty.hostClass a).assignableFrom (.hostClass c) = true ↔ a.name ∈ c.lineage := by
  rw [← isAncestorOf_iff, Ty.assignableFrom, Ty.widensFrom, Bool.or_eq_true, beq_iff_eq]
  constructor
  · rintro (h | h)
    · obtain rfl := Ty.hostClass.inj h
      exact isAncestorOf_refl a
    · exact h
  · exact Or.inr

end ClassType

namespace ClassTable

open Declaration

/-- The table after the calls. -/
def declareAll (table : ClassTable) (calls : List Declaration) : ClassTable :=
  calls.foldl (fun table d => (table.declareType d.name d.parent).2) table

/-- The calls, each with the type that it returns. -/
def answers (table : ClassTable) : List Declaration → List (Declaration × Ty)
  | [] => []
  | d :: calls =>
    (d, (table.declareType d.name d.parent).1) ::
      (table.declareType d.name d.parent).2.answers calls

/-- Every parent is a class that is declared at the time of the call, or it is no class. -/
def Grounded (table : ClassTable) : List Declaration → Prop
  | [] => True
  | d :: calls =>
    (∀ c, d.parent = some (.hostClass c) → table.type? c.name = some (.hostClass c)) ∧
      (table.declareType d.name d.parent).2.Grounded calls

/-- The type is one that the table holds. -/
def Declared (table : ClassTable) (t : Ty) : Prop := ∃ name, table.type? name = some t

@[simp] theorem find?_empty (name : String) : empty.find? name = none := rfl

theorem type?_eq_some {table : ClassTable} {name : String} {t : Ty} :
    table.type? name = some t ↔ ∃ c, table.find? name = some c ∧ .hostClass c = t := by
  simp [type?]

theorem name_of_find? {table : ClassTable} {name : String} {c : ClassType}
    (h : table.find? name = some c) : c.name = name := by
  simpa using List.find?_some h

theorem find?_self {table : ClassTable} {name : String} {c : ClassType}
    (h : table.find? name = some c) : table.find? c.name = some c := by
  rwa [name_of_find? h]

/-! ### What a call does, and what all calls do -/

/-- A declared name keeps its class, and a new one gets the class that the call makes. -/
theorem find?_declareType (table : ClassTable) (d : Declaration) (name : String) :
    (table.declareType d.name d.parent).2.find? name =
      (table.find? name).or (if d.name = name then some d.made else none) := by
  cases h : table.find? d.name with
  | some c =>
    have kept : (table.declareType d.name d.parent).2 = table := by
      simp [declareType, declare, h]
    rw [kept]
    split
    next heq => rw [← heq, h]; rfl
    next => rw [Option.or_none]
  | none =>
    have grown : (table.declareType d.name d.parent).2 = ⟨table.classes ++ [d.made]⟩ := by
      simp [declareType, declare, h, made]
    rw [grown, find?, find?, List.find?_append]
    by_cases heq : d.name = name <;> simp [heq]

theorem find?_declareAll (table : ClassTable) (calls : List Declaration) (name : String) :
    (table.declareAll calls).find? name =
      (table.find? name).or ((first? calls name).map made) := by
  induction calls generalizing table with
  | nil => simp [declareAll, first?]
  | cons d calls ih =>
    have step := ih (table.declareType d.name d.parent).2
    rw [find?_declareType, Option.or_assoc] at step
    rw [first?_cons]
    refine step.trans (congrArg _ ?_)
    split <;> simp

/-- From no class at all, the first call for a name decides. -/
theorem find?_declareAll_empty (calls : List Declaration) (name : String) :
    (empty.declareAll calls).find? name = (first? calls name).map made := by
  simp [find?_declareAll]

theorem type?_declareAll {table : ClassTable} (calls : List Declaration) {name : String} {t : Ty}
    (h : table.type? name = some t) : (table.declareAll calls).type? name = some t := by
  obtain ⟨c, hc, rfl⟩ := type?_eq_some.mp h
  simp [type?, find?_declareAll, hc]

theorem type?_declareType_self (table : ClassTable) (d : Declaration) :
    (table.declareType d.name d.parent).2.type? d.name =
      some (table.declareType d.name d.parent).1 := by
  simp [type?, declareType, find?_declare_self]

theorem map_fst_answers (table : ClassTable) (calls : List Declaration) :
    (table.answers calls).map (·.1) = calls := by
  induction calls generalizing table with
  | nil => rfl
  | cons d calls ih => simp [answers, ih]

/-- What a call returns is the type of its name for good. -/
theorem type?_of_mem_answers {table : ClassTable} {calls : List Declaration} {d : Declaration}
    {t : Ty} (h : (d, t) ∈ table.answers calls) :
    (table.declareAll calls).type? d.name = some t := by
  induction calls generalizing table with
  | nil => simp [answers] at h
  | cons e calls ih =>
    rcases List.mem_cons.mp h with heq | h
    · obtain ⟨rfl, rfl⟩ := Prod.mk.inj heq
      exact type?_declareAll calls (type?_declareType_self table d)
    · exact ih h

/-- The type of a name is the answer to the first call for it. -/
theorem type?_eq_answer (calls : List Declaration) (name : String) :
    (empty.declareAll calls).type? name =
      ((empty.answers calls).find? (·.1.name == name)).map (·.2) := by
  cases h : (empty.answers calls).find? (·.1.name == name) with
  | some answer =>
    obtain rfl : answer.1.name = name := by simpa using List.find?_some h
    exact type?_of_mem_answers (List.mem_of_find?_eq_some h)
  | none =>
    have none_first : first? calls name = none := by
      rw [← map_fst_answers empty calls, first?, List.find?_map]
      exact Option.map_eq_none_iff.mpr h
    simp [type?, find?_declareAll_empty, none_first]

/-! ### Ancestors -/

/-- No class is its own ancestor, and the ancestors of a class are its parent, which is declared,
and the ancestors of it. -/
def Founded (table : ClassTable) : Prop :=
  ∀ c, table.find? c.name = some c →
    c.lineage.Nodup ∧
      (c.ancestors = [] ∨ ∃ p, table.find? p.name = some p ∧ c.ancestors = p.lineage)

/-- Induction from the classes without a parent downwards. -/
theorem Founded.induction {table : ClassTable} (h : table.Founded) {P : ClassType → Prop}
    (root : ∀ c, table.find? c.name = some c → c.ancestors = [] → P c)
    (below : ∀ c p, table.find? c.name = some c → table.find? p.name = some p →
      c.ancestors = p.lineage → P p → P c)
    (c : ClassType) (hc : table.find? c.name = some c) : P c := by
  -- the ancestors of the parent are the tail of the class's own
  induction ks : c.ancestors generalizing c with
  | nil => exact root c hc ks
  | cons k ks' ih =>
    obtain hnil | ⟨p, hp, hks⟩ := (h c hc).2
    · simp [hnil] at ks
    · have htail : p.ancestors = ks' := by
        rw [hks, ClassType.lineage] at ks
        exact (List.cons.inj ks).2
      exact below c p hc hp hks (ih p hp htail)

/-- An ancestor is declared, and its lineage is the rest of the class's. -/
theorem Founded.lineage_suffix {table : ClassTable} (h : table.Founded) {c : ClassType}
    (hc : table.find? c.name = some c) {name : String} (hn : name ∈ c.lineage) :
    ∃ a, table.find? name = some a ∧ a.lineage <:+ c.lineage := by
  refine h.induction (P := fun c => name ∈ c.lineage →
    ∃ a, table.find? name = some a ∧ a.lineage <:+ c.lineage) ?root ?below c hc hn
  case root =>
    intro c hc hnil hn
    obtain rfl : name = c.name := by simpa [ClassType.lineage, hnil] using hn
    exact ⟨c, hc, List.suffix_rfl⟩
  case below =>
    intro c p hc _ hks ih hn
    rcases List.mem_cons.mp hn with rfl | hn
    · exact ⟨c, hc, List.suffix_rfl⟩
    · obtain ⟨a, ha, hsuffix⟩ := ih (hks ▸ hn)
      exact ⟨a, ha, hsuffix.trans (hks ▸ List.suffix_cons c.name c.ancestors)⟩

theorem Founded.lineage_suffix_of_mem {table : ClassTable} (h : table.Founded) {a c : ClassType}
    (ha : table.find? a.name = some a) (hc : table.find? c.name = some c)
    (hn : a.name ∈ c.lineage) : a.lineage <:+ c.lineage := by
  obtain ⟨a', ha', hsuffix⟩ := h.lineage_suffix hc hn
  rw [ha, Option.some.injEq] at ha'
  rwa [ha']

theorem Founded.eq_of_mem {table : ClassTable} (h : table.Founded) {a c : ClassType}
    (ha : table.find? a.name = some a) (hc : table.find? c.name = some c)
    (hac : a.name ∈ c.lineage) (hca : c.name ∈ a.lineage) : a = c := by
  have down := h.lineage_suffix_of_mem ha hc hac
  have up := h.lineage_suffix_of_mem hc ha hca
  have same : a.lineage = c.lineage := down.eq_of_length_le up.length_le
  have hname : a.name = c.name := (List.cons.inj same).1
  rw [hname, hc, Option.some.injEq] at ha
  exact ha.symm

theorem founded_empty : empty.Founded := by
  simp [Founded]

/-- One call keeps the table founded. A new name is no ancestor of its parent, since the
ancestors of the parent have classes. -/
theorem Founded.declareType {table : ClassTable} (h : table.Founded) {d : Declaration}
    (hd : ∀ c, d.parent = some (.hostClass c) → table.type? c.name = some (.hostClass c)) :
    (table.declareType d.name d.parent).2.Founded := by
  have keep : ∀ p : ClassType, table.find? p.name = some p →
      (table.declareType d.name d.parent).2.find? p.name = some p := by
    intro p hp
    simp [find?_declareType, hp]
  intro c hc
  rw [find?_declareType] at hc
  cases hold : table.find? c.name with
  | some c' =>
    obtain rfl : c' = c := by simpa [hold] using hc
    obtain ⟨hnodup, hparent⟩ := h c' hold
    exact ⟨hnodup, hparent.imp_right fun ⟨p, hp, hks⟩ => ⟨p, keep p hp, hks⟩⟩
  | none =>
    obtain rfl : d.made = c := by
      rw [hold, Option.none_or] at hc
      split at hc
      · exact Option.some.inj hc
      · cases hc
    cases hp : d.parent.bind Ty.hostClass? with
    | none => simp [made, hp, ClassType.below, ClassType.lineage]
    | some p =>
      have hfind : table.find? p.name = some p := by
        simpa [type?] using hd p (parentClass_eq_some.mp hp)
      have hks : d.made.ancestors = p.lineage := by simp [made, hp, ClassType.below]
      refine ⟨?_, .inr ⟨p, keep p hfind, hks⟩⟩
      rw [ClassType.lineage, hks, List.nodup_cons]
      refine ⟨fun hmem => ?_, (h p hfind).1⟩
      obtain ⟨a, ha, -⟩ := h.lineage_suffix hfind hmem
      rw [hold] at ha
      cases ha

theorem Founded.declareAll {table : ClassTable} (h : table.Founded) {calls : List Declaration}
    (hcalls : table.Grounded calls) : (table.declareAll calls).Founded := by
  induction calls generalizing table with
  | nil => exact h
  | cons d calls ih => exact ih (h.declareType hcalls.1) hcalls.2

/-! ### Ancestors and first declarations -/

section FirstCalls

variable {calls : List Declaration}

theorem extends_iff {c : ClassType} (hc : (empty.declareAll calls).find? c.name = some c)
    {parent : String} : Extends calls c.name parent ↔ c.parentName? = some parent := by
  rw [find?_declareAll_empty] at hc
  obtain ⟨d, hd, rfl⟩ := Option.map_eq_some_iff.mp hc
  rw [made_parentName?, Extends, hd]
  simp

theorem extends_parent {c p : ClassType} (hc : (empty.declareAll calls).find? c.name = some c)
    (hks : c.ancestors = p.lineage) : Extends calls c.name p.name := by
  rw [extends_iff hc, ClassType.parentName?, hks]
  rfl

theorem Founded.isChain_lineage (h : (empty.declareAll calls).Founded) {c : ClassType}
    (hc : (empty.declareAll calls).find? c.name = some c) :
    c.lineage.IsChain (Extends calls) := by
  refine h.induction (P := fun c => c.lineage.IsChain (Extends calls)) ?root ?below c hc
  case root =>
    intro c _ hnil
    simp [ClassType.lineage, hnil]
  case below =>
    intro c p hc _ hks ih
    rw [ClassType.lineage, hks]
    exact ih.cons_cons (extends_parent hc hks)

/-- The chain ends at a class that was declared without a parent. -/
theorem Founded.last_lineage (h : (empty.declareAll calls).Founded) {c : ClassType}
    (hc : (empty.declareAll calls).find? c.name = some c) {last parent : String}
    (hlast : c.lineage.getLast? = some last) : ¬ Extends calls last parent := by
  refine h.induction (P := fun c => c.lineage.getLast? = some last → ¬ Extends calls last parent)
    ?root ?below c hc hlast
  case root =>
    intro c hc hnil hlast
    obtain rfl : c.name = last := by simpa [ClassType.lineage, hnil] using hlast
    simp [extends_iff hc, ClassType.parentName?, hnil]
  case below =>
    intro c p _ _ hks ih hlast
    refine ih ?_
    rw [ClassType.lineage, hks, ClassType.lineage, List.getLast?_cons_cons] at hlast
    exact hlast

/-- The lineage of a class is what the parents of the first calls lead to. -/
theorem Founded.mem_lineage_iff (h : (empty.declareAll calls).Founded) {c : ClassType}
    (hc : (empty.declareAll calls).find? c.name = some c) {name : String} :
    name ∈ c.lineage ↔ Relation.ReflTransGen (Extends calls) c.name name := by
  constructor
  · refine h.induction (P := fun c => name ∈ c.lineage →
      Relation.ReflTransGen (Extends calls) c.name name) ?root ?below c hc
    case root =>
      intro c _ hnil hn
      obtain rfl : name = c.name := by simpa [ClassType.lineage, hnil] using hn
      exact .refl
    case below =>
      intro c p hc _ hks ih hn
      rcases List.mem_cons.mp hn with rfl | hn
      · exact .refl
      · exact .head (extends_parent hc hks) (ih (hks ▸ hn))
  · intro hreach
    induction hreach with
    | refl => exact List.mem_cons_self
    | tail _ hstep ih =>
      obtain ⟨a, ha, hsuffix⟩ := h.lineage_suffix hc ih
      obtain rfl := name_of_find? ha
      have hparent := (extends_iff ha).mp hstep
      exact hsuffix.subset (List.mem_cons_of_mem _ (List.mem_of_mem_head? hparent))

end FirstCalls

/-- Declared classes are a stable partial order. -/
theorem declared_order (calls : List Declaration) (h : empty.Grounded calls) :
    -- a name has the type that the first call for it returned, as has every other call for it
    (∀ name, (empty.declareAll calls).type? name =
      ((empty.answers calls).find? (·.1.name == name)).map (·.2)) ∧
    (∀ d t, (d, t) ∈ empty.answers calls → (empty.declareAll calls).type? d.name = some t) ∧
    -- further calls, with any parents, keep the types
    (∀ later name t, (empty.declareAll calls).type? name = some t →
      ((empty.declareAll calls).declareAll later).type? name = some t) ∧
    -- the parents of a class are a chain without repetition that comes to its end
    (∀ name t, (empty.declareAll calls).type? name = some t →
      ∃ c, t = .hostClass c ∧ c.name = name ∧ c.lineage.Nodup ∧
        c.lineage.IsChain (Extends calls) ∧
        ∀ last parent, c.lineage.getLast? = some last → ¬ Extends calls last parent) ∧
    -- assignability
    (∀ a, (empty.declareAll calls).Declared a → a.assignableFrom a = true) ∧
    (∀ a b c, (empty.declareAll calls).Declared a → (empty.declareAll calls).Declared b →
      (empty.declareAll calls).Declared c → a.assignableFrom b = true →
      b.assignableFrom c = true → a.assignableFrom c = true) ∧
    (∀ a b, (empty.declareAll calls).Declared a → (empty.declareAll calls).Declared b →
      a.assignableFrom b = true → b.assignableFrom a = true → a = b) ∧
    (∀ m n a b, (empty.declareAll calls).type? m = some a →
      (empty.declareAll calls).type? n = some b →
      (a.assignableFrom b = true ↔ Relation.ReflTransGen (Extends calls) n m)) := by
  have hf := founded_empty.declareAll h
  have class_of : ∀ {t}, (empty.declareAll calls).Declared t →
      ∃ c, (empty.declareAll calls).find? c.name = some c ∧ .hostClass c = t := by
    rintro t ⟨name, hname⟩
    obtain ⟨c, hc, rfl⟩ := type?_eq_some.mp hname
    exact ⟨c, find?_self hc, rfl⟩
  refine ⟨type?_eq_answer calls, fun _ _ => type?_of_mem_answers,
    fun later _ _ => type?_declareAll later, ?chain, fun a _ => a.assignableFrom_refl,
    ?trans, ?antisymm, ?along⟩
  case chain =>
    intro name t ht
    obtain ⟨c, hc, rfl⟩ := type?_eq_some.mp ht
    have hself := find?_self hc
    exact ⟨c, rfl, name_of_find? hc, (hf c hself).1, hf.isChain_lineage hself,
      fun _ _ => hf.last_lineage hself⟩
  case trans =>
    intro ta tb tc hta htb htc hab hbc
    obtain ⟨a, -, rfl⟩ := class_of hta
    obtain ⟨b, hb, rfl⟩ := class_of htb
    obtain ⟨c, hc, rfl⟩ := class_of htc
    rw [ClassType.assignableFrom_iff] at hab hbc ⊢
    exact (hf.lineage_suffix_of_mem hb hc hbc).subset hab
  case antisymm =>
    intro ta tb hta htb hab hba
    obtain ⟨a, ha, rfl⟩ := class_of hta
    obtain ⟨b, hb, rfl⟩ := class_of htb
    rw [ClassType.assignableFrom_iff] at hab hba
    rw [hf.eq_of_mem ha hb hab hba]
  case along =>
    intro m n ta tb hta htb
    obtain ⟨a, ha, rfl⟩ := type?_eq_some.mp hta
    obtain ⟨b, hb, rfl⟩ := type?_eq_some.mp htb
    rw [ClassType.assignableFrom_iff, hf.mem_lineage_iff (find?_self hb), name_of_find? ha,
      name_of_find? hb]

/-- Classes of shapes, with a parent that is no class, and a call that comes too late to put the
first class under the last one. -/
def shapes : List Declaration :=
  [⟨"Shape", some (.primitive .int)⟩,
    ⟨"Circle", some (.hostClass ⟨"Shape", []⟩)⟩,
    ⟨"UnitCircle", some (.hostClass ⟨"Circle", ["Shape"]⟩)⟩,
    ⟨"Shape", some (.hostClass ⟨"UnitCircle", ["Circle", "Shape"]⟩)⟩]

theorem declared_order_shapes :
    empty.Grounded shapes ∧
      (empty.declareAll shapes).type? "Shape" = some (.hostClass ⟨"Shape", []⟩) ∧
      Relation.ReflTransGen (Extends shapes) "UnitCircle" "Shape" ∧
      ¬ Relation.ReflTransGen (Extends shapes) "Shape" "UnitCircle" := by
  have grounded : empty.Grounded shapes := by
    simp [shapes, Grounded, declareType, declare, type?, find?, ClassType.below, empty,
      ClassType.lineage, Ty.hostClass?]
  have order := declared_order shapes grounded
  have shape : (empty.declareAll shapes).type? "Shape" = some (.hostClass ⟨"Shape", []⟩) := by
    rw [order.1]
    rfl
  have unit : (empty.declareAll shapes).type? "UnitCircle" =
      some (.hostClass ⟨"UnitCircle", ["Circle", "Shape"]⟩) := by
    rw [order.1]
    rfl
  obtain ⟨-, -, -, -, -, -, -, along⟩ := order
  refine ⟨grounded, shape, (along _ _ _ _ shape unit).mp (by decide), fun h => ?_⟩
  have := (along _ _ _ _ unit shape).mpr h
  revert this
  decide

end ClassTable

end Scriptlet
