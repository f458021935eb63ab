import Scriptlet.Proofs.Compile.Reflow
import Scriptlet.Proofs.Source.Slices
import Scriptlet.Proofs.Grammar.Groups

/-!
# The shape of an arena

In a well-shaped arena a node has its operands before it, none of them is an operand a second
time, and the spans lie as the nodes do: an operand inside of the operation on it, and the right
one after the left one.
-/
namespace Scriptlet.Arena

/-- The operands of all nodes. -/
def held (a : Arena) : List NodeId := a.nodes.flatMap Node.operands

/-- Every node has a solid span of the source, and holds operands that lie in it and that no other
node holds. -/
structure Shaped (source : List Char) (a : Arena) : Prop where
  ordered : a.Ordered
  held_once : a.held.Nodup
  spans : ∀ id node, a.node? id = some node → ∃ s, a.span? id = some s ∧ s.Solid source
  within : ∀ id node, a.node? id = some node → ∀ x ∈ node.operands,
    ∃ s t, a.span? id = some s ∧ a.span? x = some t ∧ t.Within s
  apart : ∀ id b, a.node? id = some (.binary b) →
    ∃ l r, a.span? b.left = some l ∧ a.span? b.right = some r ∧ l.stop ≤ r.start

variable {source : List Char} {a a' a'' : Arena} {id x : NodeId} {node : Node}

/-! ## Held nodes -/

theorem held_push (a : Arena) (node : Node) (span : Option Span) :
    (a.push node span).2.held = a.held ++ node.operands := by
  rw [held, nodes_push, List.flatMap_append, List.flatMap_singleton]
  rfl

theorem held_congr (same : a'.nodes = a.nodes) : a'.held = a.held := by
  rw [held, held, same]

theorem mem_held : x ∈ a.held ↔ ∃ id node, a.node? id = some node ∧ x ∈ node.operands := by
  rw [held, List.mem_flatMap]
  constructor
  · rintro ⟨node, hnode, hx⟩
    obtain ⟨i, hi⟩ := List.mem_iff_getElem?.mp hnode
    exact ⟨⟨i⟩, node, (node?_eq a ⟨i⟩).trans hi, hx⟩
  · rintro ⟨id, node, hnode, hx⟩
    rw [node?_eq] at hnode
    exact ⟨node, List.mem_of_getElem? hnode, hx⟩

/-- The last node is not held. -/
theorem Ordered.last_not_held (ha : a.Ordered) (last : id.index + 1 = a.size) : id ∉ a.held := by
  intro h
  obtain ⟨holder, node, hnode, hx⟩ := mem_held.mp h
  have := ha holder node hnode id hx
  have := index_lt_size hnode
  omega

theorem index_lt_of_span? {span : Span} (h : a.span? id = some span) : id.index < a.size := by
  obtain ⟨cell, hcell, -⟩ := Option.bind_eq_some_iff.mp h
  exact (Array.getElem?_eq_some_iff.mp hcell).1

theorem Grows.span? {span : Span} (h : a.Grows a') (hs : a.span? id = some span) :
    a'.span? id = some span := by
  rw [h.span?_eq id (index_lt_of_span? hs), hs]

/-! ## Well-shaped arenas -/

theorem Shaped.empty (source : List Char) : Arena.empty.Shaped source := by
  have none (id : NodeId) : Arena.empty.node? id = none := by simp [Arena.node?, cell?, Arena.empty]
  refine ⟨.empty, ?_, ?_, ?_, ?_⟩
  · exact List.nodup_nil
  all_goals simp [none]

/-- All spans of a well-shaped arena are solid. -/
theorem Shaped.solid (h : a.Shaped source) {span : Span} (hs : a.span? id = some span) :
    span.Solid source := by
  obtain ⟨node, hnode⟩ := node?_isSome (index_lt_of_span? hs)
  obtain ⟨own, hown, solid⟩ := h.spans id node hnode
  obtain rfl := Option.some.inj (hs.symm.trans hown)
  exact solid

theorem eq_or_of_node?_push {span : Option Span} (h : (a.push node span).2.node? id = some n) :
    a.node? id = some n ∨ (id = ⟨a.size⟩ ∧ n = node) := by
  by_cases hid : id.index < a.size
  · exact .inl ((a.grows_push node span).node?_eq id hid ▸ h)
  · have hlt := index_lt_size h
    rw [size_push] at hlt
    obtain rfl : id = ⟨a.size⟩ := by
      cases id
      simp only [NodeId.mk.injEq] at hid hlt ⊢
      omega
    rw [node?_push] at h
    exact .inr ⟨rfl, (Option.some.inj h).symm⟩

/-- What a new node needs: a solid span around its operands, which nothing holds yet. -/
structure Fits (source : List Char) (a : Arena) (node : Node) (span : Span) : Prop where
  solid : span.Solid source
  within : ∀ x ∈ node.operands, ∃ t, a.span? x = some t ∧ t.Within span
  apart : ∀ b, node = .binary b →
    ∃ l r, a.span? b.left = some l ∧ a.span? b.right = some r ∧ l.stop ≤ r.start
  free : ∀ x ∈ node.operands, x ∉ a.held
  distinct : node.operands.Nodup

theorem Shaped.push (h : a.Shaped source) {span : Span} (fits : a.Fits source node span) :
    (a.push node (some span)).2.Shaped source := by
  have grows := a.grows_push node (some span)
  have own := a.span?_push node (some span)
  have before : ∀ x ∈ node.operands, x.index < a.size := fun x hx => by
    obtain ⟨t, ht, -⟩ := fits.within x hx
    exact index_lt_of_span? ht
  refine ⟨h.ordered.push before _, ?_, ?_, ?_, ?_⟩
  · rw [held_push]
    refine List.nodup_append.mpr ⟨h.held_once, fits.distinct, fun x hx y hy => ?_⟩
    rintro rfl
    exact fits.free x hy hx
  · intro id n hn
    rcases eq_or_of_node?_push hn with hn | ⟨rfl, rfl⟩
    · obtain ⟨s, hs, solid⟩ := h.spans id n hn
      exact ⟨s, grows.span? hs, solid⟩
    · exact ⟨span, own, fits.solid⟩
  · intro id n hn x hx
    rcases eq_or_of_node?_push hn with hn | ⟨rfl, rfl⟩
    · obtain ⟨s, t, hs, ht, within⟩ := h.within id n hn x hx
      exact ⟨s, t, grows.span? hs, grows.span? ht, within⟩
    · obtain ⟨t, ht, within⟩ := fits.within x hx
      exact ⟨span, t, own, grows.span? ht, within⟩
  · intro id b hn
    have sides : ∃ l r, a.span? b.left = some l ∧ a.span? b.right = some r ∧
        l.stop ≤ r.start := by
      rcases eq_or_of_node?_push hn with hn | ⟨rfl, hb⟩
      · exact h.apart id b hn
      · exact fits.apart b hb.symm
    obtain ⟨l, r, hl, hr, apart⟩ := sides
    exact ⟨l, r, grows.span? hl, grows.span? hr, apart⟩

theorem Fits.leaf {span : Span} (solid : span.Solid source) (leaf : node.operands = []) :
    a.Fits source node span where
  solid := solid
  within := by simp [leaf]
  apart b hb := by
    subst hb
    cases leaf
  free := by simp [leaf]
  distinct := by simp [leaf]

theorem Fits.over {span t : Span} (solid : span.Solid source) (operand : node.operands = [x])
    (ht : a.span? x = some t) (within : t.Within span) (free : x ∉ a.held) :
    a.Fits source node span where
  solid := solid
  within := by simpa [operand] using ⟨t, ht, within⟩
  apart b hb := by
    subst hb
    cases operand
  free := by simpa [operand] using free
  distinct := by simp [operand]

theorem Fits.join {b : BinaryNode} {l r : Span} (hl : a.span? b.left = some l)
    (hr : a.span? b.right = some r) (solidLeft : l.Solid source) (solidRight : r.Solid source)
    (apart : l.stop ≤ r.start) (freeLeft : b.left ∉ a.held) (freeRight : b.right ∉ a.held)
    (ne : b.left ≠ b.right) : a.Fits source (.binary b) (l.combine r) where
  solid := by
    have := solidLeft.present
    have := solidRight.present
    exact solidLeft.combine solidRight (by omega)
  within x hx := by
    have := solidLeft.present
    have := solidRight.present
    rcases List.mem_pair.mp hx with rfl | rfl
    · exact ⟨l, hl, Nat.le_refl _, by simp only [Span.combine]; omega⟩
    · exact ⟨r, hr, by simp only [Span.combine]; omega, Nat.le_refl _⟩
  apart b' hb := by
    cases hb
    exact ⟨l, r, hl, hr, apart⟩
  free x hx := by
    rcases List.mem_pair.mp hx with rfl | rfl
    · exact freeLeft
    · exact freeRight
  distinct := by simpa [Node.operands] using ne

/-- Locations do not matter. -/
theorem Shaped.of_grows (h : a.Shaped source) (grows : a.Grows a') (same : a'.nodes = a.nodes) :
    a'.Shaped source := by
  have size : a'.size = a.size := size_congr same
  have nodes (id : NodeId) : a'.node? id = a.node? id := node?_congr same id
  refine ⟨grows.ordered size h.ordered, held_congr same ▸ h.held_once, ?_, ?_, ?_⟩
  · intro id node hn
    obtain ⟨s, hs, solid⟩ := h.spans id node (nodes id ▸ hn)
    exact ⟨s, grows.span? hs, solid⟩
  · intro id node hn x hx
    obtain ⟨s, t, hs, ht, within⟩ := h.within id node (nodes id ▸ hn) x hx
    exact ⟨s, t, grows.span? hs, grows.span? ht, within⟩
  · intro id b hn
    obtain ⟨l, r, hl, hr, apart⟩ := h.apart id b (nodes id ▸ hn)
    exact ⟨l, r, grows.span? hl, grows.span? hr, apart⟩

/-! ## What construction adds -/

/-- The new nodes hold none of the old ones, and no other nodes than the roots assign. -/
structure Adds (a : Arena) (roots : List NodeId) (a' : Arena) : Prop where
  held : ∃ later, a'.held = a.held ++ later ∧ ∀ x ∈ later, a.size ≤ x.index
  assigns : ∀ id name value ty, a'.node? id = some (.assign name value ty) →
    id.index < a.size ∨ id ∈ roots

theorem Adds.refl (a : Arena) : a.Adds [] a where
  held := ⟨[], (List.append_nil _).symm, by simp⟩
  assigns _ _ _ _ hn := .inl (index_lt_size hn)

theorem Adds.trans {roots roots' : List NodeId} (h : a.Adds roots a') (k : a'.Adds roots' a'')
    (grows : a.Grows a') (grows' : a'.Grows a'') : a.Adds (roots ++ roots') a'' where
  held := by
    obtain ⟨later, heq, after⟩ := h.held
    obtain ⟨later', heq', after'⟩ := k.held
    refine ⟨later ++ later', by rw [heq', heq, List.append_assoc], ?_⟩
    exact List.forall_mem_append.mpr
      ⟨after, fun x hx => Nat.le_trans grows.size_le (after' x hx)⟩
  assigns id name value ty hn := by
    rcases k.assigns id name value ty hn with hlt | hmem
    · rw [grows'.node?_eq id hlt] at hn
      exact (h.assigns id name value ty hn).imp_right (List.mem_append_left _)
    · exact .inr (List.mem_append_right _ hmem)

/-- Old nodes that were free stay free. -/
theorem Adds.not_held {roots : List NodeId} (h : a.Adds roots a') (free : x ∉ a.held)
    (old : x.index < a.size) : x ∉ a'.held := by
  obtain ⟨later, heq, after⟩ := h.held
  rw [heq, List.mem_append]
  rintro (hx | hx)
  · exact free hx
  · have := after x hx
    omega

theorem Adds.push (h : a.Adds [] a') {roots : List NodeId} {span : Option Span}
    (later : ∀ x ∈ node.operands, a.size ≤ x.index)
    (assigns : ∀ name value ty, node = .assign name value ty → ⟨a'.size⟩ ∈ roots) :
    a.Adds roots (a'.push node span).2 where
  held := by
    obtain ⟨front, heq, after⟩ := h.held
    refine ⟨front ++ node.operands, by rw [held_push, heq, List.append_assoc], ?_⟩
    exact List.forall_mem_append.mpr ⟨after, later⟩
  assigns id name value ty hn := by
    rcases eq_or_of_node?_push hn with hn | ⟨rfl, heq⟩
    · exact (h.assigns id name value ty hn).imp_right (by simp)
    · exact .inr (assigns name value ty heq.symm)

/-- What statements add: trees whose roots rise and are held by none. -/
structure Rooted (source : List Char) (a : Arena) (roots : List NodeId) (a' : Arena) : Prop where
  shaped : a'.Shaped source
  grows : a.Grows a'
  adds : a.Adds roots a'
  low : ∀ r ∈ roots, a.size ≤ r.index
  within : ∀ r ∈ roots, r.index < a'.size
  free : ∀ r ∈ roots, r ∉ a'.held
  rise : roots.Pairwise (·.index < ·.index)

theorem Rooted.nil (h : a.Shaped source) : a.Rooted source [] a where
  shaped := h
  grows := .refl a
  adds := .refl a
  low := by simp
  within := by simp
  free := by simp
  rise := .nil

theorem Rooted.single (shaped : a'.Shaped source) (grows : a.Grows a') (adds : a.Adds [id] a')
    (low : a.size ≤ id.index) (last : id.index + 1 = a'.size) : a.Rooted source [id] a' where
  shaped := shaped
  grows := grows
  adds := adds
  low := by simpa using low
  within := by
    simp only [List.mem_singleton, forall_eq]
    omega
  free := by simpa using shaped.ordered.last_not_held last
  rise := List.pairwise_singleton _ _

theorem Rooted.append {roots roots' : List NodeId} (h : a.Rooted source roots a')
    (k : a'.Rooted source roots' a'') : a.Rooted source (roots ++ roots') a'' where
  shaped := k.shaped
  grows := h.grows.trans k.grows
  adds := h.adds.trans k.adds h.grows k.grows
  low := List.forall_mem_append.mpr
    ⟨h.low, fun r hr => Nat.le_trans h.grows.size_le (k.low r hr)⟩
  within := List.forall_mem_append.mpr
    ⟨fun r hr => Nat.lt_of_lt_of_le (h.within r hr) k.grows.size_le, k.within⟩
  free := List.forall_mem_append.mpr
    ⟨fun r hr => k.adds.not_held (h.free r hr) (h.within r hr), k.free⟩
  rise := List.pairwise_append.mpr ⟨h.rise, k.rise, fun r hr r' hr' =>
    Nat.lt_of_lt_of_le (h.within r hr) (k.low r' hr')⟩

theorem Rooted.of_grows {roots : List NodeId} (h : a.Rooted source roots a')
    (grows : a'.Grows a'') (same : a''.nodes = a'.nodes) : a.Rooted source roots a'' := by
  refine ⟨h.shaped.of_grows grows same, h.grows.trans grows, ⟨?_, ?_⟩, h.low, ?_, ?_, h.rise⟩
  · exact held_congr same ▸ h.adds.held
  · intro id name value ty hn
    exact h.adds.assigns id name value ty (node?_congr same id ▸ hn)
  · exact fun r hr => Nat.lt_of_lt_of_le (h.within r hr) grows.size_le
  · exact held_congr same ▸ h.free

end Scriptlet.Arena
