import Scriptlet.Proofs.Node.Order

/-!
# Growing arenas

Building only appends nodes, so what stands in an arena still stands in the arenas that grow from
it, and so do the orders of its trees. A tree that is `Planted` has places of its own: no node of
it is older than a bound, and none is there twice.
-/
namespace Scriptlet.Arena

/-- The nodes of the first arena stand in the second one, with their spans. -/
structure Grows (a a' : Arena) : Prop where
  size_le : a.size ≤ a'.size
  node?_eq : ∀ id : NodeId, id.index < a.size → a'.node? id = a.node? id
  span?_eq : ∀ id : NodeId, id.index < a.size → a'.span? id = a.span? id

theorem Grows.refl (a : Arena) : a.Grows a := ⟨Nat.le_refl _, fun _ _ => rfl, fun _ _ => rfl⟩

theorem Grows.trans {a a' a'' : Arena} (h : a.Grows a') (k : a'.Grows a'') : a.Grows a'' where
  size_le := Nat.le_trans h.size_le k.size_le
  node?_eq id hid := by
    rw [k.node?_eq id (Nat.lt_of_lt_of_le hid h.size_le), h.node?_eq id hid]
  span?_eq id hid := by
    rw [k.span?_eq id (Nat.lt_of_lt_of_le hid h.size_le), h.span?_eq id hid]

theorem Grows.node? {a a' : Arena} (h : a.Grows a') {id : NodeId} {node : Node}
    (hn : a.node? id = some node) : a'.node? id = some node := by
  rw [h.node?_eq id (index_lt_size hn), hn]

theorem grows_push (a : Arena) (node : Node) (span : Option Span) :
    a.Grows (a.push node span).2 where
  size_le := by simp [size_push]
  node?_eq id hid := by rw [Arena.node?, Arena.node?, cell?_push_of_lt a node span hid]
  span?_eq id hid := by rw [Arena.span?, Arena.span?, cell?_push_of_lt a node span hid]

theorem node?_push (a : Arena) (node : Node) (span : Option Span) :
    (a.push node span).2.node? ⟨a.size⟩ = some node := by
  have hid : (⟨a.size⟩ : NodeId) = (a.push node span).1 := rfl
  rw [Arena.node?, cell?_push, if_pos hid]
  rfl

theorem node?_of_eq_push {a a' : Arena} {id : NodeId} {node : Node} {span : Option Span}
    (h : (id, a') = a.push node span) : a'.node? id = some node := by
  obtain ⟨rfl, rfl⟩ := Prod.mk.inj h
  exact a.node?_push node span

theorem span?_push (a : Arena) (node : Node) (span : Option Span) :
    (a.push node span).2.span? ⟨a.size⟩ = span := by
  have hid : (⟨a.size⟩ : NodeId) = (a.push node span).1 := rfl
  rw [Arena.span?, cell?_push, if_pos hid]
  rfl

/-- What was appended last stands in all later arenas. -/
theorem Grows.pushed {a a' : Arena} {node : Node} {span : Option Span}
    (h : (a.push node span).2.Grows a') :
    a'.node? ⟨a.size⟩ = some node ∧ a'.span? ⟨a.size⟩ = span := by
  have hn := a.node?_push node span
  exact ⟨h.node? hn, by rw [h.span?_eq _ (index_lt_size hn), span?_push]⟩

theorem cell?_setLocation (a : Arena) (id x : NodeId) (l : Location) :
    (a.setLocation id l).cell? x =
      if id = x then (a.cell? x).map ({ · with location := some l }) else a.cell? x := by
  obtain ⟨i⟩ := id
  obtain ⟨j⟩ := x
  simp [setLocation, modify, cell?, Array.getElem?_modify]

/-- A location changes nothing else. -/
theorem grows_setLocation (a : Arena) (id : NodeId) (l : Location) :
    a.Grows (a.setLocation id l) where
  size_le := by simp [size, setLocation, modify]
  node?_eq x _ := by
    rw [Arena.node?, Arena.node?, cell?_setLocation]
    split <;> simp [Function.comp_def]
  span?_eq x _ := by
    rw [Arena.span?, Arena.span?, cell?_setLocation]
    split
    · cases a.cell? x <;> rfl
    · rfl

theorem size_setLocation (a : Arena) (id : NodeId) (l : Location) :
    (a.setLocation id l).size = a.size := by
  simp [size, setLocation, modify]

/-! ## Orders in growing arenas -/

theorem Ordered.empty : Arena.empty.Ordered := by
  intro id node h
  simp [Arena.node?, cell?, Arena.empty] at h

theorem Ordered.push {a : Arena} (ha : a.Ordered) {node : Node}
    (h : ∀ x ∈ node.operands, x.index < a.size) (span : Option Span) :
    (a.push node span).2.Ordered := by
  intro id n hn x hx
  by_cases hid : id.index < a.size
  · rw [(a.grows_push node span).node?_eq id hid] at hn
    exact ha id n hn x hx
  · have hlt := index_lt_size hn
    rw [size_push] at hlt
    obtain rfl : id = ⟨a.size⟩ := by
      cases id
      simp only [NodeId.mk.injEq] at hid hlt ⊢
      omega
    rw [node?_push] at hn
    obtain rfl := Option.some.inj hn
    exact h x hx

theorem Ordered.push_pair {a : Arena} (ha : a.Ordered) {left right : NodeId} {node : Node}
    (hn : node.operands = [left, right]) (hl : left.index < a.size) (hr : right.index < a.size)
    (span : Option Span) : (a.push node span).2.Ordered := by
  refine ha.push (fun x hx => ?_) span
  rw [hn] at hx
  rcases List.mem_pair.mp hx with rfl | rfl <;> assumption

theorem Grows.ordered {a a' : Arena} (h : a.Grows a') (size : a'.size = a.size) (ha : a.Ordered) :
    a'.Ordered := by
  intro id node hn
  have hid : id.index < a.size := size ▸ index_lt_size hn
  rw [h.node?_eq id hid] at hn
  exact ha id node hn

/-- The order of a tree stays as the arena grows. -/
theorem Grows.order_eq {a a' : Arena} (h : a.Grows a') (ha : a.Ordered) (ha' : a'.Ordered)
    {id : NodeId} (hid : id.index < a.size) : a'.order id = a.order id := by
  induction hi : id.index using Nat.strongRecOn generalizing id with
  | ind i ih =>
    subst hi
    obtain ⟨node, hn⟩ := node?_isSome hid
    rw [Arena.order_eq ha hn, Arena.order_eq ha' (h.node? hn)]
    have operands : node.operands.flatMap a'.order = node.operands.flatMap a.order := by
      refine List.flatMap_congr fun x hx => ?_
      have hlt := ha id node hn x hx
      exact ih x.index hlt (Nat.lt_trans hlt hid) rfl
    rw [operands]

/-- The static type of a node stays as the arena grows. -/
theorem Grows.egress_eq {a a' : Arena} (h : a.Grows a') (ha : a.Ordered) (ha' : a'.Ordered)
    {id : NodeId} (hid : id.index < a.size) : a'.egress id = a.egress id := by
  induction hi : id.index using Nat.strongRecOn generalizing id with
  | ind i ih =>
    subst hi
    obtain ⟨node, hn⟩ := node?_isSome hid
    rw [Arena.egress_eq ha hn, Arena.egress_eq ha' (h.node? hn)]
    cases node with
    | group inner =>
      have hlt := ha id _ hn inner (by simp [Node.operands])
      exact ih inner.index hlt (Nat.lt_trans hlt hid) rfl
    | _ => rfl

theorem le_of_mem_order {a : Arena} (ha : a.Ordered) {id x : NodeId} (h : x ∈ a.order id) :
    x.index ≤ id.index := by
  induction hi : id.index using Nat.strongRecOn generalizing id with
  | ind i ih =>
    subst hi
    cases hn : a.node? id with
    | none =>
      cases hs : a.size <;> simp [order, orderWithin, hn, hs] at h
    | some node =>
      rw [Arena.order_eq ha hn, List.mem_cons, List.mem_flatMap] at h
      rcases h with rfl | ⟨y, hy, hx⟩
      · exact Nat.le_refl _
      · have hlt := ha id node hn y hy
        exact Nat.le_of_lt (Nat.lt_of_le_of_lt (ih y.index hlt hx rfl) hlt)

/-! ## Trees with places of their own -/

/-- The last node of an arena and the nodes below it, all from the place `low` on and all
different. -/
structure Planted (low : Nat) (id : NodeId) (a : Arena) : Prop where
  ordered : a.Ordered
  last : id.index + 1 = a.size
  low_le : ∀ x ∈ a.order id, low ≤ x.index
  nodup : (a.order id).Nodup

theorem Planted.mono {low low' : Nat} {id : NodeId} {a : Arena} (h : Planted low id a)
    (hle : low' ≤ low) : Planted low' id a :=
  ⟨h.ordered, h.last, fun x hx => Nat.le_trans hle (h.low_le x hx), h.nodup⟩

theorem Planted.index_lt {low : Nat} {id : NodeId} {a : Arena} (h : Planted low id a) :
    id.index < a.size := by
  have := h.last
  omega

theorem Planted.low_le_root {low : Nat} {id : NodeId} {a : Arena} (h : Planted low id a) :
    low ≤ id.index := by
  obtain ⟨node, hroot⟩ := node?_isSome h.index_lt
  exact h.low_le id (by simp [order_eq h.ordered hroot])

/-- A node on top of trees that stand one after another. -/
theorem planted_push {a : Arena} {low : Nat} {node : Node} (ha : a.Ordered)
    (within : ∀ x ∈ node.operands, x.index < a.size) (hlow : low ≤ a.size)
    (low_le : ∀ x ∈ node.operands.flatMap a.order, low ≤ x.index)
    (nodup : (node.operands.flatMap a.order).Nodup) (span : Option Span) :
    Planted low ⟨a.size⟩ (a.push node span).2 := by
  have ordered : (a.push node span).2.Ordered := ha.push within span
  have order : (a.push node span).2.order ⟨a.size⟩ =
      ⟨a.size⟩ :: node.operands.flatMap a.order := by
    rw [order_eq ordered (a.node?_push node span)]
    have operands : node.operands.flatMap (a.push node span).2.order =
        node.operands.flatMap a.order :=
      List.flatMap_congr fun x hx => (a.grows_push node span).order_eq ha ordered (within x hx)
    rw [operands]
  refine ⟨ordered, by simp [size_push], ?_, ?_⟩
  · rw [order]
    intro x hx
    rcases List.mem_cons.mp hx with rfl | hx
    · exact hlow
    · exact low_le x hx
  · rw [order, List.nodup_cons]
    refine ⟨fun hmem => ?_, nodup⟩
    obtain ⟨y, hy, hx⟩ := List.mem_flatMap.mp hmem
    have := le_of_mem_order ha hx
    have := within y hy
    simp only at *
    omega

theorem planted_leaf {a : Arena} (ha : a.Ordered) {node : Node} (h : node.operands = [])
    (span : Option Span) : Planted a.size ⟨a.size⟩ (a.push node span).2 := by
  refine planted_push ha ?_ (Nat.le_refl _) ?_ ?_ span <;> simp [h]

theorem Planted.over {low : Nat} {id : NodeId} {a : Arena} (h : Planted low id a) {node : Node}
    (hn : node.operands = [id]) (span : Option Span) :
    Planted low ⟨a.size⟩ (a.push node span).2 := by
  refine planted_push h.ordered ?_ ?_ ?_ ?_ span
  · simpa [hn] using h.index_lt
  · exact Nat.le_trans h.low_le_root (Nat.le_of_lt h.index_lt)
  · simpa [hn] using h.low_le
  · simpa [hn] using h.nodup

/-- An operation on two trees, the right one planted after the left one. -/
theorem Planted.join {low : Nat} {left right : NodeId} {a a' : Arena} (hl : Planted low left a)
    (h : a.Grows a') (hr : Planted a.size right a') {node : Node}
    (hn : node.operands = [left, right]) (span : Option Span) :
    Planted low ⟨a'.size⟩ (a'.push node span).2 := by
  have order : a'.order left = a.order left := h.order_eq hl.ordered hr.ordered hl.index_lt
  have hlow := hl.low_le_root
  have hsize := hl.index_lt
  have hgrow := h.size_le
  refine planted_push hr.ordered ?_ ?_ ?_ ?_ span
  · intro x hx
    rw [hn] at hx
    rcases List.mem_pair.mp hx with rfl | rfl
    · exact Nat.lt_of_lt_of_le hl.index_lt h.size_le
    · exact hr.index_lt
  · omega
  · intro x hx
    simp only [hn, List.flatMap_cons, List.flatMap_nil, List.append_nil, List.mem_append,
      order] at hx
    rcases hx with hx | hx
    · exact hl.low_le x hx
    · have := hr.low_le x hx
      omega
  · simp only [hn, List.flatMap_cons, List.flatMap_nil, List.append_nil, order]
    refine List.nodup_append.mpr ⟨hl.nodup, hr.nodup, fun x hx y hy => ?_⟩
    rintro rfl
    have := le_of_mem_order hl.ordered hx
    have := hr.low_le x hy
    omega

end Scriptlet.Arena
