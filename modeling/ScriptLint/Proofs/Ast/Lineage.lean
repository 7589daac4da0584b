import ScriptLint.Proofs.Ast.Grove

/-!
# The way from a node to the root

In a tree without shared nodes the index of the tree and the tree itself tell the same: what is
above a node in the index is what the node is below in the tree.

* `Node.descendants`: the nodes strictly below a node.
* `DistinctIds.mem_descendants_iff`: a child is below whatever its parent is or is below.
* `DistinctIds.eq_of_common`, `DistinctIds.not_in_two_fields`: the parts of a node are apart.
* `Index.build_parent?_eq_some_iff`: the parent in the index is the parent in the tree.
* `Index.lineage_ancestors`: the ancestors are the whole way to the root.
-/

namespace ScriptLint.Ast

namespace Node

/-! ### Below a node -/

/-- The nodes **strictly below** a node. -/
def descendants (n : Node) : List Node := n.children.flatMap preorder

theorem mem_preorder {n m : Node} : m ∈ n.preorder ↔ m = n ∨ m ∈ n.descendants := by
  rw [preorder_eq, List.mem_cons, descendants]

theorem mem_preorder_of_mem_descendants {n m : Node} (h : m ∈ n.descendants) : m ∈ n.preorder :=
  mem_preorder.mpr (.inr h)

theorem mem_preorder_trans {a b c : Node} (hb : b ∈ a.preorder) (hc : c ∈ b.preorder) :
    c ∈ a.preorder := by
  rw [mem_preorder_iff] at hb hc ⊢
  exact hb.trans hc

theorem mem_preorder_of_mem_children {n c : Node} (h : c ∈ n.children) : c ∈ n.preorder :=
  mem_preorder_iff.mpr (.single h)

theorem mem_children_of_slot {n c : Node} {f : Field} (hc : n.slot f = .node c) :
    c ∈ n.children := by
  refine mem_children_of_mem_slot (f := f) ?_
  rw [hc]
  exact List.mem_singleton_self c

theorem slot_node {root n c : Node} {f : Field} (hn : n ∈ root.preorder)
    (hc : n.slot f = .node c) : c ∈ root.preorder :=
  mem_preorder_trans hn (mem_preorder_of_mem_children (mem_children_of_slot hc))

/-- What is strictly below a node is a child of the node or of something below it. -/
theorem mem_descendants_iff {n m : Node} :
    m ∈ n.descendants ↔ ∃ q ∈ n.preorder, m ∈ q.children := by
  have hHead : m ∈ n.descendants ↔ Relation.TransGen (fun p c => c ∈ p.children) n m := by
    rw [descendants, List.mem_flatMap, Relation.TransGen.head'_iff]
    simp only [mem_preorder_iff]
  rw [hHead, Relation.TransGen.tail'_iff]
  simp only [mem_preorder_iff]

theorem mem_descendants_of_child {n p c : Node} (hp : p ∈ n.preorder) (hc : c ∈ p.children) :
    c ∈ n.descendants :=
  mem_descendants_iff.mpr ⟨p, hp, hc⟩

theorem sizeOf_lt_of_mem_children {n c : Node} (h : c ∈ n.children) : sizeOf c < sizeOf n :=
  Nat.lt_of_le_of_lt (le_total_of_mem sizeOf h) n.total_children_lt

theorem sizeOf_le_of_mem_preorder {n m : Node} (h : m ∈ n.preorder) : sizeOf m ≤ sizeOf n := by
  rw [mem_preorder_iff] at h
  induction h with
  | refl => exact Nat.le_refl _
  | tail _ hc ih => exact Nat.le_trans (Nat.le_of_lt (sizeOf_lt_of_mem_children hc)) ih

theorem not_mem_descendants_of_mem_preorder {n m : Node} (h : m ∈ n.preorder) :
    n ∉ m.descendants := by
  intro hBack
  obtain ⟨q, hq, hn⟩ := mem_descendants_iff.mp hBack
  have hnq := sizeOf_lt_of_mem_children hn
  have hqm := sizeOf_le_of_mem_preorder hq
  have hmn := sizeOf_le_of_mem_preorder h
  omega

/-- The walk over a part of a tree is a part of the walk over the tree, in the same order. -/
theorem preorder_sublist {root n : Node} (hn : n ∈ root.preorder) :
    n.preorder.Sublist root.preorder := by
  rw [mem_preorder_iff] at hn
  induction hn with
  | refl => exact List.Sublist.refl _
  | @tail p c _ hc ih =>
    refine List.Sublist.trans ?_ ih
    rw [p.preorder_eq, List.flatMap_def]
    exact (List.sublist_flatten_of_mem (List.mem_map_of_mem hc)).cons p

end Node

namespace Node.DistinctIds

variable {root : Node}

/-! ### One parent -/

/-- Nodes of the tree with the same identity are the same. -/
theorem eq_of_id_eq (h : root.DistinctIds) {m n : Node} (hm : m ∈ root.preorder)
    (hn : n ∈ root.preorder) (hid : m.id = n.id) : m = n :=
  List.inj_on_of_nodup_map h hm hn hid

theorem parent_unique (h : root.DistinctIds) {p q c : Node} (hp : p ∈ root.preorder)
    (hq : q ∈ root.preorder) (hcp : c ∈ p.children) (hcq : c ∈ q.children) : p = q :=
  Option.some.inj ((Index.build_parent? h hp hcp).symm.trans (Index.build_parent? h hq hcq))

/-- **A child is below** whatever its parent is or is below. -/
theorem mem_descendants_iff (h : root.DistinctIds) {m p c : Node} (hm : m ∈ root.preorder)
    (hp : p ∈ root.preorder) (hc : c ∈ p.children) : c ∈ m.descendants ↔ p ∈ m.preorder := by
  constructor
  · intro hBelow
    obtain ⟨q, hq, hcq⟩ := Node.mem_descendants_iff.mp hBelow
    rwa [h.parent_unique hp (mem_preorder_trans hm hq) hc hcq]
  · exact fun hBelow => mem_descendants_of_child hBelow hc

/-- Different children of a node have nothing below them in common. -/
theorem eq_of_common (h : root.DistinctIds) {p b c n : Node} (hp : p ∈ root.preorder)
    (hb : b ∈ p.children) (hc : c ∈ p.children) (hnb : n ∈ b.preorder) (hnc : n ∈ c.preorder) :
    b = c := by
  have hbRoot := mem_preorder_trans hp (mem_preorder_of_mem_children hb)
  have hcRoot := mem_preorder_trans hp (mem_preorder_of_mem_children hc)
  rw [mem_preorder_iff] at hnb
  induction hnb with
  | refl =>
    rcases mem_preorder.mp hnc with rfl | hBelow
    · rfl
    · -- then the common parent would be below its own child
      have hpc := (h.mem_descendants_iff hcRoot hp hb).mp hBelow
      have hSelf := mem_descendants_of_child p.mem_preorder_self hc
      exact absurd hSelf (not_mem_descendants_of_mem_preorder hpc)
  | @tail q m hq hm ih =>
    rw [← mem_preorder_iff] at hq
    have hqRoot := mem_preorder_trans hbRoot hq
    rcases mem_preorder.mp hnc with rfl | hBelow
    · have hqp : q = p := h.parent_unique hqRoot hp hm hc
      rw [hqp] at hq
      have hSelf := mem_descendants_of_child p.mem_preorder_self hb
      exact absurd hSelf (not_mem_descendants_of_mem_preorder hq)
    · exact ih ((h.mem_descendants_iff hcRoot hqRoot hm).mp hBelow)

/-- A part of a tree without shared nodes is such a tree. -/
theorem of_mem_preorder (h : root.DistinctIds) {n : Node} (hn : n ∈ root.preorder) :
    n.DistinctIds :=
  h.sublist ((preorder_sublist hn).map Node.id)

theorem grove_children (h : root.DistinctIds) : Grove (fun _ => True) root.children where
  distinct := by
    rw [DistinctIds, preorder_eq, List.map_cons, List.nodup_cons] at h
    exact h.2
  all := fun _ _ => trivial

/-- **No node is in two fields** of another one. -/
theorem not_in_two_fields (h : root.DistinctIds) {p c : Node} (hp : p ∈ root.preorder)
    {f g : Field} (hfg : f ≠ g) (hf : p.slot f = .node c) : p.slot g ≠ .node c := by
  intro hg
  have hSlot : ∀ k : Field, p.slot k = .node c →
      ((p.slots.lookup k).getD (.ofBlank .noNodes)).children = [c] := by
    intro k hk
    rw [slot, slot?] at hk
    cases hl : p.slots.lookup k with
    | none => rw [hl] at hk; cases hk
    | some s => rw [hl, Option.getD_some] at hk; rw [Option.getD_some, hk]; rfl
  have hTwice : [c, c].Subperm p.children := by
    have hSub := lookup_children_subperm [(f, .noNodes), (g, .noNodes)] p.slots (by simp [hfg])
    simp only [List.flatMap_cons, List.flatMap_nil, hSlot f hf, hSlot g hg] at hSub
    exact hSub
  have hDistinct := ((h.of_mem_preorder hp).grove_children.subperm hTwice).distinct
  have hId : c.id ∈ (c.preorder).map Node.id := List.mem_map_of_mem c.mem_preorder_self
  rw [List.flatMap_cons, List.flatMap_singleton, List.map_append, List.nodup_append] at hDistinct
  exact hDistinct.2.2 c.id hId c.id hId rfl

end Node.DistinctIds

/-! ### The index of a tree -/

namespace Index

variable {root n p : Node}

/-- The **parent in the index** is the parent in the tree. -/
theorem build_parent?_eq_some_iff (h : root.DistinctIds) (hn : n ∈ root.preorder) :
    (build root).parent? n = some p ↔ p ∈ root.preorder ∧ n ∈ p.children := by
  constructor
  · intro hParent
    rcases Node.mem_preorder.mp hn with rfl | hBelow
    · rw [build_parent?_root h] at hParent
      cases hParent
    · obtain ⟨q, hq, hc⟩ := Node.mem_descendants_iff.mp hBelow
      rw [build_parent? h hq hc] at hParent
      cases hParent
      exact ⟨hq, hc⟩
  · rintro ⟨hp, hc⟩
    exact build_parent? h hp hc

/-- What has no parent in the index is below nothing. -/
theorem not_mem_descendants_of_build_parent? (h : root.DistinctIds)
    (hNone : (build root).parent? n = none) {m : Node} (hm : m ∈ root.preorder) :
    n ∉ m.descendants := by
  intro hBelow
  obtain ⟨q, hq, hc⟩ := Node.mem_descendants_iff.mp hBelow
  rw [build_parent? h (Node.mem_preorder_trans hm hq) hc] at hNone
  cases hNone

/-- The ancestors of a node are its **whole way to the root**. -/
theorem lineage_ancestors (h : root.DistinctIds) (hn : n ∈ root.preorder) :
    Lineage (build root) n ((build root).ancestors n) := by
  rw [← root.map_fst_withParents] at hn
  obtain ⟨e, he, rfl⟩ := List.mem_map.mp hn
  obtain ⟨above, hLt, _, hLineage⟩ := exists_lineage root.parentsFirst_withParents e he
  have hThis : Lineage (build root) e.1 above := by
    refine hLineage _ fun l hl => ?_
    rw [build_eq_ofLinks]
    exact ofLinks_parent? h.nodup_links hl
  have hAll : (build root).ancestors e.1 = above := by
    refine hThis.ancestorsWithin_eq ?_
    rw [build_eq_ofLinks, size_ofLinks h.nodup_links]
    omega
  rw [hAll]
  exact hThis

end Index

end ScriptLint.Ast
