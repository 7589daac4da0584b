import ScriptLint.Proofs.Ast.Lineage

/-!
# Listings and ancestors

A tree has a listing that is read off its shape alone: the root, then the listings of its children.
Both walks keep a stack and give this listing, and the index leads back from every node to the root.

* `Node.listing`: the listing of a tree, by recursion.  `Node.preorder_eq_listing` says that the walk
  with its stack gives it.
* `WayUp`: the nodes from a node up to the root of a tree, each a child of the next.
  `wayUp_iff_lineage` says that these are the parents in the index.
* `Index.mem_ancestors_iff`: the ancestors of a node are the nodes that it is strictly below.
* `walks_list_and_index_leads_back`: all of this for a tree without shared nodes.
-/

namespace ScriptLint.Ast

/-! ### Listings -/

namespace Node

/-- The **listing** of a tree: the root, then the listings of its children in the order of the
fields. -/
def listing (n : Node) : List Node := n :: n.children.attach.flatMap fun c => listing c.1
termination_by sizeOf n
decreasing_by exact sizeOf_lt_of_mem_children c.2

/-- The walk with its stack gives the **listing**. -/
theorem preorder_eq_listing (n : Node) : n.preorder = n.listing := by
  induction n using listing.induct with
  | case1 n ih =>
    have hChildren : n.children.flatMap preorder
        = n.children.attach.flatMap fun c => preorder c.1 := by
      rw [List.flatMap_subtype (g := preorder) fun _ _ => rfl, List.unattach_attach]
    rw [preorder_eq, listing, hChildren]
    exact congrArg _ (List.flatMap_congr fun c _ => ih c)

/-- Strictly below a node is what its walk visits, without the node itself. -/
theorem mem_descendants_iff_ne {n m : Node} : m ∈ n.descendants ↔ m ∈ n.preorder ∧ m ≠ n := by
  rw [mem_preorder]
  constructor
  · intro hBelow
    refine ⟨.inr hBelow, ?_⟩
    rintro rfl
    exact not_mem_descendants_of_mem_preorder m.mem_preorder_self hBelow
  · rintro ⟨hEq | hBelow, hNe⟩
    · exact absurd hEq hNe
    · exact hBelow

end Node

/-! ### The way up -/

/-- The **way up** from a node: its parent, the parent of that one, and so on; the root comes
last. -/
inductive WayUp (root : Node) : Node → List Node → Prop
  | root : WayUp root root []
  | child {p c : Node} {above : List Node} :
      c ∈ p.children → WayUp root p above → WayUp root c (p :: above)

theorem WayUp.mem_preorder {root n : Node} {above : List Node} (h : WayUp root n above) :
    n ∈ root.preorder := by
  induction h with
  | root => exact root.mem_preorder_self
  | child hc _ ih => exact Node.mem_preorder_trans ih (Node.mem_preorder_of_mem_children hc)

/-- The way up from below a node **goes on** with the way up from the node. -/
theorem WayUp.exists_of_mem_preorder {root n m : Node} {above : List Node}
    (hWay : WayUp root n above) (hm : m ∈ n.preorder) :
    ∃ up, WayUp root m up ∧ n :: above <:+ m :: up := by
  rw [Node.mem_preorder_iff] at hm
  induction hm with
  | refl => exact ⟨above, hWay, List.suffix_refl _⟩
  | tail _ hc ih =>
    obtain ⟨up, hUp, hSuffix⟩ := ih
    exact ⟨_ :: up, .child hc hUp, hSuffix.trans (List.suffix_cons _ _)⟩

/-- On the way up are the nodes that the node is **strictly below**. -/
theorem WayUp.mem_iff {root n m : Node} {above : List Node} (h : root.DistinctIds)
    (hWay : WayUp root n above) : m ∈ above ↔ m ∈ root.preorder ∧ n ∈ m.descendants := by
  induction hWay with
  | root =>
    constructor
    · intro hm
      cases hm
    · rintro ⟨hm, hBelow⟩
      exact absurd hBelow (Node.not_mem_descendants_of_mem_preorder hm)
  | @child p c above hc hWay ih =>
    have hp := hWay.mem_preorder
    rw [List.mem_cons, ih]
    constructor
    · rintro (rfl | ⟨hm, hBelow⟩)
      · exact ⟨hp, Node.mem_descendants_of_child m.mem_preorder_self hc⟩
      · have hpm := Node.mem_preorder_of_mem_descendants hBelow
        exact ⟨hm, Node.mem_descendants_of_child hpm hc⟩
    · rintro ⟨hm, hBelow⟩
      -- the parent is the node itself or is below it in turn
      rcases Node.mem_preorder.mp ((h.mem_descendants_iff hm hp hc).mp hBelow) with hEq | hBelow
      · exact .inl hEq.symm
      · exact .inr ⟨hm, hBelow⟩

namespace Index

theorem Lineage.unique {ix : Index} {n : Node} {above : List Node} (h : Lineage ix n above) :
    ∀ {others : List Node}, Lineage ix n others → others = above := by
  induction h with
  | root hNone =>
    intro others h'
    cases h' with
    | root _ => rfl
    | child hSome _ => rw [hNone] at hSome; cases hSome
  | child hSome _ ih =>
    intro others h'
    cases h' with
    | root hNone => rw [hNone] at hSome; cases hSome
    | child hSome' hRest =>
      rw [hSome] at hSome'
      cases hSome'
      rw [ih hRest]

variable {root n m : Node}

/-- Only the root has no parent in the index. -/
theorem build_parent?_eq_none_iff (h : root.DistinctIds) (hn : n ∈ root.preorder) :
    (build root).parent? n = none ↔ n = root := by
  constructor
  · intro hNone
    rcases Node.mem_preorder.mp hn with hEq | hBelow
    · exact hEq
    · exact absurd hBelow (not_mem_descendants_of_build_parent? h hNone root.mem_preorder_self)
  · rintro rfl
    exact build_parent?_root h

/-- The parents in the index are the **way up** in the tree. -/
theorem wayUp_iff_lineage (h : root.DistinctIds) (hn : n ∈ root.preorder) {above : List Node} :
    WayUp root n above ↔ Lineage (build root) n above := by
  constructor
  · intro hWay
    clear hn
    induction hWay with
    | root => exact .root (build_parent?_root h)
    | child hc hWay ih => exact .child (build_parent? h hWay.mem_preorder hc) ih
  · intro hLineage
    induction hLineage with
    | root hNone =>
      rw [(build_parent?_eq_none_iff h hn).mp hNone]
      exact .root
    | child hSome _ ih =>
      obtain ⟨hp, hc⟩ := (build_parent?_eq_some_iff h hn).mp hSome
      exact .child hc (ih hp)

theorem wayUp_iff_ancestors (h : root.DistinctIds) (hn : n ∈ root.preorder) {above : List Node} :
    WayUp root n above ↔ (build root).ancestors n = above := by
  rw [wayUp_iff_lineage h hn]
  constructor
  · intro hAbove
    exact hAbove.unique (lineage_ancestors h hn)
  · rintro rfl
    exact lineage_ancestors h hn

/-- The **ancestors** of a node are the nodes of the tree that it is strictly below. -/
theorem mem_ancestors_iff (h : root.DistinctIds) (hn : n ∈ root.preorder) :
    m ∈ (build root).ancestors n ↔ m ∈ root.preorder ∧ n ∈ m.descendants :=
  ((wayUp_iff_ancestors h hn).mpr rfl).mem_iff h

/-- What a climb finds does not depend on the room it is given, once that is enough. -/
theorem ancestorsWithin_eq_ancestors (h : root.DistinctIds) (hn : n ∈ root.preorder) {room : Nat}
    (hRoom : ((build root).ancestors n).length ≤ room) :
    (build root).ancestorsWithin room n = (build root).ancestors n :=
  (lineage_ancestors h hn).ancestorsWithin_eq hRoom

end Index

/-! ### Walks, parents and ancestors -/

/-- A node is listed without a parent if it is the root, and otherwise with the **only** node that
it is a child of. -/
theorem parent_of_mem_withParents {root n : Node} {parent : Option Node} (h : root.DistinctIds)
    (hMem : (n, parent) ∈ root.withParents) :
    (n = root ∧ parent = none) ∨
      (n ≠ root ∧ ∃ p, parent = some p ∧ p ∈ root.preorder ∧ n ∈ p.children ∧
        ∀ q ∈ root.preorder, n ∈ q.children → q = p) := by
  have hn : n ∈ root.preorder := by
    rw [← root.map_fst_withParents]
    exact List.mem_map.mpr ⟨(n, parent), hMem, rfl⟩
  have hParent : (Index.build root).parent? n = parent := by
    rw [Index.build_eq_ofLinks]
    exact Index.ofLinks_parent? h.nodup_links hMem
  cases parent with
  | none => exact .inl ⟨(Index.build_parent?_eq_none_iff h hn).mp hParent, rfl⟩
  | some p =>
    obtain ⟨hp, hc⟩ := (Index.build_parent?_eq_some_iff h hn).mp hParent
    refine .inr ⟨?_, p, rfl, hp, hc, fun q hq hcq => h.parent_unique hq hp hcq hc⟩
    intro hRoot
    rw [(Index.build_parent?_eq_none_iff h hn).mpr hRoot] at hParent
    cases hParent

/-- **Walks list the tree, and the index leads back.**  In a tree without shared nodes:

* both walks visit the nodes in the order of the listing;
* the root is visited without a parent, and any other node with the only one that it is a child of;
* from every node the climb through the index ends by itself: however much room it has, it finds the
  way up to the root;
* a node is among the ancestors of another if and only if the other one is in its listing and is
  not the node itself. -/
theorem walks_list_and_index_leads_back (root : Node) (h : root.DistinctIds) :
    root.preorder = root.listing ∧
    root.withParents.map (·.1) = root.listing ∧
    (∀ n parent, (n, parent) ∈ root.withParents →
      (n = root ∧ parent = none) ∨
        (n ≠ root ∧ ∃ p, parent = some p ∧ p ∈ root.listing ∧ n ∈ p.children ∧
          ∀ q ∈ root.listing, n ∈ q.children → q = p)) ∧
    ∀ n ∈ root.listing,
      (∀ room, ((Index.build root).ancestors n).length ≤ room →
        (Index.build root).ancestorsWithin room n = (Index.build root).ancestors n) ∧
      (∀ above, WayUp root n above ↔ (Index.build root).ancestors n = above) ∧
      ∀ m, m ∈ (Index.build root).ancestors n ↔ m ∈ root.listing ∧ n ∈ m.listing ∧ n ≠ m := by
  simp only [← Node.preorder_eq_listing]
  refine ⟨trivial, root.map_fst_withParents, fun n parent => parent_of_mem_withParents h, ?_⟩
  intro n hn
  refine ⟨fun room => Index.ancestorsWithin_eq_ancestors h hn,
    fun above => Index.wayUp_iff_ancestors h hn, fun m => ?_⟩
  rw [Index.mem_ancestors_iff h hn, Node.mem_descendants_iff_ne]

/-- The name `a` or `b` in the statement `a + b`. -/
def summand (part : Nat) (name : Text) : Node :=
  .build ⟨[0], part⟩ (.known .identifier)
    ⟨.int 0, .int 0, ⟨.int 1, .int 0⟩, ⟨.int 1, .int 0⟩⟩ [(.name, .value name)]

/-- The expression of the statement `a + b`. -/
def summation : Node :=
  .build ⟨[0], 1⟩ (.known .binaryExpression)
    ⟨.int 0, .int 0, ⟨.int 1, .int 0⟩, ⟨.int 1, .int 0⟩⟩
    [(.left, .node (summand 2 "a")), (.right, .node (summand 3 "b"))]

/-- The statement `a + b`. -/
def summationStatement : Node :=
  .build ⟨[0], 0⟩ (.known .expressionStatement)
    ⟨.int 0, .int 0, ⟨.int 1, .int 0⟩, ⟨.int 1, .int 0⟩⟩ [(.expression, .node summation)]

theorem walks_list_and_index_leads_back_summation :
    summationStatement.DistinctIds ∧ summand 3 "b" ∈ summationStatement.listing ∧
      (Index.build summationStatement).ancestors (summand 3 "b")
        = [summation, summationStatement] := by
  have hIds : summationStatement.DistinctIds := by decide +kernel
  have hWay : WayUp summationStatement (summand 3 "b") [summation, summationStatement] := by
    refine .child ?_ (.child ?_ .root)
    · show _ ∈ [summand 2 "a", summand 3 "b"]
      exact List.mem_cons_of_mem _ List.mem_cons_self
    · show _ ∈ [summation]
      exact List.mem_cons_self
  obtain ⟨hListing, -, -, hNodes⟩ := walks_list_and_index_leads_back summationStatement hIds
  have hMem : summand 3 "b" ∈ summationStatement.listing := by
    rw [← hListing]
    exact hWay.mem_preorder
  exact ⟨hIds, hMem, ((hNodes _ hMem).2.1 _).mp hWay⟩

end ScriptLint.Ast
