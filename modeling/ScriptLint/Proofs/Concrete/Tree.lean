import Mathlib.Data.List.Nodup
import Mathlib.Data.List.Pairwise
import ScriptLint.Concrete.Convert

/-!
# The nodes of a concrete tree

A concrete tree has two kinds of nodes: those that a conversion comes to, and those that it passes
by because they are tokens, or below a token or a skipped node.

* `Tree.preorder`, `Tree.descendants`: all nodes, and all nodes but the root.
* `Tree.within`: the nodes below a node that are **reached** from it through named nodes that are
  not skipped.
* `Tree.DistinctRows`: no two nodes of a tree have the same row number.
* `DistinctRows.mem_within`: there is only one way down to a node.  If two nodes are reached from
  the root and one of them is below the other, then it is reached from the other.
-/

namespace ScriptLint.Concrete.Tree

/-! ### All nodes -/

mutual

/-- All nodes of a tree, each before its children. -/
def preorder : Tree → List Tree
  | mk l ts => mk l ts :: preorderAll ts

/-- All nodes of some trees. -/
def preorderAll : List Tree → List Tree
  | [] => []
  | t :: ts => preorder t ++ preorderAll ts

end

/-- The nodes of a tree without its root. -/
def descendants (t : Tree) : List Tree := t.children.flatMap preorder

theorem preorderAll_eq (ts : List Tree) : preorderAll ts = ts.flatMap preorder := by
  induction ts with
  | nil => rfl
  | cons t ts ih => rw [preorderAll, ih, List.flatMap_cons]

theorem preorder_eq (t : Tree) : t.preorder = t :: t.descendants := by
  cases t with
  | mk l ts => rw [preorder, preorderAll_eq, descendants, children]

theorem mem_preorder {t u : Tree} : u ∈ t.preorder ↔ u = t ∨ u ∈ t.descendants := by
  rw [preorder_eq, List.mem_cons]

theorem mem_descendants {t u : Tree} : u ∈ t.descendants ↔ ∃ c ∈ t.children, u ∈ c.preorder :=
  List.mem_flatMap

theorem mem_preorder_self (t : Tree) : t ∈ t.preorder := mem_preorder.mpr (.inl rfl)

theorem mem_preorder_of_mem_descendants {t u : Tree} (h : u ∈ t.descendants) : u ∈ t.preorder :=
  mem_preorder.mpr (.inr h)

theorem mem_descendants_of_mem_children {t c : Tree} (h : c ∈ t.children) : c ∈ t.descendants :=
  mem_descendants.mpr ⟨c, h, c.mem_preorder_self⟩

theorem sizeOf_lt_of_mem_children {t c : Tree} (h : c ∈ t.children) : sizeOf c < sizeOf t := by
  have hc := List.sizeOf_lt_of_mem h
  cases t with
  | mk l ts =>
    simp only [children] at hc
    simp only [mk.sizeOf_spec]
    omega

/-- What holds of a tree if it holds of its children holds of all trees. -/
theorem ind {P : Tree → Prop} (h : ∀ t, (∀ c ∈ t.children, P c) → P t) (t : Tree) : P t :=
  h t fun c _ => ind h c
termination_by sizeOf t
decreasing_by exact sizeOf_lt_of_mem_children ‹_›

theorem descendants_subset {t : Tree} : ∀ u ∈ t.preorder, u.descendants ⊆ t.descendants := by
  induction t using ind with
  | h t ih =>
    intro u hu v hv
    rcases mem_preorder.mp hu with rfl | hu
    · exact hv
    · obtain ⟨c, hc, hu⟩ := mem_descendants.mp hu
      exact mem_descendants.mpr ⟨c, hc, mem_preorder_of_mem_descendants (ih c hc u hu hv)⟩

theorem preorder_subset {t u : Tree} (h : u ∈ t.descendants) : u.preorder ⊆ t.descendants := by
  intro v hv
  rcases mem_preorder.mp hv with rfl | hv
  · exact h
  · exact descendants_subset u (mem_preorder_of_mem_descendants h) hv

/-- What holds of a tree if it holds of all nodes below its root holds of all trees. -/
theorem ind_descendants {P : Tree → Prop} (h : ∀ t, (∀ u ∈ t.descendants, P u) → P t) (t : Tree) :
    P t := by
  have hAll : ∀ u ∈ t.preorder, P u := by
    induction t using ind with
    | h t ih =>
      have hBelow : ∀ u ∈ t.descendants, P u := by
        intro u hu
        obtain ⟨c, hc, hu⟩ := mem_descendants.mp hu
        exact ih c hc u hu
      intro u hu
      rcases mem_preorder.mp hu with rfl | hu
      · exact h u hBelow
      · exact hBelow u hu
  exact hAll t t.mem_preorder_self

/-! ### Reached nodes -/

theorem content_eq_nil {t : Tree} (h : Form.ofKind t.kind = .skipped) : t.content = [] := by
  rw [content, h]

theorem content_eq_namedChildren {t : Tree} (h : Form.ofKind t.kind ≠ .skipped) :
    t.content = t.namedChildren := by
  rw [content]
  split
  · contradiction
  · rfl

theorem mem_children_of_mem_namedChildren {t c : Tree} (h : c ∈ t.namedChildren) :
    c ∈ t.children :=
  List.mem_of_mem_filter h

theorem mem_children_of_mem_content {t c : Tree} (h : c ∈ t.content) : c ∈ t.children := by
  by_cases hs : Form.ofKind t.kind = .skipped
  · rw [content_eq_nil hs] at h
    cases h
  · rw [content_eq_namedChildren hs] at h
    exact mem_children_of_mem_namedChildren h

theorem mem_descendants_of_mem_content {t c : Tree} (h : c ∈ t.content) : c ∈ t.descendants :=
  mem_descendants_of_mem_children (mem_children_of_mem_content h)

/-- The nodes below a node that are **reached** from it: its content, and all that is reached from
there. -/
def within (t : Tree) : List Tree :=
  t.content.attach.flatMap fun c => c.1 :: within c.1
termination_by sizeOf t
decreasing_by exact sizeOf_lt_of_mem_children (mem_children_of_mem_content c.2)

/-- The node is the root or **reached** from it. -/
def Reaches (root t : Tree) : Prop := t = root ∨ t ∈ root.within

theorem Reaches.refl (t : Tree) : t.Reaches t := .inl rfl

theorem mem_within {t d : Tree} : d ∈ t.within ↔ ∃ c ∈ t.content, c.Reaches d := by
  rw [within]
  simp only [List.mem_flatMap, List.mem_attach, true_and, Subtype.exists, List.mem_cons,
    exists_prop, Reaches]

theorem mem_within_of_mem_content {t c : Tree} (h : c ∈ t.content) : c ∈ t.within :=
  mem_within.mpr ⟨c, h, .refl c⟩

theorem within_subset_descendants {t : Tree} : t.within ⊆ t.descendants := by
  induction t using ind with
  | h t ih =>
    intro d hd
    obtain ⟨c, hc, hd⟩ := mem_within.mp hd
    refine mem_descendants.mpr ⟨c, mem_children_of_mem_content hc, mem_preorder.mpr ?_⟩
    rcases hd with rfl | hd
    · exact .inl rfl
    · exact .inr (ih c (mem_children_of_mem_content hc) hd)

theorem sizeOf_lt_of_mem_within {t : Tree} : ∀ d ∈ t.within, sizeOf d < sizeOf t := by
  induction t using ind with
  | h t ih =>
    intro d hd
    obtain ⟨c, hc, hd⟩ := mem_within.mp hd
    have hLt := sizeOf_lt_of_mem_children (mem_children_of_mem_content hc)
    rcases hd with rfl | hd
    · exact hLt
    · exact Nat.lt_trans (ih c (mem_children_of_mem_content hc) d hd) hLt

theorem within_subset_within {t : Tree} : ∀ u ∈ t.within, u.within ⊆ t.within := by
  induction t using ind with
  | h t ih =>
    intro u hu d hd
    obtain ⟨c, hc, hu⟩ := mem_within.mp hu
    refine mem_within.mpr ⟨c, hc, .inr ?_⟩
    rcases hu with rfl | hu
    · exact hd
    · exact ih c (mem_children_of_mem_content hc) u hu hd

theorem Reaches.mem_preorder {root t : Tree} (h : root.Reaches t) : t ∈ root.preorder :=
  Tree.mem_preorder.mpr (h.imp_right fun ht => within_subset_descendants ht)

theorem Reaches.within {root t d : Tree} (h : root.Reaches t) (hd : d ∈ t.within) :
    d ∈ root.within := by
  rcases h with rfl | ht
  · exact hd
  · exact within_subset_within t ht hd

/-! ### Row numbers -/

/-- No two nodes of the tree have the same row number. -/
def DistinctRows (root : Tree) : Prop := (root.preorder.map row).Nodup

instance (root : Tree) : Decidable root.DistinctRows :=
  inferInstanceAs (Decidable (root.preorder.map row).Nodup)

namespace DistinctRows

variable {root t u v : Tree}

theorem eq_of_row_eq (h : root.DistinctRows) (hu : u ∈ root.preorder) (hv : v ∈ root.preorder)
    (hrow : u.row = v.row) : u = v :=
  List.inj_on_of_nodup_map h hu hv hrow

theorem nodup (h : root.DistinctRows) : root.preorder.Nodup := List.Nodup.of_map row h

theorem child (h : root.DistinctRows) {c : Tree} (hc : c ∈ root.children) : c.DistinctRows := by
  rw [DistinctRows, preorder_eq, List.map_cons, List.nodup_cons, descendants, List.map_flatMap,
    List.nodup_flatMap] at h
  exact h.2.1 c hc

theorem of_mem_preorder (h : root.DistinctRows) (ht : t ∈ root.preorder) : t.DistinctRows := by
  induction root using ind with
  | h root ih =>
    rcases mem_preorder.mp ht with rfl | ht
    · exact h
    · obtain ⟨c, hc, ht⟩ := mem_descendants.mp ht
      exact ih c hc (h.child hc) ht

theorem not_mem_descendants_self (h : root.DistinctRows) : root ∉ root.descendants := by
  have hNodup := h.nodup
  rw [preorder_eq, List.nodup_cons] at hNodup
  exact hNodup.1

/-- The subtrees of two children have no node in common. -/
theorem child_unique (h : root.DistinctRows) {c d : Tree} (hc : c ∈ root.children)
    (hd : d ∈ root.children) (huc : u ∈ c.preorder) (hud : u ∈ d.preorder) : c = d := by
  have hNodup := h.nodup
  rw [preorder_eq, List.nodup_cons, descendants, List.nodup_flatMap] at hNodup
  have : Std.Symm (Function.onFun List.Disjoint preorder) := ⟨fun _ _ => List.disjoint_symm⟩
  by_contra hne
  exact hNodup.2.2.forall hc hd hne huc hud

/-- **There is only one way down**: what is reached from the root and lies below a node that is
reached from the root as well is reached from that node. -/
theorem mem_within (h : root.DistinctRows) (ht : root.Reaches t) (hu : root.Reaches u)
    (hut : u ∈ t.descendants) : u ∈ t.within := by
  induction root using ind with
  | h root ih =>
    rcases ht with rfl | ht
    · rcases hu with rfl | hu
      · exact absurd hut h.not_mem_descendants_self
      · exact hu
    · obtain ⟨c, hc, htc⟩ := Tree.mem_within.mp ht
      have hc' := mem_children_of_mem_content hc
      have huPre : u ∈ c.preorder :=
        mem_preorder_of_mem_descendants (descendants_subset t htc.mem_preorder hut)
      rcases hu with rfl | hu
      · exact absurd (mem_descendants.mpr ⟨c, hc', huPre⟩) h.not_mem_descendants_self
      · -- the ways to both nodes begin with the same child
        obtain ⟨d, hd, hud⟩ := Tree.mem_within.mp hu
        obtain rfl := h.child_unique hc' (mem_children_of_mem_content hd) huPre hud.mem_preorder
        exact ih c hc' (h.child hc') htc hud

end DistinctRows

end ScriptLint.Concrete.Tree
