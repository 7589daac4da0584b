import ScriptLint.Ast.Walk
import Mathlib.Data.List.Induction
import Mathlib.Data.List.Nodup

/-!
# What the walks visit

The walks keep a stack.  What they do to a stack they do to its trees one after the other, so a
walk over a stack is put together from the walks over its trees (`visit_eq_flatMap`), and the walk
over a tree is the root followed by the walks over its children (`preorder_eq`).

* `map_fst_withParents`: the walk with parents visits the nodes of the plain walk.
* `ParentsFirst`: a list of nodes with their parents in which a parent is always listed before its
  children.  `parentsFirst_withParents` says that the walk gives such a list.
* `DistinctIds`: no two nodes of a tree share an identity.
-/

namespace ScriptLint.Ast

/-! ### The plain walk -/

theorem visit_append (s t : List Node) : visit (s ++ t) = visit s ++ visit t := by
  induction s using visit.induct with
  | case1 => rw [visit, List.nil_append, List.nil_append]
  | case2 n s ih =>
    rw [List.cons_append, visit, visit, List.cons_append, ← List.append_assoc, ih]

theorem visit_eq_flatMap (s : List Node) : visit s = s.flatMap Node.preorder := by
  induction s with
  | nil => rw [visit, List.flatMap_nil]
  | cons n s ih =>
    rw [← List.singleton_append, visit_append, ih, List.flatMap_append, List.flatMap_singleton]
    rfl

namespace Node

/-- A tree is visited **root first**, then child by child. -/
theorem preorder_eq (n : Node) : n.preorder = n :: n.children.flatMap preorder := by
  rw [preorder, visit, List.append_nil, visit_eq_flatMap]

theorem mem_preorder_self (n : Node) : n ∈ n.preorder := by
  rw [preorder_eq]
  exact List.mem_cons_self

/-- What holds of all nodes of a tree holds of the root and of all nodes **of its children**. -/
theorem forall_mem_preorder_iff {P : Node → Prop} {n : Node} :
    (∀ m ∈ n.preorder, P m) ↔ P n ∧ ∀ c ∈ n.children, ∀ m ∈ c.preorder, P m := by
  rw [n.preorder_eq, List.forall_mem_cons]
  refine and_congr_right fun _ => ?_
  constructor
  · intro h c hc m hm
    exact h m (List.mem_flatMap.mpr ⟨c, hc, hm⟩)
  · intro h m hm
    obtain ⟨c, hc, hm⟩ := List.mem_flatMap.mp hm
    exact h c hc m hm

/-! ### The walk with parents -/

end Node

theorem map_fst_visitWithParents (s : List (Node × Option Node)) :
    (visitWithParents s).map (·.1) = visit (s.map (·.1)) := by
  induction s using visitWithParents.induct with
  | case1 => rw [visitWithParents, List.map_nil, visit]
  | case2 n parent s ih =>
    rw [visitWithParents, List.map_cons, ih, List.map_cons, visit, List.map_append, List.map_map]
    congr 3
    exact List.map_id _

theorem Node.map_fst_withParents (root : Node) : root.withParents.map (·.1) = root.preorder :=
  map_fst_visitWithParents [(root, none)]

/-- A list of nodes with their parents in which **a parent comes before its children**. -/
inductive ParentsFirst : List (Node × Option Node) → Prop
  | nil : ParentsFirst []
  | snoc {links : List (Node × Option Node)} (n : Node) (parent : Option Node) :
      ParentsFirst links → (∀ p, parent = some p → p ∈ links.map (·.1)) →
      ParentsFirst (links ++ [(n, parent)])

theorem ParentsFirst.left : ∀ {after done : List (Node × Option Node)},
    ParentsFirst (done ++ after) → ParentsFirst done := by
  intro after
  induction after using List.reverseRecOn with
  | nil => intro done h; rwa [List.append_nil] at h
  | append_singleton after e ih =>
    intro done h
    rw [← List.append_assoc] at h
    generalize hl : done ++ after ++ [e] = l at h
    cases h with
    | nil => simp at hl
    | snoc n parent hs _ =>
      rw [← (List.append_inj' hl rfl).1] at hs
      exact ih hs

/-- What is on the stack has been pushed with a parent that was visited before. -/
theorem parentsFirst_visitWithParents (s : List (Node × Option Node)) :
    ∀ {done : List (Node × Option Node)}, ParentsFirst done →
      (∀ e ∈ s, ∀ p, e.2 = some p → p ∈ done.map (·.1)) →
      ParentsFirst (done ++ visitWithParents s) := by
  induction s using visitWithParents.induct with
  | case1 => intro done hDone _; rwa [visitWithParents, List.append_nil]
  | case2 n parent s ih =>
    intro done hDone hStack
    rw [visitWithParents, ← List.singleton_append, ← List.append_assoc]
    refine ih (.snoc n parent hDone (hStack (n, parent) List.mem_cons_self)) ?_
    intro e he p hp
    rw [List.map_append, List.mem_append]
    rcases List.mem_append.mp he with he | he
    · -- a child of the node that has just been visited
      obtain ⟨c, _, rfl⟩ := List.mem_map.mp he
      refine Or.inr ?_
      rw [← Option.some.inj hp]
      exact List.mem_singleton_self _
    · exact Or.inl (hStack e (List.mem_cons_of_mem _ he) p hp)

theorem Node.parentsFirst_withParents (root : Node) : ParentsFirst root.withParents :=
  parentsFirst_visitWithParents [(root, none)] .nil (by simp)

/-! ### Identities -/

/-- No two nodes of the tree share an identity. -/
def Node.DistinctIds (root : Node) : Prop := (root.preorder.map Node.id).Nodup

instance (root : Node) : Decidable root.DistinctIds :=
  inferInstanceAs (Decidable (List.Nodup _))

theorem Node.DistinctIds.nodup_links {root : Node} (h : root.DistinctIds) :
    (root.withParents.map fun e => e.1.id).Nodup := by
  have hMap : (root.withParents.map fun e => e.1.id) = root.preorder.map Node.id := by
    rw [← root.map_fst_withParents, List.map_map]
    rfl
  rw [hMap]
  exact h

end ScriptLint.Ast
