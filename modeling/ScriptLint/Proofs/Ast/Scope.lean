import ScriptLint.Proofs.Ast.Ancestry

/-!
# The own scope of a function

The own scope of a function is found from above: a walk goes down from the function and stops at
every nested function.  The nearest function around a node is found from below: a climb goes up
from parent to parent.  In a tree without shared nodes the two agree, so the own scopes divide up
the nodes that are inside of some function.

* `Node.ownScope_eq`: a child is in the own scope, and with it its own scope unless it is a
  function.
* `Node.mem_ownScope_iff`: the same seen from below.  A node is in the own scope if its parent is
  the function, or is in the own scope and is no function itself.
* `Node.trails`: the nodes below a node with the nodes in between.  `Node.ownScope_eq_trails` says
  that the own scope has those with no function in between.
* `mem_ownScope_child_iff`, `Index.nearestFunction?_child`: one step of the walk and one step of the
  climb, from a child to its parent.
* `mem_ownScope_iff_nearestFunction?`: both, step by step along the way up to the root.
* `ownScopes_divide_functions`: what this means for all functions of a tree.
-/

namespace ScriptLint.Ast

/-! ### The walk that stops at functions -/

theorem visitScope_append (s t : List Node) :
    visitScope (s ++ t) = visitScope s ++ visitScope t := by
  induction s using visitScope.induct with
  | case1 => rw [visitScope, List.nil_append, List.nil_append]
  | case2 n s hFunction ih =>
    rw [List.cons_append, visitScope, if_pos hFunction, ih, visitScope, if_pos hFunction,
      List.cons_append]
  | case3 n s hFunction ih =>
    rw [List.cons_append, visitScope, if_neg hFunction, ← List.append_assoc, ih, visitScope,
      if_neg hFunction, List.cons_append]

/-- What the walk finds at a node: the node, and below it its own scope unless it is a function. -/
theorem visitScope_singleton (n : Node) :
    visitScope [n] = n :: if n.isFunction then [] else n.ownScope := by
  rw [visitScope, Node.ownScope, List.append_nil]
  by_cases hFunction : n.isFunction = true
  · rw [if_pos hFunction, if_pos hFunction, visitScope]
  · rw [if_neg hFunction, if_neg hFunction]

theorem visitScope_eq_flatMap (s : List Node) :
    visitScope s = s.flatMap fun c => c :: if c.isFunction then [] else c.ownScope := by
  induction s with
  | nil => rw [visitScope, List.flatMap_nil]
  | cons n s ih =>
    rw [← List.singleton_append, visitScope_append, ih, visitScope_singleton, List.flatMap_append,
      List.flatMap_singleton]

namespace Node

/-- A child is in the **own scope**, and so is its own scope unless the child is a function. -/
theorem ownScope_eq (n : Node) :
    n.ownScope = n.children.flatMap fun c => c :: if c.isFunction then [] else c.ownScope := by
  rw [ownScope, visitScope_eq_flatMap]

theorem mem_ownScope_of_mem_children {n c : Node} (h : c ∈ n.children) : c ∈ n.ownScope := by
  rw [ownScope_eq]
  exact List.mem_flatMap.mpr ⟨c, h, List.mem_cons_self⟩

theorem mem_ownScope_of_mem_child {n c m : Node} (hc : c ∈ n.children) (hFunction : ¬ c.isFunction)
    (h : m ∈ c.ownScope) : m ∈ n.ownScope := by
  rw [ownScope_eq]
  refine List.mem_flatMap.mpr ⟨c, hc, List.mem_cons_of_mem _ ?_⟩
  rwa [if_neg hFunction]

theorem mem_ownScope_cases {n m : Node} (h : m ∈ n.ownScope) :
    ∃ c ∈ n.children, m = c ∨ (¬ c.isFunction ∧ m ∈ c.ownScope) := by
  rw [ownScope_eq] at h
  obtain ⟨c, hc, hm⟩ := List.mem_flatMap.mp h
  refine ⟨c, hc, (List.mem_cons.mp hm).imp_right fun hm => ?_⟩
  by_cases hFunction : c.isFunction = true
  · rw [if_pos hFunction] at hm
    cases hm
  · rw [if_neg hFunction] at hm
    exact ⟨hFunction, hm⟩

/-- A node is in the own scope if its **parent** is the function, or is in the own scope and is no
function. -/
theorem mem_ownScope_iff {n m : Node} :
    m ∈ n.ownScope ↔ ∃ p, m ∈ p.children ∧ (p = n ∨ (p ∈ n.ownScope ∧ ¬ p.isFunction)) := by
  induction n using listing.induct with
  | case1 n ih =>
    constructor
    · intro hm
      obtain ⟨c, hc, rfl | ⟨hFunction, hm⟩⟩ := mem_ownScope_cases hm
      · exact ⟨n, hc, .inl rfl⟩
      · obtain ⟨p, hmp, rfl | ⟨hp, hpFunction⟩⟩ := (ih ⟨c, hc⟩).mp hm
        · exact ⟨p, hmp, .inr ⟨mem_ownScope_of_mem_children hc, hFunction⟩⟩
        · exact ⟨p, hmp, .inr ⟨mem_ownScope_of_mem_child hc hFunction hp, hpFunction⟩⟩
    · rintro ⟨p, hmp, rfl | ⟨hp, hpFunction⟩⟩
      · exact mem_ownScope_of_mem_children hmp
      · obtain ⟨c, hc, rfl | ⟨hFunction, hp⟩⟩ := mem_ownScope_cases hp
        · exact mem_ownScope_of_mem_child hc hpFunction (mem_ownScope_of_mem_children hmp)
        · have hmc := (ih ⟨c, hc⟩).mpr ⟨p, hmp, .inr ⟨hp, hpFunction⟩⟩
          exact mem_ownScope_of_mem_child hc hFunction hmc

/-! ### Nodes in between -/

/-- The nodes strictly below a node, each with the nodes **in between** from the top down. -/
def trails (n : Node) : List (List Node × Node) :=
  n.children.attach.flatMap fun c => ([], c.1) :: (trails c.1).map fun t => (c.1 :: t.1, t.2)
termination_by sizeOf n
decreasing_by exact sizeOf_lt_of_mem_children c.2

theorem trails_eq (n : Node) :
    n.trails = n.children.flatMap fun c => ([], c) :: c.trails.map fun t => (c :: t.1, t.2) := by
  rw [trails, List.flatMap_subtype (g := fun c => ([], c) :: c.trails.map fun t => (c :: t.1, t.2))
    fun _ _ => rfl, List.unattach_attach]

theorem map_snd_trails (n : Node) : n.trails.map (·.2) = n.descendants := by
  induction n using listing.induct with
  | case1 n ih =>
    rw [trails_eq, descendants, List.map_flatMap]
    refine List.flatMap_congr fun c hc => ?_
    rw [List.map_cons, List.map_map, preorder_eq, ← descendants, ← ih ⟨c, hc⟩]
    rfl

/-- No function is in between. -/
def isFree (trail : List Node × Node) : Bool := trail.1.all fun b => !b.isFunction

/-- The own scope has the nodes with **no function in between**. -/
theorem ownScope_eq_trails (n : Node) : n.ownScope = (n.trails.filter isFree).map (·.2) := by
  induction n using listing.induct with
  | case1 n ih =>
    rw [ownScope_eq, trails_eq, List.filter_flatMap, List.map_flatMap]
    refine List.flatMap_congr fun c hc => ?_
    rw [List.filter_cons_of_pos rfl, List.map_cons, List.filter_map, List.map_map]
    refine congrArg (c :: ·) ?_
    by_cases hFunction : c.isFunction = true
    · -- behind a function nothing is free
      have hNone : c.trails.filter (isFree ∘ fun t => (c :: t.1, t.2)) = [] := by
        refine List.filter_eq_nil_iff.mpr fun t _ => ?_
        simp [isFree, hFunction]
      rw [if_pos hFunction, hNone, List.map_nil]
    · have hSame : (isFree ∘ fun t : List Node × Node => (c :: t.1, t.2)) = isFree := by
        funext t
        simp [isFree, hFunction]
      rw [if_neg hFunction, ih ⟨c, hc⟩, hSame]
      rfl

/-- The own scope leaves out nodes of the plain walk, and **keeps its order**. -/
theorem ownScope_sublist_descendants (n : Node) : n.ownScope.Sublist n.descendants := by
  rw [ownScope_eq_trails, ← map_snd_trails]
  exact List.filter_sublist.map _

theorem mem_descendants_of_mem_ownScope {n m : Node} (h : m ∈ n.ownScope) : m ∈ n.descendants :=
  n.ownScope_sublist_descendants.subset h

theorem ownScope_sublist {root n : Node} (hn : n ∈ root.preorder) :
    n.ownScope.Sublist root.preorder := by
  refine List.Sublist.trans ?_ (preorder_sublist hn)
  rw [preorder_eq]
  exact n.ownScope_sublist_descendants.cons n

end Node

/-! ### One step -/

section Steps

variable {root f n p c : Node} (h : root.DistinctIds)
include h

/-- **One step down**: a child is in the own scope of its parent, and in every own scope that its
parent is in, unless the parent is a function. -/
theorem mem_ownScope_child_iff (hf : f ∈ root.preorder) (hp : p ∈ root.preorder)
    (hc : c ∈ p.children) : c ∈ f.ownScope ↔ p = f ∨ (p ∈ f.ownScope ∧ ¬ p.isFunction) := by
  rw [Node.mem_ownScope_iff]
  constructor
  · rintro ⟨q, hcq, hq⟩
    have hqRoot : q ∈ root.preorder := by
      rcases hq with rfl | ⟨hq, -⟩
      · exact hf
      · exact (Node.ownScope_sublist hf).subset hq
    rwa [h.parent_unique hp hqRoot hc hcq]
  · exact fun hq => ⟨p, hc, hq⟩

/-- **One step up**: the nearest function around a child is its parent, or is the one around the
parent. -/
theorem Index.nearestFunction?_child (hp : p ∈ root.preorder) (hc : c ∈ p.children) :
    (build root).nearestFunction? c
      = if p.isFunction then some p else (build root).nearestFunction? p := by
  have hWay : WayUp root p ((build root).ancestors p) := (wayUp_iff_ancestors h hp).mpr rfl
  have hcRoot := Node.mem_preorder_trans hp (Node.mem_preorder_of_mem_children hc)
  have hAncestors := (wayUp_iff_ancestors h hcRoot).mp (.child hc hWay)
  rw [nearestFunction?, hAncestors, List.find?_cons]
  cases p.isFunction <;> rfl

theorem Index.nearestFunction?_root : (build root).nearestFunction? root = none := by
  rw [nearestFunction?, (wayUp_iff_ancestors h root.mem_preorder_self).mp .root, List.find?_nil]

/-! ### The whole way -/

/-- A node is in the own scope of a function if and only if the function is the **nearest** one
around it. -/
theorem mem_ownScope_iff_nearestFunction? (hf : f ∈ root.preorder) (hFunction : f.isFunction = true)
    (hn : n ∈ root.preorder) :
    n ∈ f.ownScope ↔ (Index.build root).nearestFunction? n = some f := by
  obtain ⟨above, hWay⟩ : ∃ above, WayUp root n above :=
    ⟨_, (Index.wayUp_iff_ancestors h hn).mpr rfl⟩
  -- by induction along the way up from the node
  induction hWay with
  | root =>
    rw [Index.nearestFunction?_root h]
    refine ⟨fun hMem => ?_, fun hNone => by cases hNone⟩
    exact absurd (Node.mem_descendants_of_mem_ownScope hMem)
      (Node.not_mem_descendants_of_mem_preorder hf)
  | @child p c above hc hWay ih =>
    have hp := hWay.mem_preorder
    rw [mem_ownScope_child_iff h hf hp hc, Index.nearestFunction?_child h hp hc]
    by_cases hpFunction : p.isFunction = true
    · rw [if_pos hpFunction, Option.some.injEq]
      exact ⟨fun hMem => hMem.resolve_right fun hMem => hMem.2 hpFunction, .inl⟩
    · rw [if_neg hpFunction, ← ih hp]
      refine ⟨fun hMem => ?_, fun hMem => .inr ⟨hMem, hpFunction⟩⟩
      rcases hMem with rfl | ⟨hMem, -⟩
      · exact absurd hFunction hpFunction
      · exact hMem

/-- What is below a nested function is **not** in the own scope. -/
theorem not_mem_ownScope_of_nested {g : Node} (hf : f ∈ root.preorder) (hg : g ∈ f.ownScope)
    (hFunction : g.isFunction = true) (hn : n ∈ g.descendants) : n ∉ f.ownScope := by
  have hgRoot := (Node.ownScope_sublist hf).subset hg
  obtain ⟨q, hq, hnq⟩ := Node.mem_descendants_iff.mp hn
  rw [Node.mem_preorder_iff] at hq
  -- by induction on the way from the nested function down to the parent of the node
  induction hq generalizing n with
  | refl =>
    rw [mem_ownScope_child_iff h hf hgRoot hnq]
    rintro (rfl | ⟨-, hNot⟩)
    · have hBelow := Node.mem_descendants_of_mem_ownScope hg
      exact Node.not_mem_descendants_of_mem_preorder g.mem_preorder_self hBelow
    · exact hNot hFunction
  | @tail r q hr hqr ih =>
    rw [← Node.mem_preorder_iff] at hr
    have hqBelow := Node.mem_descendants_of_child hr hqr
    have hqRoot := Node.mem_preorder_trans hgRoot (Node.mem_preorder_of_mem_descendants hqBelow)
    rw [mem_ownScope_child_iff h hf hqRoot hnq]
    rintro (rfl | ⟨hMem, -⟩)
    · have hBelow := Node.mem_descendants_of_mem_ownScope hg
      have hAbove := Node.mem_preorder_of_mem_descendants hqBelow
      exact Node.not_mem_descendants_of_mem_preorder hAbove hBelow
    · exact ih hqBelow hqr hMem

end Steps

/-! ### All functions of a tree -/

/-- **The own scopes divide up what is inside of functions.**  In a tree without shared nodes:

* a node is in the own scope of a function if and only if that function is the nearest one around
  it;
* an own scope lists no node twice, and lists its nodes in the order of the walk over the tree;
* a function that is in the own scope of another one belongs to it, and what is below it does not;
* the own scopes of two functions have no node in common;
* together they have the nodes with a function among their ancestors. -/
theorem ownScopes_divide_functions (root : Node) (h : root.DistinctIds) :
    (∀ f ∈ root.preorder, f.isFunction = true →
      (∀ n ∈ root.preorder,
        n ∈ f.ownScope ↔ (Index.build root).nearestFunction? n = some f) ∧
      (f.ownScope.map Node.id).Nodup ∧ f.ownScope.Sublist root.preorder ∧
      ∀ g ∈ f.ownScope, g.isFunction = true → ∀ n ∈ g.descendants, n ∉ f.ownScope) ∧
    (∀ f ∈ root.preorder, ∀ g ∈ root.preorder, f.isFunction = true → g.isFunction = true →
      f ≠ g → f.ownScope.Disjoint g.ownScope) ∧
    ∀ n, (∃ f ∈ root.preorder, f.isFunction = true ∧ n ∈ f.ownScope) ↔
      n ∈ root.preorder ∧ ∃ a ∈ (Index.build root).ancestors n, a.isFunction = true := by
  refine ⟨fun f hf hFunction => ⟨fun n => mem_ownScope_iff_nearestFunction? h hf hFunction, ?_,
    Node.ownScope_sublist hf,
    fun g hg hgFunction n => not_mem_ownScope_of_nested h hf hg hgFunction⟩,
    ?_, fun n => ⟨?_, ?_⟩⟩
  · exact h.sublist ((Node.ownScope_sublist hf).map Node.id)
  · intro f hf g hg hFunction hgFunction hNe n hnf hng
    have hn := (Node.ownScope_sublist hf).subset hnf
    rw [mem_ownScope_iff_nearestFunction? h hf hFunction hn] at hnf
    rw [mem_ownScope_iff_nearestFunction? h hg hgFunction hn, hnf] at hng
    exact hNe (Option.some.inj hng)
  · rintro ⟨f, hf, hFunction, hMem⟩
    have hn := (Node.ownScope_sublist hf).subset hMem
    rw [mem_ownScope_iff_nearestFunction? h hf hFunction hn] at hMem
    exact ⟨hn, f, List.mem_of_find?_eq_some hMem, hFunction⟩
  · rintro ⟨hn, a, ha, haFunction⟩
    -- the climb finds some function, and that one is the nearest
    obtain ⟨f, hNearest⟩ : ∃ f, (Index.build root).nearestFunction? n = some f := by
      refine Option.isSome_iff_exists.mp (List.find?_isSome.mpr ⟨a, ha, haFunction⟩)
    have hFunction : f.isFunction = true := List.find?_some hNearest
    have hf := ((Index.mem_ancestors_iff h hn).mp (List.mem_of_find?_eq_some hNearest)).1
    exact ⟨f, hf, hFunction, (mem_ownScope_iff_nearestFunction? h hf hFunction hn).mpr hNearest⟩

/-- The name `y` in the function `function f() { () => y }`. -/
def innerValue : Node :=
  .build ⟨[0], 4⟩ (.known .identifier)
    ⟨.int 0, .int 0, ⟨.int 1, .int 0⟩, ⟨.int 1, .int 0⟩⟩ [(.name, .value "y")]

/-- The function `() => y` in the function `function f() { () => y }`. -/
def innerFunction : Node :=
  .build ⟨[0], 3⟩ (.known .arrowFunctionExpression)
    ⟨.int 0, .int 0, ⟨.int 1, .int 0⟩, ⟨.int 1, .int 0⟩⟩
    [(.body, .node innerValue), (.expression, .value (.bool true))]

/-- The function `function f() { () => y }`. -/
def outerFunction : Node :=
  .build ⟨[0], 0⟩ (.known .functionDeclaration)
    ⟨.int 0, .int 0, ⟨.int 1, .int 0⟩, ⟨.int 1, .int 0⟩⟩
    [(.body, .node (.build ⟨[0], 2⟩ (.known .blockStatement)
      ⟨.int 0, .int 0, ⟨.int 1, .int 0⟩, ⟨.int 1, .int 0⟩⟩ [(.body, .nodes [innerFunction])]))]

theorem ownScopes_divide_functions_outerFunction :
    outerFunction.DistinctIds ∧ innerFunction ∈ outerFunction.ownScope ∧
      innerValue ∉ outerFunction.ownScope ∧
      (Index.build outerFunction).nearestFunction? innerValue = some innerFunction := by
  have hIds : outerFunction.DistinctIds := by decide +kernel
  have hNested : innerFunction ∈ outerFunction.ownScope := by
    refine Node.mem_ownScope_of_mem_child List.mem_cons_self (by decide +kernel) ?_
    exact Node.mem_ownScope_of_mem_children List.mem_cons_self
  have hValue : innerValue ∈ innerFunction.ownScope :=
    Node.mem_ownScope_of_mem_children List.mem_cons_self
  have hFunction := (Node.ownScope_sublist outerFunction.mem_preorder_self).subset hNested
  obtain ⟨hScopes, -, -⟩ := ownScopes_divide_functions outerFunction hIds
  obtain ⟨-, -, -, hFree⟩ := hScopes outerFunction outerFunction.mem_preorder_self rfl
  obtain ⟨hNearest, -, hSublist, -⟩ := hScopes innerFunction hFunction rfl
  exact ⟨hIds, hNested,
    hFree innerFunction hNested rfl innerValue (Node.mem_descendants_of_mem_ownScope hValue),
    (hNearest innerValue (hSublist.subset hValue)).mp hValue⟩

end ScriptLint.Ast
