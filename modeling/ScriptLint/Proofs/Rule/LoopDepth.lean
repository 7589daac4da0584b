import Mathlib.Order.Bounds.Basic
import ScriptLint.Proofs.Ast.Ancestry
import ScriptLint.Proofs.Rule.Recursion
import ScriptLint.Rule.Loop

/-!
# The nesting of loops

The depth of a loop is searched with a stack; every node on it comes with the number of loops above
it.  The same number is read off the tree: a node counts one if it is a loop, and adds the greatest
number of its children.  It is also the greatest number of loops on a way down from the loop.  The
rule for nested loops looks only at the body of a loop, while the depth counts the loops in its
other parts too; so what the rule finds always has a depth of two or more.

* `Node.loopNesting`: the nesting of loops, by recursion.
* `deepest_le_iff`: what the search with a stack finds.  `maxLoopDepth_eq_loopNesting` says that it
  is the nesting.
* `isGreatest_loopNesting`: the nesting is the greatest number of loops on a way down.
* `isNested_eq_true_iff`: the rule finds a loop with another loop in its body.
* `nestedLoops_depth`: all of this about a loop of a well-typed tree.
-/

namespace ScriptLint

open Ast (Node Slot Index Construct WayUp)

/-! ### Nesting -/

namespace Ast.Node

/-- What a node counts by itself: one for a loop. -/
def ownLoop (n : Node) : Nat := if n.isLoop then 1 else 0

/-- The **nesting** of loops in a tree: one for a loop, and the greatest nesting of its children. -/
def loopNesting (n : Node) : Nat :=
  n.ownLoop + (n.children.attach.map fun c => loopNesting c.1).foldr max 0
termination_by sizeOf n
decreasing_by exact sizeOf_lt_of_mem_children c.2

theorem foldr_max_le_iff {l : List Nat} {b : Nat} : l.foldr max 0 ≤ b ↔ ∀ a ∈ l, a ≤ b := by
  induction l with
  | nil => simp
  | cons a l ih => rw [List.foldr_cons, Nat.max_le, ih, List.forall_mem_cons]

theorem foldr_max_eq_zero_or_mem (l : List Nat) : l.foldr max 0 = 0 ∨ l.foldr max 0 ∈ l := by
  induction l with
  | nil => exact .inl rfl
  | cons a l ih =>
    rw [List.foldr_cons, List.mem_cons]
    rcases Nat.le_total (l.foldr max 0) a with h | h
    · exact .inr (.inl (Nat.max_eq_left h))
    · rw [Nat.max_eq_right h]
      exact ih.imp_right .inr

theorem loopNesting_eq (n : Node) :
    n.loopNesting = n.ownLoop + (n.children.map loopNesting).foldr max 0 := by
  rw [loopNesting, List.map_subtype (g := loopNesting) fun _ _ => rfl, List.unattach_attach]

/-- A bound of the nesting is a bound **for the node and for every child**. -/
theorem add_loopNesting_le_iff {n : Node} {d b : Nat} :
    d + n.loopNesting ≤ b ↔
      d + n.ownLoop ≤ b ∧ ∀ c ∈ n.children, d + n.ownLoop + c.loopNesting ≤ b := by
  have hMax := foldr_max_le_iff (l := n.children.map loopNesting) (b := b - (d + n.ownLoop))
  rw [List.forall_mem_map] at hMax
  rw [loopNesting_eq]
  constructor
  · intro h
    refine ⟨by omega, fun c hc => ?_⟩
    have hChild := hMax.mp (by omega) c hc
    omega
  · rintro ⟨hOwn, hChildren⟩
    have hAll := hMax.mpr fun c hc => by
      have hChild := hChildren c hc
      omega
    omega

theorem ownLoop_le_loopNesting (n : Node) : n.ownLoop ≤ n.loopNesting := by
  rw [loopNesting_eq]
  omega

theorem ownLoop_add_le_loopNesting {n c : Node} (hc : c ∈ n.children) :
    n.ownLoop + c.loopNesting ≤ n.loopNesting := by
  have hBound := (add_loopNesting_le_iff (d := 0)).mp (Nat.le_of_eq (Nat.zero_add n.loopNesting))
  have hChild := hBound.2 c hc
  omega

/-- Below a node the nesting is not greater. -/
theorem loopNesting_le_of_mem_preorder {n m : Node} (hm : m ∈ n.preorder) :
    m.loopNesting ≤ n.loopNesting := by
  rw [mem_preorder_iff] at hm
  induction hm with
  | refl => exact Nat.le_refl _
  | tail _ hc ih =>
    have hStep := ownLoop_add_le_loopNesting hc
    omega

/-- Strictly below a loop the nesting is **less**. -/
theorem loopNesting_lt_of_mem_descendants {n m : Node} (hn : n.isLoop = true)
    (hm : m ∈ n.descendants) : m.loopNesting + 1 ≤ n.loopNesting := by
  obtain ⟨c, hc, hmc⟩ := List.mem_flatMap.mp hm
  have hBelow := loopNesting_le_of_mem_preorder hmc
  have hStep := ownLoop_add_le_loopNesting hc
  rw [ownLoop, if_pos hn] at hStep
  omega

theorem countP_cons_isLoop (n : Node) (above : List Node) :
    (n :: above).countP isLoop = n.ownLoop + above.countP isLoop := by
  rw [List.countP_cons, ownLoop, Nat.add_comm]

/-- The loops on the way up and the nesting below it are together no more than the nesting of the
root. -/
theorem countP_add_loopNesting_le {root n : Node} {above : List Node} (hWay : WayUp root n above) :
    above.countP isLoop + n.loopNesting ≤ root.loopNesting := by
  induction hWay with
  | root => simp
  | @child p c above hc _ ih =>
    have hStep := ownLoop_add_le_loopNesting hc
    rw [countP_cons_isLoop]
    omega

/-- From every node some way goes on **through as many loops** as are nested below the node. -/
theorem exists_countP_eq {root : Node} (n : Node) : ∀ {above : List Node}, WayUp root n above →
    ∃ m up, WayUp root m up ∧ (m :: up).countP isLoop = above.countP isLoop + n.loopNesting := by
  induction n using loopNesting.induct with
  | case1 n ih =>
    intro above hWay
    rcases foldr_max_eq_zero_or_mem (n.children.map loopNesting) with hZero | hMem
    · refine ⟨n, above, hWay, ?_⟩
      rw [countP_cons_isLoop, loopNesting_eq, hZero]
      omega
    · -- the way goes on to the child with the greatest nesting
      obtain ⟨c, hc, hMax⟩ := List.mem_map.mp hMem
      obtain ⟨m, up, hUp, hCount⟩ := ih ⟨c, hc⟩ (.child hc hWay)
      refine ⟨m, up, hUp, ?_⟩
      rw [hCount, countP_cons_isLoop, n.loopNesting_eq, hMax]
      omega

/-- The nesting is the **greatest number of loops on a way down** from the root. -/
theorem isGreatest_loopNesting (root : Node) :
    IsGreatest {k | ∃ n above, WayUp root n above ∧ k = (n :: above).countP isLoop}
      root.loopNesting := by
  constructor
  · obtain ⟨n, above, hWay, hCount⟩ := exists_countP_eq root WayUp.root
    refine ⟨n, above, hWay, ?_⟩
    rw [hCount, List.countP_nil, Nat.zero_add]
  · rintro k ⟨n, above, hWay, rfl⟩
    have hBound := countP_add_loopNesting_le hWay
    have hOwn := n.ownLoop_le_loopNesting
    rw [countP_cons_isLoop]
    omega

end Ast.Node

/-! ### The search with a stack -/

namespace LoopBody

/-- What the search finds.  It keeps the number of loops above every node on the stack within what
has been found. -/
theorem deepest_le_iff (stack : List (Node × Nat)) (best b : Nat)
    (hStack : ∀ p ∈ stack, p.2 ≤ best) :
    deepest stack best ≤ b ↔ best ≤ b ∧ ∀ p ∈ stack, p.2 + p.1.loopNesting ≤ b := by
  fun_induction deepest stack best with
  | case1 best => simp
  | case2 n depth stack best hLoop ih =>
    rw [List.forall_mem_cons] at hStack
    rw [ih ?_, List.forall_mem_append, List.forall_mem_map, List.forall_mem_cons,
      Node.add_loopNesting_le_iff, Node.ownLoop, if_pos hLoop, Nat.max_le]
    · tauto
    · intro p hp
      rw [List.mem_append, List.mem_map] at hp
      rcases hp with ⟨c, -, rfl⟩ | hp
      · exact Nat.le_max_right _ _
      · exact Nat.le_trans (hStack.2 p hp) (Nat.le_max_left _ _)
  | case3 n depth stack best hLoop ih =>
    rw [List.forall_mem_cons] at hStack
    rw [ih ?_, List.forall_mem_append, List.forall_mem_map, List.forall_mem_cons,
      Node.add_loopNesting_le_iff, Node.ownLoop, if_neg hLoop, Nat.add_zero]
    · have hDepth : best ≤ b → depth ≤ b := Nat.le_trans hStack.1
      tauto
    · intro p hp
      rw [List.mem_append, List.mem_map] at hp
      rcases hp with ⟨c, -, rfl⟩ | hp
      · exact hStack.1
      · exact hStack.2 p hp

theorem maxLoopDepth_eq_loopNesting (n : Node) : maxLoopDepth n = n.loopNesting := by
  have hIff : ∀ b, maxLoopDepth n ≤ b ↔ n.loopNesting ≤ b := by
    intro b
    rw [maxLoopDepth, deepest_le_iff _ _ _ (by simp)]
    simp
  exact Nat.le_antisymm ((hIff _).mpr (Nat.le_refl _)) ((hIff _).mp (Nat.le_refl _))

/-! ### The rule -/

/-- The rule finds a loop **with another loop in its body**. -/
theorem isNested_eq_true_iff {loop : Node} (hLoop : loop.isLoop = true) :
    isNested loop = .ok true ↔
      ∃ body, loop.slot .body = .node body ∧ ∃ m ∈ body.preorder, m.isLoop = true := by
  rw [isNested, if_pos hLoop]
  cases hBody : loop.slot .body with
  | node body =>
    have hDecides : Outcome.Decides (∃ m ∈ body.preorder, m.isLoop = true)
        (Ast.anyNode (fun m => (.ok m.isLoop : Except Fault Bool)) body.preorder) :=
      Ast.anyNode_decides fun m _ => .of_bool m.isLoop
    obtain ⟨b, hb, hIff⟩ := hDecides
    simp only [Slot.anyNode, hb, Except.ok.injEq, hIff, Slot.node.injEq, exists_eq_left']
  | nodes ns => simp [Slot.anyNode, Slot.isNull]
  | value v =>
    simp only [Slot.anyNode, reduceCtorEq, false_and, exists_false, iff_false]
    split <;> simp

/-- In a well-typed tree the rule has an answer for every loop that is one of the constructs. -/
theorem exists_isNested {root loop : Node} (hTyped : root.WellTyped) (hn : loop ∈ root.preorder)
    (hLoop : loop.isLoop = true) {c : Construct} (hc : loop.is c = true) :
    ∃ b, isNested loop = .ok b := by
  have hLoops : c ∈ Construct.loops := by
    rw [Node.isLoop, Node.kind_of_is hc] at hLoop
    exact List.contains_iff_mem.mp hLoop
  have hBody : ∀ d ∈ Construct.loops, d ≠ .literal ∧ (.body, .plain .null) ∈ d.fields := by
    intro d hd
    simp only [Construct.loops, List.mem_cons, List.not_mem_nil, or_false] at hd
    rcases hd with rfl | rfl | rfl | rfl | rfl
    all_goals exact ⟨by decide, by simp [Construct.fields]; rfl⟩
  have hPart := Slot.isPartOf_of_wellTyped hTyped hn hc (hBody c hLoops).1 (hBody c hLoops).2
  obtain ⟨b, hb, -⟩ := Slot.anyNode_decides (e := .noPart) hPart
    fun m _ => Outcome.Decides.of_bool m.isLoop
  rw [isNested, if_pos hLoop]
  exact ⟨b, hb⟩

/-- A node is below the body of a loop if and only if its way up **comes into the loop from the
body**. -/
theorem mem_body_iff {root loop body m : Node} (hIds : root.DistinctIds)
    (hLoop : loop ∈ root.preorder) (hBody : loop.slot .body = .node body) :
    m ∈ body.preorder ↔
      m ∈ root.preorder ∧ [body, loop] <:+: m :: (Index.build root).ancestors m := by
  constructor
  · intro hm
    have hLoopUp := (Index.wayUp_iff_ancestors hIds hLoop).mpr rfl
    have hWay : WayUp root body (loop :: (Index.build root).ancestors loop) :=
      .child (Node.mem_children_of_slot hBody) hLoopUp
    obtain ⟨up, hUp, hSuffix⟩ := hWay.exists_of_mem_preorder hm
    rw [(Index.wayUp_iff_ancestors hIds hUp.mem_preorder).mp hUp]
    exact ⟨hUp.mem_preorder, List.IsInfix.trans ⟨[], _, rfl⟩ hSuffix.isInfix⟩
  · rintro ⟨hm, hInfix⟩
    have hIn := hInfix.subset (List.mem_cons_self (a := body))
    rw [Node.mem_preorder]
    rcases List.mem_cons.mp hIn with rfl | hAbove
    · exact .inl rfl
    · exact .inr ((Index.mem_ancestors_iff hIds hm).mp hAbove).2

/-- **Depth and nesting of loops.**  Let a loop be in a well-typed tree without shared nodes, for
instance at its root.

* The depth that the search finds is the nesting by recursion, and the greatest number of loops on a
  way down from the loop, with both ends counted.
* A loop strictly below it has a smaller depth.
* If the rule finds the loop, it reports the depth, and this is two or more.
* The rule finds the loop if and only if some loop has it among its ancestors, with the step into it
  from its body.  The rule has an answer for every loop that is one of the constructs. -/
theorem nestedLoops_depth (root loop : Node) (hIds : root.DistinctIds) (hTyped : root.WellTyped)
    (hMem : loop ∈ root.preorder) (hLoop : loop.isLoop = true) (ctx : Context) :
    maxLoopDepth loop = loop.loopNesting ∧
    IsGreatest {k | ∃ n above, WayUp loop n above ∧ k = (n :: above).countP Node.isLoop}
      (maxLoopDepth loop) ∧
    (∀ m ∈ loop.descendants, m.isLoop = true → maxLoopDepth m + 1 ≤ maxLoopDepth loop) ∧
    (nestedLoops.matcher.test loop ctx = .ok true →
      ∃ detail, nestedLoops.matcher.describe loop ctx = .ok (some detail) ∧
        detail.complexity = maxLoopDepth loop ∧ 2 ≤ detail.complexity) ∧
    (nestedLoops.matcher.test loop ctx = .ok true ↔
      ∃ m ∈ root.preorder, m.isLoop = true ∧ ∃ body, loop.slot .body = .node body ∧
        [body, loop] <:+: m :: (Index.build root).ancestors m) ∧
    ∀ c, loop.is c = true → ∃ b, nestedLoops.matcher.test loop ctx = .ok b := by
  have hTest : nestedLoops.matcher.test loop ctx = isNested loop := rfl
  simp only [maxLoopDepth_eq_loopNesting, hTest]
  refine ⟨trivial, loop.isGreatest_loopNesting, ?_, ?_, ?_, ?_⟩
  · intro m hm _
    exact Node.loopNesting_lt_of_mem_descendants hLoop hm
  · intro hNested
    obtain ⟨body, hBody, m, hm, hmLoop⟩ := (isNested_eq_true_iff hLoop).mp hNested
    have hBelow : m ∈ loop.descendants :=
      List.mem_flatMap.mpr ⟨body, Node.mem_children_of_slot hBody, hm⟩
    have hDepth := Node.loopNesting_lt_of_mem_descendants hLoop hBelow
    have hOwn := m.ownLoop_le_loopNesting
    rw [Node.ownLoop, if_pos hmLoop] at hOwn
    refine ⟨nestedDetail loop, rfl, congrArg Int.ofNat (maxLoopDepth_eq_loopNesting loop), ?_⟩
    change (2 : Int) ≤ (maxLoopDepth loop : Int)
    rw [maxLoopDepth_eq_loopNesting]
    omega
  · rw [isNested_eq_true_iff hLoop]
    constructor
    · rintro ⟨body, hBody, m, hm, hmLoop⟩
      obtain ⟨hmRoot, hInfix⟩ := (mem_body_iff hIds hMem hBody).mp hm
      exact ⟨m, hmRoot, hmLoop, body, hBody, hInfix⟩
    · rintro ⟨m, hm, hmLoop, body, hBody, hInfix⟩
      exact ⟨body, hBody, m, (mem_body_iff hIds hMem hBody).mpr ⟨hm, hInfix⟩, hmLoop⟩
  · intro c hc
    exact exists_isNested hTyped hMem hLoop hc

/-- One of the names in `while (a) while (b) c`. -/
def condition (part : Nat) (name : Text) : Node :=
  .build ⟨[0], part⟩ (.known .identifier)
    ⟨.int 0, .int 0, ⟨.int 1, .int 0⟩, ⟨.int 1, .int 0⟩⟩ [(.name, .value name)]

/-- The inner loop of `while (a) while (b) c`. -/
def innerLoop : Node :=
  .build ⟨[0], 2⟩ (.known .whileStatement)
    ⟨.int 0, .int 0, ⟨.int 1, .int 0⟩, ⟨.int 1, .int 0⟩⟩
    [(.test, .node (condition 3 "b")), (.body, .node (condition 4 "c"))]

/-- The loop `while (a) while (b) c`. -/
def outerLoop : Node :=
  .build ⟨[0], 0⟩ (.known .whileStatement)
    ⟨.int 0, .int 0, ⟨.int 1, .int 0⟩, ⟨.int 1, .int 0⟩⟩
    [(.test, .node (condition 1 "a")), (.body, .node innerLoop)]

/-- Nothing is known besides the tree. -/
def emptyContext : Context := { filePath := [], language := .javascript, source := [] }

theorem nestedLoops_depth_outerLoop :
    outerLoop.DistinctIds ∧ outerLoop.WellTyped ∧ maxLoopDepth outerLoop = 2 ∧
      nestedLoops.matcher.test outerLoop emptyContext = .ok true ∧
      maxLoopDepth innerLoop + 1 ≤ maxLoopDepth outerLoop := by
  have hIds : outerLoop.DistinctIds := by decide +kernel
  have hTyped : outerLoop.WellTyped := by decide +kernel
  have hWay : WayUp outerLoop innerLoop [outerLoop] := by
    refine .child ?_ .root
    show _ ∈ [condition 1 "a", innerLoop]
    exact List.mem_cons_of_mem _ List.mem_cons_self
  have hAncestors := (Index.wayUp_iff_ancestors hIds hWay.mem_preorder).mp hWay
  have hBelow : innerLoop ∈ outerLoop.descendants :=
    ((hWay.mem_iff hIds).mp List.mem_cons_self).2
  obtain ⟨-, -, hDepth, -, hTest, -⟩ := nestedLoops_depth outerLoop outerLoop hIds hTyped
    outerLoop.mem_preorder_self rfl emptyContext
  refine ⟨hIds, hTyped, by decide +kernel, hTest.mpr ?_, hDepth innerLoop hBelow rfl⟩
  exact ⟨innerLoop, hWay.mem_preorder, rfl, innerLoop, rfl, hAncestors ▸ List.infix_refl _⟩

end LoopBody
end ScriptLint
