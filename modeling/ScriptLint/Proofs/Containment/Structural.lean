import ScriptLint.Containment.Structural
import ScriptLint.Proofs.Ast.Typed

/-!
# Inside a loop, seen from above

The search for a loop goes from a node outward, from parent to parent.  This file says what it finds
when one looks at the tree from the root: a loop with the node in its body, or a function that is
handed over to be called for every element, with the node below it.

* `LoopAround`, `CallbackAround`: the two things that can be around a node.
* `EnclosedUpTo`: one of them is around the node, and no boundary is in between.
* `enclosedUpTo_child_iff`: what is around a child is its parent, or is around the parent and not cut
  off by it.  This is one step of the search.
* `climb_iff`: the whole search, step by step along the lineage of the node.
* `structural_iff`: the answers of the search, with and without boundaries.
-/

namespace ScriptLint.Containment

open Ast (Node Slot Index Field)

/-! ### Loops and callbacks around a node -/

/-- The node is in the **body** of the loop. -/
structure LoopAround (root loop n : Node) : Prop where
  mem : loop ∈ root.preorder
  isLoop : loop.isLoop = true
  inBody : ∃ body, loop.slot .body = .node body ∧ n ∈ body.preorder

/-- The function is an argument of a call of one of the methods that call it for every element. -/
def HandedOver (root function : Node) : Prop :=
  ∃ call ∈ root.preorder, call.is .callExpression = true ∧
    (∃ args, call.slot .arguments = .nodes args ∧ function ∈ args) ∧
    ∃ name ∈ iterationMethods, call.methodName.text? = some name

/-- The node is **strictly below** a function that is called for every element. -/
structure CallbackAround (root function n : Node) : Prop where
  mem : function ∈ root.preorder
  isFunction : function.isFunction = true
  handedOver : HandedOver root function
  below : n ∈ function.descendants

/-- A loop or a callback is around the node, and no boundary that is above the node is strictly
inside the loop, or is the callback or inside it. -/
def EnclosedUpTo (isBoundary : Node → Prop) (root n : Node) : Prop :=
  (∃ loop, LoopAround root loop n ∧
    ∀ b ∈ loop.descendants, isBoundary b → n ∉ b.descendants) ∨
  ∃ function, CallbackAround root function n ∧
    ∀ b ∈ function.preorder, isBoundary b → n ∉ b.descendants

theorem LoopAround.mem_descendants {root loop n : Node} (h : LoopAround root loop n) :
    n ∈ loop.descendants := by
  obtain ⟨body, hBody, hn⟩ := h.inBody
  exact List.mem_flatMap.mpr ⟨body, Node.mem_children_of_slot hBody, hn⟩

theorem EnclosedUpTo.mono {P Q : Node → Prop} (hPQ : ∀ b, Q b → P b) {root n : Node}
    (h : EnclosedUpTo P root n) : EnclosedUpTo Q root n := by
  rcases h with ⟨loop, hLoop, hFree⟩ | ⟨function, hCallback, hFree⟩
  · exact .inl ⟨loop, hLoop, fun b hb hQ => hFree b hb (hPQ b hQ)⟩
  · exact .inr ⟨function, hCallback, fun b hb hQ => hFree b hb (hPQ b hQ)⟩

/-- Without boundaries it is enough that something is around the node. -/
theorem enclosedUpTo_false_iff {root n : Node} :
    EnclosedUpTo (fun _ => False) root n ↔
      (∃ loop, LoopAround root loop n) ∨ ∃ function, CallbackAround root function n := by
  constructor
  · rintro (⟨loop, h, _⟩ | ⟨function, h, _⟩)
    · exact .inl ⟨loop, h⟩
    · exact .inr ⟨function, h⟩
  · rintro (⟨loop, h⟩ | ⟨function, h⟩)
    · exact .inl ⟨loop, h, fun _ _ hb => hb.elim⟩
    · exact .inr ⟨function, h, fun _ _ hb => hb.elim⟩

/-- A node below another field than the body is **not in the body**. -/
theorem LoopAround.not_below_other_field {root loop n : Node} (hIds : root.DistinctIds)
    (h : LoopAround root loop n) {f : Field} (hf : f ≠ .body) {c : Node}
    (hc : loop.slot f = .node c) : n ∉ c.preorder := by
  intro hnc
  obtain ⟨body, hBody, hnb⟩ := h.inBody
  have hbc : body = c := hIds.eq_of_common h.mem (Node.mem_children_of_slot hBody)
    (Node.mem_children_of_slot hc) hnb hnc
  rw [hbc] at hBody
  exact hIds.not_in_two_fields h.mem hf hc hBody

/-! ### One step -/

section Steps

variable {root n p c : Node} (hIds : root.DistinctIds)
include hIds

/-- A loop is around a child if the child is its body, or if it is around the parent. -/
theorem loopAround_child_iff (hp : p ∈ root.preorder) (hc : c ∈ p.children) (loop : Node) :
    LoopAround root loop c ↔
      (loop = p ∧ p.isLoop = true ∧ p.slot .body = .node c) ∨ LoopAround root loop p := by
  constructor
  · rintro ⟨hMem, hLoop, body, hBody, hcb⟩
    have hBodyMem := Ast.Node.slot_node hMem hBody
    rcases Node.mem_preorder.mp hcb with rfl | hBelow
    · have hlp : loop = p := hIds.parent_unique hMem hp (Node.mem_children_of_slot hBody) hc
      rw [hlp] at hLoop hBody
      exact .inl ⟨hlp, hLoop, hBody⟩
    · exact .inr ⟨hMem, hLoop, body, hBody, (hIds.mem_descendants_iff hBodyMem hp hc).mp hBelow⟩
  · rintro (⟨rfl, hLoop, hBody⟩ | ⟨hMem, hLoop, body, hBody, hpb⟩)
    · exact ⟨hp, hLoop, c, hBody, c.mem_preorder_self⟩
    · refine ⟨hMem, hLoop, body, hBody, Node.mem_preorder_trans hpb ?_⟩
      exact Node.mem_preorder_of_mem_children hc

/-- A callback is around a child if it is the parent, or if it is around the parent. -/
theorem callbackAround_child_iff (hp : p ∈ root.preorder) (hc : c ∈ p.children) (function : Node) :
    CallbackAround root function c ↔
      (function = p ∧ p.isFunction = true ∧ HandedOver root p) ∨
        CallbackAround root function p := by
  constructor
  · rintro ⟨hMem, hFunction, hHanded, hBelow⟩
    rcases Node.mem_preorder.mp ((hIds.mem_descendants_iff hMem hp hc).mp hBelow) with rfl | hBelow
    · exact .inl ⟨rfl, hFunction, hHanded⟩
    · exact .inr ⟨hMem, hFunction, hHanded, hBelow⟩
  · rintro (⟨rfl, hFunction, hHanded⟩ | ⟨hMem, hFunction, hHanded, hBelow⟩)
    · exact ⟨hp, hFunction, hHanded, Node.mem_descendants_of_child function.mem_preorder_self hc⟩
    · refine ⟨hMem, hFunction, hHanded, Node.mem_descendants_of_child ?_ hc⟩
      exact Node.mem_preorder_of_mem_descendants hBelow

/-- No boundary is between a child and something around its parent if the parent is none, and none
is between the parent and that. -/
theorem free_child_iff (isBoundary : Node → Prop) (hp : p ∈ root.preorder) (hc : c ∈ p.children)
    {inside : List Node} (hInside : ∀ b ∈ inside, b ∈ root.preorder) (hpInside : p ∈ inside) :
    (∀ b ∈ inside, isBoundary b → c ∉ b.descendants) ↔
      ¬ isBoundary p ∧ ∀ b ∈ inside, isBoundary b → p ∉ b.descendants := by
  constructor
  · intro hFree
    refine ⟨fun hBoundary => hFree p hpInside hBoundary ?_, fun b hb hBoundary hBelow => ?_⟩
    · exact Node.mem_descendants_of_child p.mem_preorder_self hc
    · refine hFree b hb hBoundary (Node.mem_descendants_of_child ?_ hc)
      exact Node.mem_preorder_of_mem_descendants hBelow
  · rintro ⟨hOpen, hFree⟩ b hb hBoundary hBelow
    have hpb := (hIds.mem_descendants_iff (hInside b hb) hp hc).mp hBelow
    rcases Node.mem_preorder.mp hpb with rfl | hBelow
    · exact hOpen hBoundary
    · exact hFree b hb hBoundary hBelow

/-- **One step of the search.**  What encloses a child is its parent, or encloses the parent, unless
the parent is a boundary. -/
theorem enclosedUpTo_child_iff (isBoundary : Node → Prop) (hp : p ∈ root.preorder)
    (hc : c ∈ p.children) :
    EnclosedUpTo isBoundary root c ↔
      (p.isLoop = true ∧ p.slot .body = .node c) ∨
        (¬ isBoundary p ∧ p.isFunction = true ∧ HandedOver root p) ∨
        (¬ isBoundary p ∧ EnclosedUpTo isBoundary root p) := by
  have hBelow : ∀ m ∈ root.preorder, ∀ b ∈ m.preorder, b ∈ root.preorder :=
    fun m hm b hb => Node.mem_preorder_trans hm hb
  have hStrict : ∀ m ∈ root.preorder, ∀ b ∈ m.descendants, b ∈ root.preorder :=
    fun m hm b hb => hBelow m hm b (Node.mem_preorder_of_mem_descendants hb)
  constructor
  · rintro (⟨loop, hLoop, hFree⟩ | ⟨function, hCallback, hFree⟩)
    · rcases (loopAround_child_iff hIds hp hc loop).mp hLoop with ⟨-, hIsLoop, hBody⟩ | hLoop
      · exact .inl ⟨hIsLoop, hBody⟩
      · have hFree := (free_child_iff hIds isBoundary hp hc (hStrict loop hLoop.mem)
          hLoop.mem_descendants).mp hFree
        exact .inr (.inr ⟨hFree.1, .inl ⟨loop, hLoop, hFree.2⟩⟩)
    · rcases (callbackAround_child_iff hIds hp hc function).mp hCallback with
        ⟨rfl, hFunction, hHanded⟩ | hCallback
      · refine .inr (.inl ⟨fun hBoundary => ?_, hFunction, hHanded⟩)
        refine hFree function function.mem_preorder_self hBoundary ?_
        exact Node.mem_descendants_of_child function.mem_preorder_self hc
      · have hFree := (free_child_iff hIds isBoundary hp hc (hBelow function hCallback.mem)
          (Node.mem_preorder_of_mem_descendants hCallback.below)).mp hFree
        exact .inr (.inr ⟨hFree.1, .inr ⟨function, hCallback, hFree.2⟩⟩)
  · rintro (⟨hIsLoop, hBody⟩ | ⟨hOpen, hFunction, hHanded⟩ | ⟨hOpen, hLoop | hCallback⟩)
    · refine .inl ⟨p, (loopAround_child_iff hIds hp hc p).mpr (.inl ⟨rfl, hIsLoop, hBody⟩), ?_⟩
      -- what is strictly inside the loop is not above its body
      intro b hb _ hcb
      have hpb := (hIds.mem_descendants_iff (hStrict p hp b hb) hp hc).mp hcb
      exact Node.not_mem_descendants_of_mem_preorder hpb hb
    · refine .inr ⟨p, (callbackAround_child_iff hIds hp hc p).mpr
        (.inl ⟨rfl, hFunction, hHanded⟩), ?_⟩
      refine (free_child_iff hIds isBoundary hp hc (hBelow p hp) p.mem_preorder_self).mpr
        ⟨hOpen, fun b hb _ => Node.not_mem_descendants_of_mem_preorder hb⟩
    · obtain ⟨loop, hLoop, hFree⟩ := hLoop
      refine .inl ⟨loop, (loopAround_child_iff hIds hp hc loop).mpr (.inr hLoop), ?_⟩
      exact (free_child_iff hIds isBoundary hp hc (hStrict loop hLoop.mem)
        hLoop.mem_descendants).mpr ⟨hOpen, hFree⟩
    · obtain ⟨function, hCallback, hFree⟩ := hCallback
      refine .inr ⟨function, (callbackAround_child_iff hIds hp hc function).mpr (.inr hCallback), ?_⟩
      exact (free_child_iff hIds isBoundary hp hc (hBelow function hCallback.mem)
        (Node.mem_preorder_of_mem_descendants hCallback.below)).mpr ⟨hOpen, hFree⟩

end Steps

/-! ### The search -/

theorem isIterationCallback_of_call {ix : Index} {n p : Node} {args : List Node}
    (hp : ix.parent? n = some p) (hCall : p.is .callExpression = true)
    (hArgs : p.slot .arguments = .nodes args) :
    isIterationCallback ix n =
      if args.any fun m => m.id == n.id then p.methodName.isOneOf iterationMethods
      else .ok false := by
  simp only [isIterationCallback, hp, hCall, hArgs, Slot.items, Bool.not_true, Bool.false_eq_true,
    if_false]
  show (if ((args.map some).any fun a => a.any fun m => m.id == n.id) = true then _ else _) = _
  rw [List.any_map]
  rfl

theorem mem_children_of_argument {call : Node} {args : List Node}
    (hArgs : call.slot .arguments = .nodes args) {m : Node} (hm : m ∈ args) : m ∈ call.children := by
  refine Node.mem_children_of_mem_slot (f := .arguments) ?_
  rw [hArgs]
  exact hm

section Search

variable {root n : Node} (hIds : root.DistinctIds) (hTyped : root.WellTyped)
include hIds

theorem holds_iff (hn : n ∈ root.preorder) {p : Node} (hp : p ∈ root.preorder) (f : Field) :
    (p.slot f).holds n = true ↔ p.slot f = .node n := by
  cases hs : p.slot f with
  | node m =>
    have hm := Node.slot_node hp hs
    rw [Slot.holds, beq_iff_eq, Slot.node.injEq]
    exact ⟨fun hid => hIds.eq_of_id_eq hm hn hid, fun hEq => congrArg Node.id hEq⟩
  | nodes ms => simp [Slot.holds]
  | value v => simp [Slot.holds]

/-- Arguments are told by their numbers. -/
theorem any_id_arguments_iff (hn : n ∈ root.preorder) {call : Node} (hCall : call ∈ root.preorder)
    {args : List Node} (hArgs : call.slot .arguments = .nodes args) :
    (args.any fun m => m.id == n.id) = true ↔ n ∈ args := by
  rw [List.any_eq_true]
  constructor
  · rintro ⟨m, hm, hid⟩
    have hChild := mem_children_of_argument hArgs hm
    have hmRoot := Node.mem_preorder_trans hCall (Node.mem_preorder_of_mem_children hChild)
    rwa [← hIds.eq_of_id_eq hmRoot hn (beq_iff_eq.mp hid)]
  · intro hMem
    exact ⟨n, hMem, beq_self_eq_true _⟩

/-- A call that a function is handed to is its **parent**. -/
theorem handedOver_iff_parent {p : Node} (hn : n ∈ root.preorder)
    (hp : (Index.build root).parent? n = some p) :
    HandedOver root n ↔ p.is .callExpression = true ∧
      (∃ args, p.slot .arguments = .nodes args ∧ n ∈ args) ∧
      ∃ name ∈ iterationMethods, p.methodName.text? = some name := by
  constructor
  · rintro ⟨call, hCall, hIs, ⟨args, hArgs, hMem⟩, hName⟩
    have hParent := Index.build_parent? hIds hCall (mem_children_of_argument hArgs hMem)
    rw [hp, Option.some.injEq] at hParent
    rw [hParent]
    exact ⟨hIs, ⟨args, hArgs, hMem⟩, hName⟩
  · rintro ⟨hIs, hArgs, hName⟩
    have hpRoot := ((Index.build_parent?_eq_some_iff hIds hn).mp hp).1
    exact ⟨p, hpRoot, hIs, hArgs, hName⟩

include hTyped

/-- The index tells whether a function is called for every element. -/
theorem isIterationCallback_iff (hn : n ∈ root.preorder) :
    ∃ b, isIterationCallback (.build root) n = .ok b ∧ (b = true ↔ HandedOver root n) := by
  cases hp : (Index.build root).parent? n with
  | none =>
    refine ⟨false, by rw [isIterationCallback, hp], ⟨nofun, ?_⟩⟩
    rintro ⟨call, hCall, -, ⟨args, hArgs, hMem⟩, -⟩
    rw [Index.build_parent? hIds hCall (mem_children_of_argument hArgs hMem)] at hp
    cases hp
  | some p =>
    have hpRoot := ((Index.build_parent?_eq_some_iff hIds hn).mp hp).1
    rw [handedOver_iff_parent hIds hn hp]
    by_cases hIs : p.is .callExpression = true
    · obtain ⟨args, hArgs⟩ := hTyped.arguments hpRoot hIs
      have hArg := any_id_arguments_iff hIds hn hpRoot hArgs
      rw [isIterationCallback_of_call hp hIs hArgs, Slot.isOneOf,
        if_pos (hTyped.isKey_methodName hpRoot)]
      simp only [hIs, hArgs, Slot.nodes.injEq, true_and, exists_eq_left']
      by_cases hMem : n ∈ args
      · rw [if_pos (hArg.mpr hMem)]
        refine ⟨_, rfl, ?_⟩
        cases p.methodName.text? with
        | none => simp
        | some t => simp [hMem]
      · rw [if_neg (fun h => hMem (hArg.mp h))]
        exact ⟨false, rfl, by simp [hMem]⟩
    · have hIs : p.is .callExpression = false := Bool.eq_false_iff.mpr hIs
      exact ⟨false, by simp [isIterationCallback, hp, hIs], by simp [hIs]⟩

/-- Named function declarations, if they are to be boundaries. -/
def boundaries (helpers : Bool) (b : Node) : Prop := helpers = true ∧ b.isNamedDeclaration = true

/-- **The search** along the lineage of a node finds out whether the node is enclosed. -/
theorem climb_iff (helpers : Bool) {above : List Node} (h : Index.Lineage (.build root) n above) :
    n ∈ root.preorder → ∃ b, climb (.build root) helpers n above = .ok b ∧
      (b = true ↔ EnclosedUpTo (boundaries helpers) root n) := by
  induction h with
  | @root n hTop =>
    intro hn
    refine ⟨false, rfl, ⟨nofun, ?_⟩⟩
    have hNothing : ∀ m ∈ root.preorder, n ∉ m.descendants :=
      fun m hm => Index.not_mem_descendants_of_build_parent? hIds hTop hm
    rintro (⟨loop, hLoop, -⟩ | ⟨function, hCallback, -⟩)
    · exact absurd hLoop.mem_descendants (hNothing loop hLoop.mem)
    · exact absurd hCallback.below (hNothing function hCallback.mem)
  | @child n p above hParent _ ih =>
    intro hn
    obtain ⟨hp, hc⟩ := (Index.build_parent?_eq_some_iff hIds hn).mp hParent
    have hStep := enclosedUpTo_child_iff hIds (boundaries helpers) hp hc
    rw [climb, hStep, ← holds_iff hIds hn hp, ← Bool.and_eq_true]
    by_cases hBody : (p.isLoop && (p.slot .body).holds n) = true
    · rw [if_pos hBody]
      exact ⟨true, rfl, by simp [hBody]⟩
    rw [if_neg hBody]
    by_cases hFunction : p.isFunction = true
    · rw [if_pos hFunction]
      by_cases hBoundary : (helpers && p.isNamedDeclaration) = true
      · have hBoundary' : boundaries helpers p := Bool.and_eq_true_iff.mp hBoundary
        rw [if_pos hBoundary]
        exact ⟨false, rfl, by simp [hBody, hBoundary']⟩
      · have hOpen : ¬ boundaries helpers p := fun h => hBoundary (Bool.and_eq_true_iff.mpr h)
        rw [if_neg hBoundary]
        obtain ⟨called, hCalled, hHanded⟩ := isIterationCallback_iff hIds hTyped hp
        rw [hCalled]
        cases called with
        | true => exact ⟨true, rfl, by simp [hOpen, hFunction, hHanded.mp rfl]⟩
        | false =>
          obtain ⟨b, hClimb, hb⟩ := ih hp
          have hNot : ¬ HandedOver root p := fun h => by cases hHanded.mpr h
          exact ⟨b, hClimb, by rw [hb]; simp [hBody, hOpen, hNot]⟩
    · -- only functions are boundaries
      have hOpen : ¬ boundaries helpers p := by
        rintro ⟨-, hNamed⟩
        have hKind := Node.kind_of_is (Bool.and_eq_true_iff.mp hNamed).1
        rw [Node.isFunction, hKind] at hFunction
        exact hFunction rfl
      rw [if_neg hFunction]
      obtain ⟨b, hClimb, hb⟩ := ih hp
      exact ⟨b, hClimb, by rw [hb]; simp [hBody, hOpen, hFunction]⟩

end Search

/-- **Inside a loop, seen from above.**  In a well-typed tree the search from a node outward has an
answer, with and without boundaries.

* Without boundaries the answer is yes if and only if a loop has the node in its body, or the node is
  strictly below a function that is called for every element.
* With boundaries no named function declaration above the node may be strictly inside the loop, or be
  the function or inside it.
* So a yes with boundaries is a yes without them, and a node in another part of a loop than its body
  is not inside that loop. -/
theorem structural_iff (root n : Node) (hIds : root.DistinctIds) (hTyped : root.WellTyped)
    (hn : n ∈ root.preorder) :
    ∃ plain bounded,
      structural (.build root) false n = .ok plain ∧
      structural (.build root) true n = .ok bounded ∧
      (plain = true ↔
        (∃ loop, LoopAround root loop n) ∨ ∃ function, CallbackAround root function n) ∧
      (bounded = true ↔
        (∃ loop, LoopAround root loop n ∧ ¬ ∃ helper ∈ loop.descendants,
          helper.isNamedDeclaration = true ∧ n ∈ helper.descendants) ∨
        ∃ function, CallbackAround root function n ∧ ¬ ∃ helper ∈ function.preorder,
          helper.isNamedDeclaration = true ∧ n ∈ helper.descendants) ∧
      (bounded = true → plain = true) ∧
      ∀ loop ∈ root.preorder, ∀ f ∈ [Field.test, .init, .update, .left, .right], ∀ part,
        loop.slot f = .node part → n ∈ part.preorder → ¬ LoopAround root loop n := by
  have hLineage := Index.lineage_ancestors hIds hn
  obtain ⟨plain, hPlain, hPlainIff⟩ := climb_iff hIds hTyped false hLineage hn
  obtain ⟨bounded, hBounded, hBoundedIff⟩ := climb_iff hIds hTyped true hLineage hn
  have hFree : EnclosedUpTo (boundaries false) root n ↔ EnclosedUpTo (fun _ => False) root n :=
    ⟨.mono fun b hb => hb.elim, .mono fun b hb => by cases hb.1⟩
  refine ⟨plain, bounded, hPlain, hBounded, ?_, ?_, ?_, ?_⟩
  · rw [hPlainIff, hFree, enclosedUpTo_false_iff]
  · rw [hBoundedIff]
    simp only [EnclosedUpTo, boundaries, true_and, not_exists, not_and]
  · intro h
    exact hPlainIff.mpr ((hBoundedIff.mp h).mono fun b hb => by cases hb.1)
  · intro loop _ f hf part hPart hnPart hLoop
    have hNe : f ≠ .body := by
      rintro rfl
      revert hf
      decide
    exact hLoop.not_below_other_field hIds hNe hPart hnPart

/-! ### A helper in a loop -/

/-- The name `x`, `f` or `y` in the loop `while (x) function f() y`. -/
def helperName (part : Nat) (name : Text) : Node :=
  .build ⟨[0], part⟩ (.known .identifier)
    ⟨.int 0, .int 0, ⟨.int 1, .int 0⟩, ⟨.int 1, .int 0⟩⟩ [(.name, .value name)]

/-- The function `f` of the loop `while (x) function f() y`. -/
def helperFunction : Node :=
  .build ⟨[0], 1⟩ (.known .functionDeclaration)
    ⟨.int 0, .int 0, ⟨.int 1, .int 0⟩, ⟨.int 1, .int 0⟩⟩
    [(.id, .node (helperName 2 "f")), (.body, .node (helperName 3 "y"))]

/-- The loop `while (x) function f() y`, whose body is the declaration of a function. -/
def helperLoop : Node :=
  .build ⟨[0], 0⟩ (.known .whileStatement)
    ⟨.int 0, .int 0, ⟨.int 1, .int 0⟩, ⟨.int 1, .int 0⟩⟩
    [(.test, .node (helperName 4 "x")), (.body, .node helperFunction)]

theorem helperName_preorder (part : Nat) (name : Text) :
    (helperName part name).preorder = [helperName part name] := by
  rw [Node.preorder_eq]
  rfl

theorem helperFunction_descendants :
    helperFunction.descendants = [helperName 2 "f", helperName 3 "y"] := by
  show [helperName 2 "f", helperName 3 "y"].flatMap Node.preorder = _
  simp only [List.flatMap_cons, List.flatMap_nil, helperName_preorder]
  rfl

theorem helperLoop_preorder :
    helperLoop.preorder = helperLoop :: helperName 4 "x" :: helperFunction ::
      [helperName 2 "f", helperName 3 "y"] := by
  rw [Node.preorder_eq, ← helperFunction_descendants]
  show helperLoop :: [helperName 4 "x", helperFunction].flatMap Node.preorder = _
  simp only [List.flatMap_cons, List.flatMap_nil, helperName_preorder,
    helperFunction.preorder_eq, List.append_nil]
  rfl

theorem structural_iff_helperLoop :
    helperLoop.DistinctIds ∧ helperLoop.WellTyped ∧ helperName 3 "y" ∈ helperLoop.preorder ∧
      structural (.build helperLoop) false (helperName 3 "y") = .ok true ∧
      structural (.build helperLoop) true (helperName 3 "y") = .ok false := by
  have hIds : helperLoop.DistinctIds := by decide +kernel
  have hTyped : helperLoop.WellTyped := by decide +kernel
  have hn : helperName 3 "y" ∈ helperLoop.preorder := by simp [helperLoop_preorder]
  have hBelow : helperName 3 "y" ∈ helperFunction.descendants := by
    simp [helperFunction_descendants]
  have hFunction : helperFunction ∈ helperLoop.preorder := by simp [helperLoop_preorder]
  obtain ⟨plain, bounded, hPlain, hBounded, hPlainIff, hBoundedIff, -⟩ :=
    structural_iff helperLoop (helperName 3 "y") hIds hTyped hn
  have hTrue : plain = true := by
    refine hPlainIff.mpr (.inl ⟨helperLoop, helperLoop.mem_preorder_self, rfl, helperFunction, rfl, ?_⟩)
    exact Node.mem_preorder_of_mem_descendants hBelow
  -- the loop is cut off by the helper, and nothing else is around the node
  have hFalse : ¬ bounded = true := by
    rw [hBoundedIff]
    rintro (⟨loop, hLoop, hFree⟩ | ⟨function, hCallback, -⟩)
    · have hMem := hLoop.mem
      rw [helperLoop_preorder] at hMem
      simp only [List.mem_cons, List.not_mem_nil, or_false] at hMem
      rcases hMem with rfl | rfl | rfl | rfl | rfl
      · refine hFree ⟨helperFunction, ?_, by decide +kernel, hBelow⟩
        exact (Node.mem_preorder.mp hFunction).resolve_left (fun h => by cases h)
      all_goals cases hLoop.isLoop
    · obtain ⟨call, hCall, hIs, -⟩ := hCallback.handedOver
      rw [helperLoop_preorder] at hCall
      simp only [List.mem_cons, List.not_mem_nil, or_false] at hCall
      rcases hCall with rfl | rfl | rfl | rfl | rfl <;> cases hIs
  rw [hPlain, hBounded, hTrue, Bool.eq_false_iff.mpr hFalse]
  exact ⟨hIds, hTyped, hn, rfl, rfl⟩

end ScriptLint.Containment
