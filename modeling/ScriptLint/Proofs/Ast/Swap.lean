import ScriptLint.Proofs.Ast.Scope
import ScriptLint.Proofs.Ast.Typed

/-!
# Another node in one place

Two trees are the same but for one place, where the second has another node.  All nodes above that
place then differ in one child, and they still have their ids, their kinds and their other fields.

* `Slot.Swap`, `Node.Swap`: one step.  Two slots, or two nodes, differ in one child.
* `Swapped`: the place is anywhere in the tree.
* `Node.Swap.children_eq`, `Node.Swap.slot_cases`: what one step means for children and fields.
* `Swapped.functionName_eq`: a function keeps its name if another function inside is replaced.
-/

namespace ScriptLint.Ast

/-! ### One step -/

/-- Two slots that are the same but for **one node**. -/
inductive Slot.Swap (c c' : Node) : Slot → Slot → Prop where
  | node : Swap c c' (.node c) (.node c')
  | nodes (l r : List Node) : Swap c c' (.nodes (l ++ c :: r)) (.nodes (l ++ c' :: r))

/-- Two nodes that are the same but for **one child**. -/
inductive Node.Swap (c c' : Node) : Node → Node → Prop where
  | inField (id : NodeId) (kind : Kind) (span : Span) (before : List (Field × Slot)) (f : Field)
      (after : List (Field × Slot)) {s s' : Slot} (h : s.Swap c c' s') :
      Swap c c' (.mk id kind span (before ++ (f, s) :: after))
        (.mk id kind span (before ++ (f, s') :: after))

section Step

variable {c c' : Node}

namespace Slot.Swap

variable {s s' : Slot}

theorem children_eq (h : Slot.Swap c c' s s') :
    ∃ l r, s.children = l ++ c :: r ∧ s'.children = l ++ c' :: r := by
  cases h with
  | node => exact ⟨[], [], rfl, rfl⟩
  | nodes l r => exact ⟨l, r, rfl, rfl⟩

theorem mem_children (h : Slot.Swap c c' s s') : c ∈ s.children := by
  obtain ⟨l, r, hs, -⟩ := h.children_eq
  rw [hs]
  exact List.mem_append_right l List.mem_cons_self

theorem truthy_eq (h : Slot.Swap c c' s s') : s'.truthy = s.truthy := by
  cases h with
  | node => rfl
  | nodes l r => cases l <;> rfl

end Slot.Swap

namespace Node.Swap

variable {n n' : Node} (h : Node.Swap c c' n n')
include h

theorem id_eq : n'.id = n.id := by
  cases h
  rfl

theorem is_eq (k : Construct) : n'.is k = n.is k := by
  cases h
  rfl

theorem isFunction_eq : n'.isFunction = n.isFunction := by
  cases h
  rfl

theorem children_eq : ∃ l r, n.children = l ++ c :: r ∧ n'.children = l ++ c' :: r := by
  obtain ⟨id, kind, span, before, f, after, hSlot⟩ := h
  obtain ⟨l, r, hs, hs'⟩ := hSlot.children_eq
  refine ⟨before.flatMap (·.2.children) ++ l, r ++ after.flatMap (·.2.children), ?_, ?_⟩
  · simp [children, slots, hs]
  · simp [children, slots, hs']

theorem mem_children : c ∈ n.children := by
  obtain ⟨l, r, hn, -⟩ := h.children_eq
  rw [hn]
  exact List.mem_append_right l List.mem_cons_self

/-- A field keeps what it holds, or it **holds the child**. -/
theorem slot?_cases (f : Field) :
    n'.slot? f = n.slot? f ∨
      ∃ s s', n.slot? f = some s ∧ n'.slot? f = some s' ∧ Slot.Swap c c' s s' := by
  obtain ⟨id, kind, span, before, g, after, hSlot⟩ := h
  simp only [slot?, slots, List.lookup_append, List.lookup_cons]
  cases before.lookup f with
  | some s => exact .inl rfl
  | none =>
    cases f == g with
    | false => exact .inl rfl
    | true => exact .inr ⟨_, _, rfl, rfl, hSlot⟩

theorem slot_cases (f : Field) :
    n'.slot f = n.slot f ∨ Slot.Swap c c' (n.slot f) (n'.slot f) := by
  unfold slot
  rcases h.slot?_cases f with hEq | ⟨s, s', hs, hs', hSlot⟩
  · exact .inl (by rw [hEq])
  · rw [hs, hs']
    exact .inr hSlot

end Node.Swap

end Step

/-! ### Any number of steps -/

/-- The second tree is the first one with `g'` **in place of** `g`, in one place. -/
inductive Swapped (g g' : Node) : Node → Node → Prop where
  | here : Swapped g g' g g'
  | inside {c c' n n' : Node} (hStep : Node.Swap c c' n n') (h : Swapped g g' c c') :
      Swapped g g' n n'

namespace Swapped

variable {g g' n n' : Node}

theorem mem_preorder (h : Swapped g g' n n') : g ∈ n.preorder := by
  induction h with
  | here => exact g.mem_preorder_self
  | inside hStep _ ih =>
    exact Node.mem_preorder_trans (Node.mem_preorder_of_mem_children hStep.mem_children) ih

/-- Above the place the trees differ in **one child**. -/
theorem exists_swap (h : Swapped g g' n n') (hNe : n ≠ g) :
    ∃ c c', Node.Swap c c' n n' ∧ Swapped g g' c c' := by
  cases h with
  | here => exact absurd rfl hNe
  | inside hStep h => exact ⟨_, _, hStep, h⟩

end Swapped

theorem Node.ne_of_mem_descendants {n g : Node} (h : g ∈ n.descendants) : n ≠ g := by
  rintro rfl
  exact not_mem_descendants_of_mem_preorder n.mem_preorder_self h

theorem Node.is_eq_false_of_isFunction {n : Node} {k : Construct} (h : n.isFunction = true)
    (hk : Construct.functions.contains k = false) : n.is k = false := by
  rw [Bool.eq_false_iff]
  intro hIs
  rw [isFunction, kind_of_is hIs, Kind.isFunction, Kind.isOneOf, hk] at h
  cases h

/-! ### Names -/

/-- A name **stays** if a function is replaced by a function. -/
theorem Swapped.identifierName_eq {root g g' c c' : Node} (h : Swapped g g' c c')
    (hTyped : root.WellTyped) (hc : c ∈ root.preorder) (hg : g.isFunction = true)
    (hg' : g'.isFunction = true) :
    ((Slot.node c').as? .identifier).map (·.slot .name)
      = ((Slot.node c).as? .identifier).map (·.slot .name) := by
  simp only [Slot.as?, Slot.node?, Option.filter_some]
  cases h with
  | here =>
    rw [Node.is_eq_false_of_isFunction hg rfl, Node.is_eq_false_of_isFunction hg' rfl]
    rfl
  | inside hStep h =>
    rw [hStep.is_eq]
    by_cases hName : c.is .identifier = true
    · obtain ⟨t, ht⟩ := hTyped.name hc hName
      rw [if_pos hName, if_pos hName, Option.map_some, Option.map_some]
      -- a text holds no node
      rcases hStep.slot_cases .name with hEq | hSlot
      · rw [hEq]
      · rw [ht] at hSlot
        cases hSlot
    · rw [if_neg hName, if_neg hName]

theorem Node.boundName_congr {n n' : Node} (h : n'.id = n.id) (parent : Node) :
    n'.boundName parent = n.boundName parent := by
  have hHolds (s : Slot) : s.holds n' = s.holds n := by
    cases s with
    | node m => rw [Slot.holds, Slot.holds, h]
    | nodes ms => rfl
    | value v => rfl
  simp only [boundName, hHolds]

/-- A function **keeps its name** if a function inside is replaced by a function. -/
theorem Swapped.functionName_eq {f f' g g' : Node} (h : Swapped g g' f f') (hNe : f ≠ g)
    (hTyped : f.WellTyped) (hg : g.isFunction = true) (hg' : g'.isFunction = true)
    (ix : Option Index) : f'.functionName ix = f.functionName ix := by
  obtain ⟨c, c', hStep, h⟩ := h.exists_swap hNe
  have hOwn : ((f'.slot .id).as? .identifier).map (·.slot .name)
      = ((f.slot .id).as? .identifier).map (·.slot .name) := by
    have hc := Node.mem_preorder_of_mem_children hStep.mem_children
    rcases hStep.slot_cases .id with hEq | hSlot
    · rw [hEq]
    · generalize f.slot .id = s at hSlot
      generalize f'.slot .id = s' at hSlot
      cases hSlot with
      | node => exact h.identifierName_eq hTyped hc hg hg'
      | nodes l r => rfl
  have hParent (ix : Index) : ix.parent? f' = ix.parent? f := by
    rw [Index.parent?, Index.parent?, hStep.id_eq]
  unfold Node.functionName
  cases hf : (f.slot .id).as? .identifier with
  | none =>
    rw [hf, Option.map_none, Option.map_eq_none_iff] at hOwn
    simp only [hOwn, hParent, Node.boundName_congr hStep.id_eq]
  | some own =>
    rw [hf, Option.map_some, Option.map_eq_some_iff] at hOwn
    obtain ⟨own', hf', hName⟩ := hOwn
    simp only [hf', hName]

end ScriptLint.Ast
