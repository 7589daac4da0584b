import ScriptLint.Ast.Query
import ScriptLint.Proofs.Ast.Lineage

/-!
# Well-typed trees

A tree from outside may have anything in any field.  In a **well-typed** tree every field holds what
its construct asks for, and then the questions that the rules ask always have an answer.

* `Blank.admits`: what a field may hold can be told from what it holds when nothing is given.
* `Node.WellTyped`: all fields of all nodes of a tree hold what they may hold.
* `WellTyped.arguments`, `WellTyped.name`: what this means for the fields that the rules look at.
* `WellTyped.isKey_methodName`: the name that a call calls can be looked up in a table.
-/

namespace ScriptLint.Ast

/-- May a field hold this slot, if it holds `blank` when nothing is given?  A list stays a list of
nodes, a text a text, a truth value a truth value; where there is nothing, there may be a node. -/
def Blank.admits : Blank → Slot → Bool
  | .noNodes, .nodes _ => true
  | .plain .null, .node _ => true
  | .plain .null, .value .null => true
  | .plain (.bool _), .value (.bool _) => true
  | .plain (.str _), .value (.str _) => true
  | .plain (.arr _), .value (.arr items) => items.all fun j => (Slot.value j).text?.isSome
  | _, _ => false

/-- Value and pattern of a literal are no nodes: they may be any plain values. -/
def Node.isLiteralValue (n : Node) (f : Field) : Bool :=
  n.is .literal && (f == .value || f == .regex) && (n.slot f).node?.isNone

/-- Do all fields of the node hold what they may hold? -/
def Node.isTyped (n : Node) : Bool :=
  n.kind.fields.all fun f => f.2.admits (n.slot f.1) || n.isLiteralValue f.1

/-- All nodes of the tree hold in their fields what they may hold. -/
def Node.WellTyped (root : Node) : Prop := ∀ n ∈ root.preorder, n.isTyped = true

instance (root : Node) : Decidable root.WellTyped :=
  inferInstanceAs (Decidable (∀ n ∈ root.preorder, n.isTyped = true))

theorem Node.kind_of_is {n : Node} {c : Construct} (h : n.is c = true) : n.kind = .known c := by
  rw [Node.is] at h
  cases hk : n.kind with
  | known d =>
    rw [hk] at h
    exact congrArg _ (beq_iff_eq.mp h)
  | other t =>
    rw [hk] at h
    cases h

theorem Slot.eq_node_of_node? {s : Slot} {n : Node} (h : s.node? = some n) : s = .node n := by
  cases s with
  | node m => rw [Option.some.inj h]
  | nodes ms => cases h
  | value v => cases h

namespace Node.WellTyped

variable {root n : Node}

theorem admits (h : root.WellTyped) (hn : n ∈ root.preorder) {c : Construct} {f : Field}
    {blank : Blank} (hIs : n.is c = true) (hc : c ≠ .literal) (hf : (f, blank) ∈ c.fields) :
    blank.admits (n.slot f) = true := by
  have hKind := Node.kind_of_is hIs
  have hTyped := h n hn
  rw [Node.isTyped, hKind] at hTyped
  have hField := List.all_eq_true.mp hTyped (f, blank) hf
  have hLiteral : n.is .literal = false := by
    rw [Node.is, hKind]
    exact beq_false_of_ne hc
  rw [Node.isLiteralValue, hLiteral, Bool.false_and, Bool.false_and, Bool.or_false] at hField
  exact hField

/-- The arguments of a call are nodes. -/
theorem arguments (h : root.WellTyped) (hn : n ∈ root.preorder)
    (hCall : n.is .callExpression = true) : ∃ args, n.slot .arguments = .nodes args := by
  have hAdmits : Blank.admits .noNodes (n.slot .arguments) = true :=
    h.admits hn hCall (by decide) (by simp [Construct.fields])
  cases hs : n.slot .arguments with
  | nodes args => exact ⟨args, rfl⟩
  | node m => rw [hs] at hAdmits; cases hAdmits
  | value v => rw [hs] at hAdmits; cases hAdmits

/-- The name of an identifier is a text. -/
theorem name (h : root.WellTyped) (hn : n ∈ root.preorder) (hName : n.is .identifier = true) :
    ∃ t, n.slot .name = .value (.str t) := by
  have hAdmits : Blank.admits (.plain (.str [])) (n.slot .name) = true :=
    h.admits hn hName (by decide) (List.mem_singleton_self _)
  cases hs : n.slot .name with
  | nodes args => rw [hs] at hAdmits; cases hAdmits
  | node m => rw [hs] at hAdmits; cases hAdmits
  | value v =>
    rw [hs] at hAdmits
    cases v with
    | str t => exact ⟨t, rfl⟩
    | _ => cases hAdmits

theorem isKey_name (h : root.WellTyped) (hn : n ∈ root.preorder) (hName : n.is .identifier = true) :
    (n.slot .name).isKey = true := by
  obtain ⟨t, ht⟩ := h.name hn hName
  rw [ht]
  rfl

theorem isKey_of_text? {s : Slot} (h : s.text?.isSome = true) : s.isKey = true := by
  cases s with
  | node m => rfl
  | nodes ms => cases h
  | value v =>
    cases v with
    | str t => rfl
    | _ => cases h

theorem isKey_keyName (h : root.WellTyped) (hn : n ∈ root.preorder) (f : Field) :
    (keyName (n.slot f)).isKey = true := by
  rw [keyName]
  split
  · rfl
  · rename_i key hKey
    have hMem := Node.slot_node hn (Slot.eq_node_of_node? hKey)
    split
    · rename_i hName
      exact h.isKey_name hMem hName
    · split
      · rename_i hText
        exact isKey_of_text? (Bool.and_eq_true_iff.mp hText).2
      · rfl

theorem isKey_memberName (h : root.WellTyped) (hn : n ∈ root.preorder) :
    n.memberName.isKey = true := by
  rw [Node.memberName]
  split
  · exact h.isKey_keyName hn .property
  · split
    · split
      · rename_i hText
        exact isKey_of_text? hText
      · rfl
    · rfl

/-- The name that a call calls **can be looked up** in a table. -/
theorem isKey_methodName (h : root.WellTyped) (hn : n ∈ root.preorder) :
    n.methodName.isKey = true := by
  rw [Node.methodName]
  split
  · rfl
  · split
    · rfl
    · rename_i callee hCallee
      have hMem := Node.slot_node hn (Slot.eq_node_of_node? hCallee)
      split
      · rename_i hName
        exact h.isKey_name hMem hName
      · split
        · exact h.isKey_memberName hMem
        · rfl

end Node.WellTyped

end ScriptLint.Ast
