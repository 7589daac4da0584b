import ScriptLint.Proofs.Concrete.Build

/-!
# Conversion by recursion

What a concrete node becomes can be said by **recursion** over the tree, without a stack and
without a table.

* `recursion`: nothing for a skipped node, the first result of the children for a wrapper, and a
  node built from the results of the nodes below for all others.
* `found`: the result of a node that is looked up while another is built.  It is the result of
  the recursion for nodes that are reached, and nothing for all others.
* `recursion_eq_build`: the recursion builds a node with the results found below it.
* `recursion_fault`, `recursion_error_of_within`: the recursion fails only where an octet is out of
  range, and if it fails for a node that is reached then it fails for the whole tree.
-/

namespace ScriptLint.Concrete

open Ast (Node Slot Field Kind Construct)
open Outcome (FailsOnlyWith)

/-- What a concrete node becomes, by **recursion** over the tree.  A node that is looked up and not
reached from the node that is built counts as nothing. -/
def recursion (source : Source) (t : Tree) : Except Fault (Option Node) :=
  match Form.ofKind t.kind with
  | .skipped => .ok none
  | .wrapper => do
    let results ← t.namedChildren.attach.mapM fun c => recursion source c.1
    return results.findSome? fun n => n
  | _ => do
    let _ ← t.namedChildren.attach.mapM fun c => recursion source c.1
    let b : Builder := ⟨source, fun u =>
      (t.within.attach.find? fun d => d.1.row == u.row).bind fun d =>
        (recursion source d.1).toOption.join⟩
    let (kind, fields) ← b.given t
    let span ← source.spanOf t
    return some (.build ⟨[t.row], 0⟩ kind span fields)
termination_by sizeOf t
decreasing_by
  · exact Tree.sizeOf_lt_of_mem_children (Tree.mem_children_of_mem_namedChildren c.2)
  · exact Tree.sizeOf_lt_of_mem_children (Tree.mem_children_of_mem_namedChildren c.2)
  · exact Tree.sizeOf_lt_of_mem_within d.1 d.2

/-- What is **found** when `u` is looked up while `t` is built. -/
def found (source : Source) (t u : Tree) : Option Node :=
  (t.within.find? fun d => d.row == u.row).bind fun d => (recursion source d).toOption.join

/-! ### The three cases -/

section Cases

variable {source : Source} {t : Tree}

theorem find?_attach (u : Tree) :
    ((t.within.attach.find? fun d => d.1.row == u.row).bind fun d =>
      (recursion source d.1).toOption.join) = found source t u := by
  rw [found]
  conv_rhs => rw [← List.attach_map_subtype_val t.within, List.find?_map]
  rw [Option.bind_map]
  rfl

theorem recursion_of_skipped (h : Form.ofKind t.kind = .skipped) :
    recursion source t = .ok none := by
  rw [recursion, h]

theorem recursion_of_wrapper (h : Form.ofKind t.kind = .wrapper) :
    recursion source t
      = t.namedChildren.mapM (recursion source) >>= fun results =>
          .ok (results.findSome? fun n => n) := by
  rw [recursion, h]
  simp only [Outcome.mapM_attach (recursion source)]
  rfl

theorem recursion_of_form (hs : Form.ofKind t.kind ≠ .skipped)
    (hw : Form.ofKind t.kind ≠ .wrapper) :
    recursion source t
      = t.namedChildren.mapM (recursion source) >>= fun _ =>
          Builder.build ⟨source, found source t⟩ t := by
  rw [recursion, Builder.build]
  split
  · contradiction
  · contradiction
  · simp only [Outcome.mapM_attach (recursion source), find?_attach]

/-- The two cases with content: all of it is converted first. -/
theorem exists_recursion_eq_bind (source : Source) (hs : Form.ofKind t.kind ≠ .skipped) :
    ∃ f : List (Option Node) → Except Fault (Option Node),
      (∀ results, FailsOnlyWith .outOfRange (f results)) ∧
      recursion source t = t.content.mapM (recursion source) >>= f := by
  rw [Tree.content_eq_namedChildren hs]
  by_cases hw : Form.ofKind t.kind = .wrapper
  · exact ⟨_, fun _ => .ok _, recursion_of_wrapper hw⟩
  · exact ⟨_, fun _ => Builder.build_fault _ _, recursion_of_form hs hw⟩

/-! ### Faults -/

/-- The recursion fails only where an octet is **out of range**. -/
theorem recursion_fault (source : Source) (t : Tree) :
    FailsOnlyWith .outOfRange (recursion source t) := by
  induction t using Tree.ind with
  | h t ih =>
    by_cases hs : Form.ofKind t.kind = .skipped
    · rw [recursion_of_skipped hs]
      exact .ok _
    · obtain ⟨f, hf, hEq⟩ := exists_recursion_eq_bind source hs
      rw [hEq]
      refine FailsOnlyWith.bind (.mapM fun c hc => ?_) hf
      exact ih c (Tree.mem_children_of_mem_content hc)

theorem recursion_error_of_content {c : Tree} (hc : c ∈ t.content)
    (h : recursion source c = .error .outOfRange) : recursion source t = .error .outOfRange := by
  by_cases hs : Form.ofKind t.kind = .skipped
  · rw [Tree.content_eq_nil hs] at hc
    cases hc
  · obtain ⟨f, hf, hEq⟩ := exists_recursion_eq_bind source hs
    rw [hEq, Outcome.mapM_eq_error (fun d _ => recursion_fault source d) hc h]
    rfl

/-- If the recursion fails for a node that is **reached**, it fails for the tree. -/
theorem recursion_error_of_within {d : Tree} (hd : d ∈ t.within)
    (h : recursion source d = .error .outOfRange) : recursion source t = .error .outOfRange := by
  induction t using Tree.ind with
  | h t ih =>
    obtain ⟨c, hc, hd⟩ := Tree.mem_within.mp hd
    refine recursion_error_of_content hc ?_
    rcases hd with rfl | hd
    · exact h
    · exact ih c (Tree.mem_children_of_mem_content hc) hd

/-! ### Results -/

theorem found_of_mem (h : t.DistinctRows) {d : Tree} (hd : d ∈ t.within) :
    found source t d = (recursion source d).toOption.join := by
  rw [found]
  cases hf : t.within.find? fun e => e.row == d.row with
  | none =>
    have hNone := List.find?_eq_none.mp hf d hd
    simp at hNone
  | some e =>
    have hMem : ∀ {u : Tree}, u ∈ t.within → u ∈ t.preorder :=
      fun hu => Tree.Reaches.mem_preorder (.inr hu)
    have hRow : e.row = d.row := by simpa using List.find?_some hf
    rw [h.eq_of_row_eq (hMem (List.mem_of_find?_eq_some hf)) (hMem hd) hRow, Option.bind_some]

theorem found_of_not_mem {u : Tree} (h : ∀ d ∈ t.within, d.row ≠ u.row) :
    found source t u = none := by
  have hNone : (t.within.find? fun d => d.row == u.row) = none := by
    rw [List.find?_eq_none]
    intro d hd
    simpa using h d hd
  rw [found, hNone, Option.bind_none]

/-- What is found for a node below is the result of the recursion for **this** node. -/
theorem found_eq_some (h : t.DistinctRows) {u : Tree} (hu : u ∈ t.descendants) {n : Node}
    (hn : found source t u = some n) : recursion source u = .ok (some n) := by
  obtain ⟨d, hd, hJoin⟩ := Option.bind_eq_some_iff.mp hn
  have hRow : d.row = u.row := by simpa using List.find?_some hd
  have hdIn : t.Reaches d := .inr (List.mem_of_find?_eq_some hd)
  obtain rfl := h.eq_of_row_eq hdIn.mem_preorder (Tree.mem_preorder_of_mem_descendants hu) hRow
  cases hr : recursion source d with
  | error e =>
    rw [hr] at hJoin
    cases hJoin
  | ok o =>
    rw [hr] at hJoin
    exact congrArg Except.ok hJoin

/-- If the recursion has results for the content of a node, it **builds** the node with them. -/
theorem recursion_eq_build (h : t.DistinctRows)
    (hc : ∀ c ∈ t.content, ∃ n, recursion source c = .ok n) :
    recursion source t = Builder.build ⟨source, found source t⟩ t := by
  by_cases hs : Form.ofKind t.kind = .skipped
  · rw [recursion_of_skipped hs, Builder.build, hs]
  · have hResults : ∀ c ∈ t.namedChildren, recursion source c = .ok (found source t c) := by
      intro c hcn
      rw [← Tree.content_eq_namedChildren hs] at hcn
      obtain ⟨n, hn⟩ := hc c hcn
      rw [found_of_mem h (Tree.mem_within_of_mem_content hcn), hn]
      rfl
    have hAll := Outcome.mapM_eq_ok_map hResults
    by_cases hw : Form.ofKind t.kind = .wrapper
    · rw [recursion_of_wrapper hw, hAll, Builder.build, hw]
      show Except.ok _ = Except.ok _
      rw [List.findSome?_map]
      rfl
    · rw [recursion_of_form hs hw, hAll]
      rfl

end Cases

end ScriptLint.Concrete
