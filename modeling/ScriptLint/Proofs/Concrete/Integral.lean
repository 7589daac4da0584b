import ScriptLint.Proofs.Concrete.Parts
import ScriptLint.Proofs.Concrete.Source
import ScriptLint.Proofs.Concrete.Worklist
import ScriptLint.Proofs.Registry.OnePass

/-!
# Conversion has a result

If all octets of a concrete tree are in the source, then every node can be built, whatever kinds,
fields and shapes there are, and the spans of all nodes hold integers.  Neither have the octets to
be in order, nor have the nodes to be told apart by their row numbers.

* `Ast.Node.Integral`: all spans of a tree hold integers.
* `work_append`: a stack of tasks is worked off part by part.
* `sustains_integral`: building makes integral trees from integral trees.
* `convert_eq_build`: what is built last is the result of the conversion.
* `convert_program`: a document becomes an integral tree.
-/

namespace ScriptLint

open Ast (Node Slot Field Kind)

/-- All nodes of the tree have integers in their spans. -/
def Ast.Node.Integral (n : Node) : Prop := ∀ m ∈ n.preorder, m.span.isIntegral = true

theorem Ast.Node.integral_iff {n : Node} :
    n.Integral ↔ n.span.isIntegral = true ∧ ∀ c ∈ n.children, c.Integral :=
  forall_mem_preorder_iff

namespace Concrete

open Outcome (Yields)

/-- All octets of the tree are in a source of the given number of octets. -/
def Tree.InRange (root : Tree) (octets : Nat) : Prop :=
  ∀ t ∈ root.preorder, t.start ≤ octets ∧ t.stop ≤ octets

instance (root : Tree) (octets : Nat) : Decidable (root.InRange octets) :=
  inferInstanceAs (Decidable (∀ t ∈ root.preorder, _))

/-! ### One node -/

/-- Building makes integral trees from integral trees. -/
theorem sustains_integral {text : Text} {t : Tree} {table : Table}
    (ht : t.InRange (Text.encode text).length) (hTable : table.All Node.Integral) :
    Sustains (fun _ n => n.Integral) ⟨.ofText text, table.node?⟩ t where
  known := by
    intro u _
    exact hTable.node? u
  up := fun _ _ _ _ _ hn => hn
  child := fun _ _ n hn c hc => (Node.integral_iff.mp hn).2 c hc
  make := by
    intro u hu id kind fields _ hFields
    obtain ⟨hStart, hStop⟩ := ht u hu
    rw [Source.spanOf_ofText hStart hStop]
    refine .ok (Node.integral_iff.mpr ⟨rfl, fun c hc => ?_⟩)
    exact hFields c (Node.mem_givenNodes_of_mem_children hc)

/-- A node that is neither skipped nor a wrapper becomes something. -/
theorem Builder.isSome_of_build {b : Builder} {t : Tree} {o : Option Node}
    (hs : Form.ofKind t.kind ≠ .skipped) (hw : Form.ofKind t.kind ≠ .wrapper)
    (h : b.build t = .ok o) : o.isSome = true := by
  obtain ⟨g, span, -, rfl⟩ := exists_given_of_build hs hw h
  rfl

/-! ### All nodes -/

/-- A stack of tasks is worked off **part by part**. -/
theorem work_append (source : Source) (s t : List Task) (table : Table) :
    work source (s ++ t) table = work source s table >>= fun table' => work source t table' := by
  fun_induction work source s table with
  | case1 table => rfl
  | case2 u rest table e he =>
    rw [List.cons_append, work, he]
    rfl
  | case3 u rest table n hn ih =>
    rw [List.cons_append, work, hn]
    exact ih
  | case4 u rest table ih =>
    rw [List.cons_append, work, ← ih, List.append_assoc, List.cons_append]

/-- The root is built last, and what it becomes is **the result**. -/
theorem convert_eq_build (source : Source) (root : Tree) :
    convert source root
      = work source (root.content.reverse.map .enter) ∅ >>= fun table =>
          Builder.build ⟨source, table.node?⟩ root := by
  rw [convert, work, work_append]
  cases work source (root.content.reverse.map .enter) ∅ with
  | error e => rfl
  | ok table =>
    show (work source [.leave root] table >>= fun t => .ok (t.node? root))
      = Builder.build ⟨source, table.node?⟩ root
    rw [work]
    cases Builder.build ⟨source, table.node?⟩ root with
    | error e => rfl
    | ok n =>
      show (work source [] (table.insert root.row n) >>= fun t => .ok (t.node? root)) = .ok n
      rw [work]
      show Except.ok ((table.insert root.row n)[root.row]?).join = Except.ok n
      rw [Std.HashMap.getElem?_insert_self, Option.join_some]

/-- A document whose octets are in the source becomes an **integral tree**. -/
theorem convert_program {text : Text} {root : Tree} (hKind : root.kind = "program")
    (hRange : root.InRange (Text.encode text).length) :
    Yields (fun o => ∃ n, o = some n ∧ n.Integral) (convert (.ofText text) root) := by
  have hForm : Form.ofKind root.kind = .program := by
    rw [hKind]
    decide +kernel
  have hSustains : ∀ table : Table, table.All Node.Integral →
      Sustains (fun _ => Node.Integral) ⟨.ofText text, table.node?⟩ root :=
    fun table hTable => sustains_integral hRange hTable
  obtain ⟨o, ho, hIntegral⟩ := convert_keeps hSustains
  have hSome : o.isSome = true := by
    rw [convert_eq_build] at ho
    obtain ⟨table, -, hBuild⟩ := Outcome.bind_eq_ok.mp ho
    exact Builder.isSome_of_build (by simp [hForm]) (by simp [hForm]) hBuild
  obtain ⟨n, rfl⟩ := Option.isSome_iff_exists.mp hSome
  exact ⟨some n, ho, n, rfl, hIntegral n rfl⟩

end Concrete

end ScriptLint
