import ScriptLint.Proofs.Concrete.Template

/-!
# Conversion beyond the last octet

A concrete tree may name octets that its source does not have.  The conversion fails only if it
needs the code point of such an octet.  If it does not fail, its result is the same with a **longer
table** of code points, in which all octets of the tree can be looked up.  So what is shown of
conversions that cannot fail holds of every conversion with a result.

* `Source.withOffsets`: the source with another table of code points.
* `build_carries`, `work_carries`, `convert_carries`: what there is with one table is there with a
  longer one.
* `Source.exists_offsets`: there is a table with all octets of a tree.
* `convert_ensures`: a property that building sustains is a property of every result.
-/

namespace ScriptLint.Concrete

open Ast (Node Slot Field Kind Construct)
open Outcome (Carries Ensures)

/-- The source with **another table** of code points. -/
def Source.withOffsets (source : Source) (offsets : Option (Array Nat)) : Source :=
  { source with offsets := offsets }

/-! ### One table and a longer one -/

section Carries

variable {source : Source} {offsets : Option (Array Nat)} {node? : Tree → Option Node}
  (h : ∀ octet, Carries (source.offset octet) ((source.withOffsets offsets).offset octet))
include h

theorem spanOf_carries (t : Tree) :
    Carries (source.spanOf t) ((source.withOffsets offsets).spanOf t) :=
  (h _).bind fun _ => (h _).bind fun _ => .refl _

theorem extra_carries (t : Tree) (part : Nat) (construct : Construct) (position : Tree)
    (given : List (Field × Slot)) :
    Carries (Builder.extra ⟨source, node?⟩ t part construct position given)
      (Builder.extra ⟨source.withOffsets offsets, node?⟩ t part construct position given) :=
  (spanOf_carries h position).bind fun _ => .refl _

theorem param_carries (t : Tree) :
    Carries (Builder.param ⟨source, node?⟩ t)
      (Builder.param ⟨source.withOffsets offsets, node?⟩ t) := by
  have hField : Builder.field? ⟨source.withOffsets offsets, node?⟩ t
      = Builder.field? ⟨source, node?⟩ t := rfl
  rw [Builder.param, Builder.param, hField]
  split
  · split
    · exact (extra_carries h _ _ _ _ _).bind fun _ => .refl _
    · exact .refl _
  · exact .refl _

theorem params_carries (t : Option Tree) :
    Carries (Builder.params ⟨source, node?⟩ t)
      (Builder.params ⟨source.withOffsets offsets, node?⟩ t) := by
  cases t with
  | none => exact .refl _
  | some t => exact (Carries.mapM fun u _ => param_carries h u).bind fun _ => .refl _

theorem functionParts_carries (t : Tree) :
    Carries (Builder.functionParts ⟨source, node?⟩ t)
      (Builder.functionParts ⟨source.withOffsets offsets, node?⟩ t) :=
  (params_carries h _).bind fun _ => .refl _

theorem loopVariable_carries (t : Tree) :
    Carries (Builder.loopVariable ⟨source, node?⟩ t)
      (Builder.loopVariable ⟨source.withOffsets offsets, node?⟩ t) := by
  rw [Builder.loopVariable, Builder.loopVariable]
  split
  · exact .refl _
  · dsimp only
    split
    · exact (extra_carries h _ _ _ _ _).bind fun _ =>
        (extra_carries h _ _ _ _ _).bind fun _ => .refl _
    · exact .refl _

theorem given_carries (t : Tree) :
    Carries (Builder.given ⟨source, node?⟩ t)
      (Builder.given ⟨source.withOffsets offsets, node?⟩ t) := by
  rw [Builder.given, Builder.given]
  cases Form.ofKind t.kind with
  | forInStatement => exact (loopVariable_carries h t).bind fun _ => .refl _
  | functionDeclaration => exact (functionParts_carries h t).bind fun _ => .refl _
  | functionExpression => exact (functionParts_carries h t).bind fun _ => .refl _
  | arrowFunction =>
    dsimp only
    split
    · exact .refl _
    · exact (params_carries h _).bind fun _ => .refl _
  | methodDefinition =>
    exact (functionParts_carries h t).bind fun _ =>
      (extra_carries h _ _ _ _ _).bind fun _ => .refl _
  | shorthandProperty =>
    exact (extra_carries h _ _ _ _ _).bind fun _ =>
      (extra_carries h _ _ _ _ _).bind fun _ => .refl _
  | templateString =>
    have hParts : Builder.templateParts ⟨source.withOffsets offsets, node?⟩ [] t.namedChildren
        = Builder.templateParts ⟨source, node?⟩ [] t.namedChildren := by
      rw [Builder.templateParts_eq, Builder.templateParts_eq]
      rfl
    dsimp only
    rw [hParts]
    exact .refl _
  | _ => exact .refl _

/-- What is built with one table is built with a longer one. -/
theorem build_carries (t : Tree) :
    Carries (Builder.build ⟨source, node?⟩ t)
      (Builder.build ⟨source.withOffsets offsets, node?⟩ t) := by
  rw [Builder.build, Builder.build]
  split
  · exact .refl _
  · exact .refl _
  · exact (given_carries h t).bind fun _ => (spanOf_carries h t).bind fun _ => .refl _

/-- Tasks that can be worked off with one table **can be worked off** with a longer one, and end
alike. -/
theorem work_carries (tasks : List Task) (table : Table) :
    Carries (work source tasks table) (work (source.withOffsets offsets) tasks table) := by
  fun_induction work source tasks table with
  | case1 table =>
    rw [work]
    exact .refl _
  | case2 t rest table e he =>
    intro final hFinal
    cases hFinal
  | case3 t rest table n hn ih =>
    rw [work, build_carries h t n hn]
    exact ih
  | case4 t rest table ih =>
    rw [work]
    exact ih

theorem convert_carries (root : Tree) :
    Carries (convert source root) (convert (source.withOffsets offsets) root) :=
  (work_carries h _ _).bind fun _ => .refl _

end Carries

/-! ### A table that is long enough -/

/-- There is a **longer table** in which all octets of the tree can be looked up. -/
theorem Source.exists_offsets (source : Source) (root : Tree) :
    ∃ offsets,
      (∀ octet, Carries (source.offset octet) ((source.withOffsets offsets).offset octet)) ∧
      ∀ u ∈ root.preorder, ∃ span, (source.withOffsets offsets).spanOf u = .ok span := by
  cases hOffsets : source.offsets with
  | none =>
    -- without a table all octets are code points already
    refine ⟨none, fun octet => ?_, fun u _ => ⟨_, rfl⟩⟩
    rw [offset, hOffsets]
    exact .refl _
  | some table =>
    -- no octet of the tree is beyond all of them together
    let bound := total (fun u : Tree => u.start + u.stop) root.preorder
    let longer := table ++ Array.replicate (bound + 1) 0
    have hFound : ∀ octet ≤ bound,
        ∃ i, (source.withOffsets (some longer)).offset octet = .ok i := by
      intro octet hOctet
      have hlt : octet < longer.size := by
        simp only [longer, Array.size_append, Array.size_replicate]
        omega
      exact ⟨longer[octet], by simp [offset, withOffsets, hlt]⟩
    refine ⟨some longer, fun octet i hi => ?_, fun u hu => ?_⟩
    · rw [offset, hOffsets] at hi
      dsimp only at hi
      split at hi
      · rename_i hGet
        cases hi
        have hLonger : longer[octet]? = some i := by
          rw [Array.getElem?_append_left (Array.getElem?_eq_some_iff.mp hGet).1, hGet]
        simp [offset, withOffsets, hLonger]
      · cases hi
    · have hBound : u.start + u.stop ≤ bound := le_total_of_mem (fun u => u.start + u.stop) hu
      obtain ⟨i, hi⟩ := hFound u.start (by omega)
      obtain ⟨j, hj⟩ := hFound u.stop (by omega)
      rw [spanOf, hi, hj]
      exact ⟨_, rfl⟩

/-! ### Properties of results -/

/-- If building **sustains** a property wherever the octets of the tree can be looked up, the result
of every conversion has it. -/
theorem convert_ensures {root : Tree} {Q : Node → Prop}
    (h : ∀ (source : Source) (table : Table),
      (∀ u ∈ root.preorder, ∃ span, source.spanOf u = .ok span) → table.All Q →
        Sustains (fun _ => Q) ⟨source, table.node?⟩ root) (source : Source) :
    Ensures (fun result => ∀ n ∈ result, Q n) (convert source root) := by
  intro result hResult
  obtain ⟨offsets, hCarries, hSpans⟩ := source.exists_offsets root
  obtain ⟨result', hResult', hAll⟩ :=
    convert_keeps fun table hTable => h (source.withOffsets offsets) table hSpans hTable
  rw [convert_carries hCarries root result hResult] at hResult'
  cases hResult'
  exact hAll

end ScriptLint.Concrete
