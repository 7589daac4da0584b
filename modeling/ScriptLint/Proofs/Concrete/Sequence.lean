import Mathlib.Data.List.Flatten
import ScriptLint.Proofs.Ast.Typed
import ScriptLint.Proofs.Concrete.Extension

/-!
# Sequences are flat

A sequence inside a sequence gives its own expressions in its place.  This is done one level at a
time, when the outer sequence is built and the inner one has been built already.  So no sequence has
a sequence among its expressions, however deep they are nested and whatever brackets are around
them; and nothing gets lost or changes its place.

* `Node.spliced`, `Node.Flat`: what a node gives to a sequence around it; a tree without sequences
  directly inside sequences.
* `Operand`: the concrete nodes that are met from a sequence through nested sequences and wrappers.
* `operands`: all of them, from left to right.  `mem_operands`, `operands_sublist`,
  `not_below_of_mem_operands`: these and no others, in their order in the tree, none below another.
* `build_of_work`: in the end each node is what is built with the table.
* `map_operands`: what the operands become is what a node gives to a sequence.
* `convert_sequence`: sequences of every document are flat, and are what their operands become.
-/

namespace ScriptLint

open Ast (Node Slot Field Kind Construct)

namespace Ast.Node

/-- What a node gives to a sequence around it: a sequence gives its expressions. -/
def spliced (n : Node) : List Node :=
  if n.is .sequenceExpression then (n.slot .expressions).children else [n]

/-- No sequence in the tree has a sequence **directly** among its expressions. -/
def Flat (n : Node) : Prop :=
  ∀ m ∈ n.preorder, m.is .sequenceExpression = true →
    ∀ e ∈ (m.slot .expressions).children, e.is .sequenceExpression = false

theorem Flat.of_mem_spliced {n e : Node} (h : n.Flat) (he : e ∈ n.spliced) :
    e.is .sequenceExpression = false := by
  rw [spliced] at he
  split at he
  · rename_i hSequence
    exact h n n.mem_preorder_self hSequence e he
  · rename_i hSequence
    rw [List.mem_singleton.mp he]
    simpa using hSequence

end Ast.Node

namespace Concrete

/-! ### What is built for a sequence -/

namespace Builder

variable {b : Builder} {t : Tree}

theorem sequenceParts_eq (b : Builder) (t : Tree) :
    b.sequenceParts t
      = t.namedChildren.flatMap fun c => (b.node? c).toList.flatMap Node.spliced := by
  rw [← List.flatMap_assoc, ← List.filterMap_eq_flatMap_toList]
  rfl

theorem given_of_sequence (h : Form.ofKind t.kind = .sequenceExpression) :
    b.given t
      = .ok (.known .sequenceExpression, [(.expressions, .nodes (b.sequenceParts t))]) := by
  rw [given, h]

/-- **Only** a sequence becomes a sequence. -/
theorem form_of_given_sequence {g : Kind × List (Field × Slot)} (h : b.given t = .ok g)
    (hg : g.1 = .known .sequenceExpression) : Form.ofKind t.kind = .sequenceExpression := by
  rw [given] at h
  cases hForm : Form.ofKind t.kind with
  | sequenceExpression => rfl
  | binaryExpression =>
    rw [hForm] at h
    cases h
    dsimp only at hg
    split at hg <;> cases hg
  | forInStatement =>
    rw [hForm] at h
    obtain ⟨left, -, h⟩ := Outcome.bind_eq_ok.mp h
    cases h
    dsimp only at hg
    split at hg <;> cases hg
  | functionDeclaration | functionExpression =>
    rw [hForm] at h
    obtain ⟨parts, -, h⟩ := Outcome.bind_eq_ok.mp h
    cases h
    cases hg
  | arrowFunction =>
    rw [hForm] at h
    dsimp only at h
    split at h
    all_goals
      obtain ⟨params, -, h⟩ := Outcome.bind_eq_ok.mp h
      cases h
      cases hg
  | methodDefinition | shorthandProperty =>
    rw [hForm] at h
    obtain ⟨first, -, h⟩ := Outcome.bind_eq_ok.mp h
    obtain ⟨second, -, h⟩ := Outcome.bind_eq_ok.mp h
    cases h
    cases hg
  | _ =>
    rw [hForm] at h
    cases h
    cases hg

theorem slot_of_sequence {id : Ast.NodeId} {span : Ast.Span} :
    (Node.build id (.known .sequenceExpression) span
      [(.expressions, .nodes (b.sequenceParts t))]).slot .expressions
        = .nodes (b.sequenceParts t) :=
  Node.slot_build (by decide) rfl

end Builder

theorem Tree.form_of_sequence {t : Tree} (h : t.kind = "sequence_expression") :
    Form.ofKind t.kind = .sequenceExpression := by
  rw [h]
  decide +kernel

/-! ### Flatness -/

theorem besides_no_sequence : Construct.sequenceExpression ∉ besides := by decide

/-- A sequence that is made has **no sequence** among its expressions, if all that has been built
is flat. -/
theorem Made.flat {b : Builder} {t : Tree} {id : Ast.NodeId} {span : Ast.Span}
    {kind : Kind} {fields : List (Field × Slot)} (h : Made b t id kind fields)
    (hKnown : ∀ c ∈ t.namedChildren, ∀ n ∈ b.node? c, n.Flat)
    (hKind : kind = .known .sequenceExpression) :
    ∀ e ∈ ((Node.build id kind span fields).slot .expressions).children,
      e.is .sequenceExpression = false := by
  cases h with
  | main h =>
    have hForm := Builder.form_of_given_sequence h hKind
    rw [Builder.given_of_sequence hForm] at h
    cases h
    rw [Builder.slot_of_sequence]
    intro e he
    rw [Slot.children, Builder.sequenceParts_eq] at he
    obtain ⟨c, hc, he⟩ := List.mem_flatMap.mp he
    obtain ⟨n, hn, he⟩ := List.mem_flatMap.mp he
    exact (hKnown c hc n (Option.mem_toList.mp hn)).of_mem_spliced he
  | identifier part h => cases hKind
  | other h =>
    cases hKind
    exact absurd h besides_no_sequence

theorem sustains_flat {source : Source} {root : Tree} {table : Table}
    (hSpans : ∀ u ∈ root.preorder, ∃ span, source.spanOf u = .ok span)
    (hTable : table.All Node.Flat) :
    Sustains (fun _ => Node.Flat) ⟨source, table.node?⟩ root where
  known := fun u _ => hTable.node? u
  up := fun _ _ _ _ _ hn => hn
  child := fun _ _ _ hn c hc => (Node.forall_mem_preorder_iff.mp hn).2 c hc
  make := by
    intro u hu id kind fields hMade hFields
    obtain ⟨span, hSpan⟩ := hSpans u hu
    refine ⟨span, hSpan, Node.forall_mem_preorder_iff.mpr ⟨fun hSequence => ?_, fun c hc => ?_⟩⟩
    · exact hMade.flat (fun c _ => hTable.node? c) (Node.kind_of_is hSequence)
    · exact hFields c (Node.mem_givenNodes_of_mem_children hc)

/-! ### Operands -/

namespace Tree

/-- The node is no sequence, it is no wrapper, and it is not skipped. -/
def IsOperand (t : Tree) : Prop :=
  Form.ofKind t.kind ∉ [Form.skipped, .wrapper, .sequenceExpression]

instance (t : Tree) : Decidable t.IsOperand :=
  inferInstanceAs (Decidable (_ ∉ [Form.skipped, .wrapper, .sequenceExpression]))

/-- Where operands are looked for: in **all** named children of a sequence, and in the **first** one
of a wrapper that becomes something. -/
def inner (node? : Tree → Option Node) (t : Tree) : List Tree :=
  match Form.ofKind t.kind with
  | .sequenceExpression => t.namedChildren
  | .wrapper => (t.namedChildren.find? fun c => (node? c).isSome).toList
  | _ => []

end Tree

/-- The node is an **operand**: it is met through nested sequences and wrappers, and is none of
these. -/
inductive Operand (node? : Tree → Option Node) : Tree → Tree → Prop
  | self {t : Tree} (h : t.IsOperand) : Operand node? t t
  | inside {t c u : Tree} (hc : c ∈ t.inner node?) (h : Operand node? c u) : Operand node? t u

section Operands

variable {node? : Tree → Option Node} {t u : Tree}

theorem Tree.inner_sublist (node? : Tree → Option Node) (t : Tree) :
    (t.inner node?).Sublist t.namedChildren := by
  rw [inner]
  split
  · exact .refl _
  · cases hFirst : t.namedChildren.find? fun c => (node? c).isSome with
    | none => exact List.nil_sublist _
    | some c => exact List.singleton_sublist.mpr (List.mem_of_find?_eq_some hFirst)
  · exact List.nil_sublist _

theorem Tree.mem_children_of_mem_inner {c : Tree} (h : c ∈ t.inner node?) : c ∈ t.children :=
  mem_children_of_mem_namedChildren ((inner_sublist node? t).subset h)

theorem Tree.inner_eq_nil (h : t.IsOperand) : t.inner node? = [] := by
  rw [inner]
  split
  · rename_i hForm
    exact absurd (by simp [hForm]) h
  · rename_i hForm
    exact absurd (by simp [hForm]) h
  · rfl

/-- All operands of a node, **from left to right**. -/
def operands (node? : Tree → Option Node) (t : Tree) : List Tree :=
  if t.IsOperand then [t] else (t.inner node?).attach.flatMap fun c => operands node? c.1
termination_by sizeOf t
decreasing_by exact Tree.sizeOf_lt_of_mem_children (Tree.mem_children_of_mem_inner c.2)

theorem operands_of_isOperand (h : t.IsOperand) : operands node? t = [t] := by
  rw [operands, if_pos h]

theorem operands_eq_flatMap (h : ¬ t.IsOperand) :
    operands node? t = (t.inner node?).flatMap (operands node?) := by
  rw [operands, if_neg h, List.flatMap_subtype (g := operands node?) fun _ _ => rfl,
    List.unattach_attach]

/-- Looking for operands finds **all operands** and nothing else. -/
theorem mem_operands : u ∈ operands node? t ↔ Operand node? t u := by
  constructor
  · intro hu
    induction t using Tree.ind with
    | h t ih =>
      by_cases ht : t.IsOperand
      · rw [operands_of_isOperand ht, List.mem_singleton] at hu
        rw [hu]
        exact .self ht
      · rw [operands_eq_flatMap ht, List.mem_flatMap] at hu
        obtain ⟨c, hc, hu⟩ := hu
        exact .inside hc (ih c (Tree.mem_children_of_mem_inner hc) hu)
  · intro h
    induction h with
    | self h =>
      rw [operands_of_isOperand h]
      exact List.mem_singleton_self _
    | @inside t c u hc _ ih =>
      have ht : ¬ t.IsOperand := by
        intro ht
        rw [Tree.inner_eq_nil ht] at hc
        cases hc
      rw [operands_eq_flatMap ht]
      exact List.mem_flatMap.mpr ⟨c, hc, ih⟩

theorem operands_sublist_of_inner (ht : ¬ t.IsOperand)
    (ih : ∀ c ∈ t.children, (operands node? c).Sublist c.preorder) :
    (operands node? t).Sublist t.descendants := by
  rw [operands_eq_flatMap ht, Tree.descendants]
  have hInner : (t.inner node?).Sublist t.children :=
    (Tree.inner_sublist node? t).trans List.filter_sublist
  exact (hInner.flatMap _).trans (List.Sublist.flatMap_right _ ih)

/-- The operands stand in the order of **the tree**. -/
theorem operands_sublist : (operands node? t).Sublist t.preorder := by
  induction t using Tree.ind with
  | h t ih =>
    rw [Tree.preorder_eq]
    by_cases ht : t.IsOperand
    · rw [operands_of_isOperand ht]
      exact List.singleton_sublist.mpr List.mem_cons_self
    · exact (operands_sublist_of_inner ht ih).cons _

/-- No operand is **below** another. -/
theorem not_below_of_mem_operands (h : t.DistinctRows) {v : Tree} (hu : u ∈ operands node? t)
    (hv : v ∈ operands node? t) : v ∉ u.descendants := by
  induction t using Tree.ind with
  | h t ih =>
    by_cases ht : t.IsOperand
    · rw [operands_of_isOperand ht, List.mem_singleton] at hu hv
      rw [hu, hv]
      exact h.not_mem_descendants_self
    · rw [operands_eq_flatMap ht, List.mem_flatMap] at hu hv
      obtain ⟨c, hc, hu⟩ := hu
      obtain ⟨d, hd, hv⟩ := hv
      intro hBelow
      -- a node below the first operand is in the same child as this operand
      have hc' := Tree.mem_children_of_mem_inner hc
      have hvc : v ∈ c.preorder := Tree.mem_preorder_of_mem_descendants
        (Tree.descendants_subset u (operands_sublist.subset hu) hBelow)
      obtain rfl := h.child_unique hc' (Tree.mem_children_of_mem_inner hd) hvc
        (operands_sublist.subset hv)
      exact ih c hc' (h.child hc') hu hv hBelow

theorem Tree.mem_content_of_mem_inner {c : Tree} (h : c ∈ t.inner node?) : c ∈ t.content := by
  have hForm : Form.ofKind t.kind ≠ .skipped := by
    intro hForm
    rw [inner, hForm] at h
    cases h
  rw [content_eq_namedChildren hForm]
  exact (inner_sublist node? t).subset h

theorem Tree.Reaches.inner {root c : Tree} (h : root.Reaches t) (hc : c ∈ t.inner node?) :
    root.Reaches c :=
  .inr (h.within (mem_within_of_mem_content (mem_content_of_mem_inner hc)))

theorem Operand.reaches {root : Tree} (h : Operand node? t u) (ht : root.Reaches t) :
    root.Reaches u := by
  induction h with
  | self h => exact ht
  | inside hc _ ih => exact ih (ht.inner hc)

end Operands

/-! ### What operands become -/

/-- In the end each node that is reached is what is **built with the table**. -/
theorem build_of_work {source : Source} {root : Tree} (hRows : root.DistinctRows) {table : Table}
    (h : work source [.enter root] ∅ = .ok table) {t : Tree} (ht : root.Reaches t) :
    Builder.build ⟨source, table.node?⟩ t = .ok (table.node? t) := by
  have hEnd := (Progress.start source root).steps hRows (steps_of_work [.enter root] [] h)
  rw [← recursion_of_work hRows h ht]
  exact hEnd.build_eq_of_within hRows ht fun d hd =>
    recursion_of_work hRows h (.inr (ht.within hd))

theorem findSome?_eq_bind_find? {node? : Tree → Option Node} (cs : List Tree) :
    cs.findSome? node? = (cs.find? fun c => (node? c).isSome).bind node? := by
  induction cs with
  | nil => rfl
  | cons c cs ih =>
    rw [List.findSome?_cons, List.find?_cons]
    cases hc : node? c with
    | none => exact ih
    | some n => exact hc.symm

namespace Builder

variable {b : Builder} {t : Tree} {o : Option Node}

theorem build_of_sequence (hForm : Form.ofKind t.kind = .sequenceExpression)
    (h : b.build t = .ok o) : ∃ n, o = some n ∧ n.kind = .known .sequenceExpression ∧
      n.slot .expressions = .nodes (b.sequenceParts t) := by
  obtain ⟨g, span, hGiven, rfl⟩ := exists_given_of_build (by simp [hForm]) (by simp [hForm]) h
  rw [given_of_sequence hForm] at hGiven
  cases hGiven
  exact ⟨_, rfl, rfl, slot_of_sequence⟩

/-- An operand becomes a node, and **no sequence**. -/
theorem build_of_isOperand (ht : t.IsOperand) (h : b.build t = .ok o) :
    ∃ n, o = some n ∧ n.spliced = [n] := by
  simp only [Tree.IsOperand, List.mem_cons, List.not_mem_nil, or_false, not_or] at ht
  obtain ⟨hs, hw, hq⟩ := ht
  obtain ⟨g, span, hGiven, rfl⟩ := exists_given_of_build hs hw h
  refine ⟨_, rfl, if_neg fun hIs => hq ?_⟩
  exact form_of_given_sequence hGiven (Node.kind_of_is hIs)

/-- What a sequence, a wrapper or a skipped node gives to a sequence is what is given **by the nodes
inside**. -/
theorem spliced_of_build (ht : ¬ t.IsOperand) (h : b.build t = .ok o) :
    o.toList.flatMap Node.spliced
      = (t.inner b.node?).flatMap fun c => (b.node? c).toList.flatMap Node.spliced := by
  simp only [Tree.IsOperand, List.mem_cons, List.not_mem_nil, or_false, not_not] at ht
  rcases ht with hForm | hForm | hForm
  · rw [build, hForm] at h
    cases h
    rw [Tree.inner, hForm]
    rfl
  · rw [build, hForm, firstNamed?, findSome?_eq_bind_find?] at h
    cases h
    rw [Tree.inner, hForm]
    cases t.namedChildren.find? fun c => (b.node? c).isSome with
    | none => rfl
    | some c => simp
  · obtain ⟨n, rfl, hKind, hSlot⟩ := build_of_sequence hForm h
    have hIs : n.is .sequenceExpression = true := by
      rw [Node.is, hKind]
      rfl
    rw [Tree.inner, hForm, ← sequenceParts_eq]
    simp [Node.spliced, hIs, hSlot]

end Builder

/-- The operands of a node become what the node **gives to a sequence**. -/
theorem map_operands {b : Builder} {root t : Tree}
    (h : ∀ u, root.Reaches u → b.build u = .ok (b.node? u)) (ht : root.Reaches t) :
    (operands b.node? t).map b.node? = ((b.node? t).toList.flatMap Node.spliced).map some := by
  induction t using Tree.ind with
  | h t ih =>
    by_cases hOperand : t.IsOperand
    · obtain ⟨n, hn, hSpliced⟩ := Builder.build_of_isOperand hOperand (h t ht)
      rw [operands_of_isOperand hOperand, hn]
      simp [hn, hSpliced]
    · rw [operands_eq_flatMap hOperand, Builder.spliced_of_build hOperand (h t ht),
        List.map_flatMap, List.map_flatMap]
      refine List.flatMap_congr fun c hc => ?_
      exact ih c (Tree.mem_children_of_mem_inner hc) (ht.inner hc)

/-- **Sequences are flat, and complete.**

* No sequence in the result of a conversion has a sequence directly among its expressions.
* A document whose octets are in the source is converted, and the table has in the end what each
  node that is reached becomes.  Each sequence among these becomes a node whose expressions are, one
  by one and from left to right, what its operands become.
* The operands are the nodes that are met from the sequence through nested sequences, and through
  wrappers by the first of their named children that becomes something.  They stand in the order of
  the tree, each of them once, and none is below another. -/
theorem convert_sequence (text : Text) (root : Tree) :
    (∀ result, convert (.ofText text) root = .ok result → ∀ n ∈ result, ∀ m ∈ n.preorder,
      m.is .sequenceExpression = true →
        ∀ e ∈ (m.slot .expressions).children, e.is .sequenceExpression = false) ∧
    (root.DistinctRows →
      (root.InRange (Text.encode text).length →
        ∃ table, work (.ofText text) [.enter root] ∅ = .ok table) ∧
      ∀ table, work (.ofText text) [.enter root] ∅ = .ok table →
        (∀ d, root.Reaches d → convert (.ofText text) d = .ok (table.node? d)) ∧
        ∀ t, root.Reaches t → t.kind = "sequence_expression" →
          ∃ (n : Node) (us : List Tree) (es : List Node), table.node? t = some n ∧
            n.kind = .known .sequenceExpression ∧ n.slot .expressions = .nodes es ∧
            us.map table.node? = es.map some ∧
            (∀ u, u ∈ us ↔ Operand table.node? t u) ∧ (∀ u ∈ us, root.Reaches u) ∧
            us.Sublist t.descendants ∧ us.Nodup ∧ ∀ u ∈ us, ∀ v ∈ us, v ∉ u.descendants) := by
  refine ⟨convert_ensures (fun _ _ => sustains_flat) _, fun hRows => ⟨exists_work, ?_⟩⟩
  intro table hTable
  refine ⟨fun d hd => ?_, fun t ht hKind => ?_⟩
  · rw [convert_eq_recursion _ (hRows.of_mem_preorder hd.mem_preorder),
      recursion_of_work hRows hTable hd]
  · have hForm := Tree.form_of_sequence hKind
    have hDistinct := hRows.of_mem_preorder ht.mem_preorder
    have hNot : ¬ t.IsOperand := fun h => h (by simp [hForm])
    have hBuild : ∀ u, root.Reaches u →
        Builder.build ⟨.ofText text, table.node?⟩ u = .ok (table.node? u) :=
      fun u hu => build_of_work hRows hTable hu
    have hSublist : (operands table.node? t).Sublist t.descendants :=
      operands_sublist_of_inner hNot fun _ _ => operands_sublist
    have hMap := map_operands hBuild ht
    obtain ⟨n, hn, hSequence, hSlot⟩ := Builder.build_of_sequence hForm (hBuild t ht)
    rw [Builder.spliced_of_build hNot (hBuild t ht), Tree.inner, hForm,
      ← Builder.sequenceParts_eq] at hMap
    refine ⟨n, operands table.node? t, _, hn, hSequence, hSlot, hMap, fun u => mem_operands,
      fun u hu => (mem_operands.mp hu).reaches ht, hSublist, ?_, fun u hu v hv => ?_⟩
    · exact hDistinct.nodup.sublist operands_sublist
    · exact not_below_of_mem_operands hDistinct hu hv

section Bracketed

/-- A node of the sequence `(a,b),c`. -/
def commaNode (row : Nat) (kind : Text) (start stop : Nat) (isNamed : Bool)
    (ts : List Tree) : Tree :=
  .mk ⟨row, kind, [], start, stop, isNamed, false, false⟩ ts

/-- The name `b` in the brackets of `(a,b),c`. -/
def bracketedName : Tree := commaNode 6 "identifier" 3 4 true []

/-- The sequence in the brackets of `(a,b),c`. -/
def bracketedSequence : Tree :=
  commaNode 3 "sequence_expression" 1 4 true
    [commaNode 4 "identifier" 1 2 true [], commaNode 5 "," 2 3 false [], bracketedName]

/-- The brackets of `(a,b),c`. -/
def commaBrackets : Tree :=
  commaNode 1 "parenthesized_expression" 0 5 true
    [commaNode 2 "(" 0 1 false [], bracketedSequence, commaNode 7 ")" 4 5 false []]

/-- The sequence `(a,b),c`, in which a sequence is the first expression. -/
def nestedSequence : Tree :=
  commaNode 0 "sequence_expression" 0 7 true
    [commaBrackets, commaNode 8 "," 5 6 false [], commaNode 9 "identifier" 6 7 true []]

/-- What the name in the brackets becomes is an expression of the outer sequence. -/
theorem convert_sequence_nestedSequence :
    nestedSequence.DistinctRows ∧
      ∃ table n es e, work (.ofText "(a,b),c") [.enter nestedSequence] ∅ = .ok table ∧
        table.node? nestedSequence = some n ∧ n.slot .expressions = .nodes es ∧
        table.node? bracketedName = some e ∧ e ∈ es := by
  have hRows : nestedSequence.DistinctRows := by decide
  obtain ⟨hExists, hAll⟩ := (convert_sequence "(a,b),c" nestedSequence).2 hRows
  obtain ⟨table, hTable⟩ := hExists (by decide +kernel)
  have hSequence := (hAll table hTable).2
  have hOuter : commaBrackets ∈ nestedSequence.inner table.node? := by
    rw [Tree.inner, Tree.form_of_sequence rfl]
    exact List.mem_cons_self
  have hContent : bracketedSequence ∈ commaBrackets.content := by
    rw [Tree.content_eq_namedChildren (by decide +kernel)]
    exact List.mem_cons_self
  have hReached : nestedSequence.Reaches bracketedSequence :=
    .inr (((Tree.Reaches.refl _).inner hOuter).within (Tree.mem_within_of_mem_content hContent))
  obtain ⟨inner, _, _, hSome, -⟩ := hSequence bracketedSequence hReached rfl
  obtain ⟨n, us, es, hn, -, hSlot, hMap, hMem, -⟩ := hSequence nestedSequence (.refl _) rfl
  have hOperand : Operand table.node? nestedSequence bracketedName := by
    refine .inside hOuter (.inside (c := bracketedSequence) ?_ (.inside ?_ (.self ?_)))
    · have hForm : Form.ofKind commaBrackets.kind = .wrapper := by decide +kernel
      have hNamed : commaBrackets.namedChildren = [bracketedSequence] := rfl
      simp [Tree.inner, hForm, hNamed, hSome]
    · rw [Tree.inner, Tree.form_of_sequence rfl]
      exact List.mem_cons_of_mem _ List.mem_cons_self
    · decide +kernel
  have hIn : table.node? bracketedName ∈ es.map some := by
    rw [← hMap]
    exact List.mem_map_of_mem ((hMem _).mpr hOperand)
  obtain ⟨e, he, hName⟩ := List.mem_map.mp hIn
  exact ⟨hRows, table, n, es, e, hTable, hn, hSlot, hName.symm, he⟩

end Bracketed

end Concrete

end ScriptLint
