import ScriptLint.Proofs.Concrete.Words

/-!
# Templates keep their text in order

The named children of a template are fragments of text and substitutions.  A loop goes over them
with the piece that has been read so far, and every substitution ends the piece.  So the loop splits
the children **at the substitutions**: the texts between them become the pieces, and what is in them
becomes the expressions.

* `Tree.substitutions`, `Tree.fragments`: the substitutions of a template, and the runs of children
  between them.
* `Builder.templateParts_eq`: the loop splits the children at the substitutions.
* `interleave`, `interleave_splitOnP`: pieces and substitutions in turn are the whole text.
* `recursion_of_work`: in the end the table has the results of all nodes that are reached.
* `convert_template`: what a template becomes, in every document.
-/

namespace ScriptLint.Concrete

open Ast (Node Slot Field Kind Construct)

/-! ### Substitutions and the fragments between them -/

namespace Tree

/-- Does the node end a piece of a template? -/
def isSubstitution (t : Tree) : Bool := t.kind == ("template_substitution" : Text)

/-- The substitutions of a template. -/
def substitutions (t : Tree) : List Tree := t.namedChildren.filter isSubstitution

/-- The runs of children before, between and after the substitutions of a template. -/
def fragments (t : Tree) : List (List Tree) := t.namedChildren.splitOnP isSubstitution

end Tree

/-- Pieces and substitutions **in turn**, beginning with a piece.  What is left of one sort comes
last. -/
def interleave : List Text → List Text → Text
  | piece :: pieces, s :: rest => piece ++ s ++ interleave pieces rest
  | pieces, rest => pieces.flatten ++ rest.flatten

theorem interleave_append_head (first piece : Text) (pieces rest : List Text) :
    interleave ((first ++ piece) :: pieces) rest = first ++ interleave (piece :: pieces) rest := by
  cases rest with
  | nil => simp [interleave]
  | cons s rest => simp [interleave]

section Split

variable {p : Tree → Bool} {text : Tree → Text}

theorem length_splitOnP (cs : List Tree) : (cs.splitOnP p).length = (cs.filter p).length + 1 := by
  induction cs with
  | nil => rfl
  | cons c cs ih =>
    rw [List.splitOnP_cons_eq_if_modifyHead, List.filter_cons]
    split
    · rw [List.length_cons, ih, List.length_cons]
    · rw [List.length_modifyHead, ih]

/-- The texts between the separators and the texts of the separators, in turn, are the **whole
text**. -/
theorem interleave_splitOnP (cs : List Tree) :
    interleave ((cs.splitOnP p).map (·.flatMap text)) ((cs.filter p).map text)
      = cs.flatMap text := by
  induction cs with
  | nil => rfl
  | cons c cs ih =>
    rw [List.splitOnP_cons_eq_if_modifyHead, List.filter_cons, List.flatMap_cons, ← ih]
    split
    · rw [List.map_cons, List.map_cons, interleave, List.flatMap_nil, List.nil_append]
    · obtain ⟨run, runs, hRuns⟩ := List.exists_cons_of_ne_nil (List.splitOnP_ne_nil p cs)
      rw [hRuns, List.modifyHead_cons, List.map_cons, List.map_cons, List.flatMap_cons,
        interleave_append_head]

end Split

/-! ### The loop -/

/-- The loop **splits** the children at the substitutions.  What has been read before comes in front
of the first piece. -/
theorem Builder.templateParts_eq (b : Builder) (cs : List Tree) : ∀ current : Text,
    b.templateParts current cs
      = (((cs.splitOnP Tree.isSubstitution).map (·.flatMap b.source.textOf)).modifyHead
          (current ++ ·),
        (cs.filter Tree.isSubstitution).filterMap b.firstNamed?) := by
  induction cs with
  | nil =>
    intro current
    simp [templateParts]
  | cons c cs ih =>
    intro current
    rw [templateParts, List.splitOnP_cons_eq_if_modifyHead, List.filter_cons, ih, ih,
      Tree.isSubstitution]
    split
    · -- the piece ends here, and the next one begins with nothing
      have hNext : ((cs.splitOnP Tree.isSubstitution).map (·.flatMap b.source.textOf)).modifyHead
          (([] : Text) ++ ·) = (cs.splitOnP Tree.isSubstitution).map (·.flatMap b.source.textOf) :=
        congrFun List.modifyHead_id _
      rw [hNext, List.map_cons, List.modifyHead_cons, List.flatMap_nil, List.append_nil]
      cases hFirst : b.firstNamed? c <;> simp [hFirst]
    · obtain ⟨run, runs, hRuns⟩ :=
        List.exists_cons_of_ne_nil (List.splitOnP_ne_nil Tree.isSubstitution cs)
      simp [hRuns, List.append_assoc]

/-! ### The table at the end -/

/-- What has been worked off has been done step by step, whatever else is on the stack. -/
theorem steps_of_work {source : Source} (tasks rest : List Task) {table final : Table}
    (h : work source tasks table = .ok final) :
    Steps source ⟨tasks ++ rest, table⟩ ⟨rest, final⟩ := by
  fun_induction work source tasks table with
  | case1 table =>
    cases h
    exact .refl
  | case2 t tasks table e he => cases h
  | case3 t tasks table n hn ih => exact .head (.leave hn) (ih h)
  | case4 t tasks table ih =>
    have hRest := ih h
    rw [List.append_assoc, List.cons_append] at hRest
    exact .head (.enter t _ table) hRest

/-- In the end the table has the result of **every node that is reached**. -/
theorem recursion_of_work {source : Source} {root : Tree} (hRows : root.DistinctRows)
    {table : Table} (h : work source [.enter root] ∅ = .ok table) {d : Tree}
    (hd : root.Reaches d) : recursion source d = .ok (table.node? d) := by
  have hStart := Progress.start source root
  have hEnd := hStart.steps hRows (steps_of_work [.enter root] [] h)
  have hIn : ∃ n, table[d.row]? = some n := by
    rcases hd with rfl | hd
    · exact ⟨_, Std.HashMap.getElem?_eq_some_getElem (show d.row ∈ table from hEnd.covers)⟩
    · -- the root is built last, when all that is reached from it is in the table
      rw [work, work_append] at h
      obtain ⟨before, hBefore, hLast⟩ := Outcome.bind_eq_ok.mp h
      have hBuild := Relation.ReflTransGen.head (.enter root [] ∅)
        (steps_of_work _ [.leave root] hBefore)
      obtain ⟨n, -, hn⟩ := (hStart.steps hRows hBuild).ready hRows d hd
      exact ⟨n, getElem?_of_steps (hStart.steps hRows hBuild) hRows
        (steps_of_work [.leave root] [] hLast) (Tree.Reaches.mem_preorder (.inr hd)) hn⟩
  obtain ⟨n, hn⟩ := hIn
  rw [(hEnd.recursion_eq hRows hd.mem_preorder hn).2, Table.node?, hn]
  rfl

/-- What is found while a node is built is what the table has in the end. -/
theorem found_of_work {source : Source} {root : Tree} (hRows : root.DistinctRows)
    {table : Table} (h : work source [.enter root] ∅ = .ok table) {t d : Tree}
    (ht : root.Reaches t) (hd : d ∈ t.within) : found source t d = table.node? d := by
  rw [found_of_mem (hRows.of_mem_preorder ht.mem_preorder) hd,
    recursion_of_work hRows h (.inr (ht.within hd))]
  rfl

theorem exists_work {text : Text} {root : Tree} (hRange : root.InRange (Text.encode text).length) :
    ∃ table, work (.ofText text) [.enter root] ∅ = .ok table := by
  have hSustains : ∀ table : Table, table.All Node.Integral →
      Sustains (fun _ => Node.Integral) ⟨.ofText text, table.node?⟩ root :=
    fun table hTable => sustains_integral hRange hTable
  obtain ⟨o, ho, -⟩ := convert_keeps hSustains
  obtain ⟨table, hTable, -⟩ := Outcome.bind_eq_ok.mp ho
  exact ⟨table, hTable⟩

/-! ### Templates -/

theorem Tree.form_of_template {t : Tree} (h : t.kind = "template_string") :
    Form.ofKind t.kind = .templateString := by
  rw [h]
  decide +kernel

/-- What is **built** for a template: the texts of the fragments, and what is first in each
substitution. -/
theorem Builder.build_template {b : Builder} {t : Tree} {o : Option Node}
    (hKind : t.kind = "template_string") (h : b.build t = .ok o) :
    ∃ n, o = some n ∧ n.kind = .known .templateLiteral ∧
      n.slot .quasis
        = .value (.arr ((t.fragments.map (·.flatMap b.source.textOf)).map .str)) ∧
      n.slot .expressions = .nodes (t.substitutions.filterMap b.firstNamed?) := by
  have hForm := Tree.form_of_template hKind
  have hParts : b.templateParts [] t.namedChildren
      = (t.fragments.map (·.flatMap b.source.textOf), t.substitutions.filterMap b.firstNamed?) := by
    rw [b.templateParts_eq, Tree.fragments, Tree.substitutions]
    exact congrArg (·, _) (congrFun List.modifyHead_id _)
  obtain ⟨g, span, hGiven, rfl⟩ := exists_given_of_build (by simp [hForm]) (by simp [hForm]) h
  rw [given, hForm] at hGiven
  dsimp only at hGiven
  rw [hParts] at hGiven
  cases hGiven
  have hFields : ∀ f ∈ [Field.quasis, .expressions],
      f ∈ (Kind.known .templateLiteral).fields.map (·.1) := by decide
  refine ⟨_, rfl, rfl, ?_, ?_⟩
  · exact Node.slot_build (hFields .quasis (by simp)) rfl
  · exact Node.slot_build (hFields .expressions (by simp)) rfl

/-- Each substitution has one expression **if and only if** there are as many of both. -/
theorem length_filterMap_findSome?_iff {node? : Tree → Option Node} {cs : List Tree} :
    (cs.filterMap fun c => c.namedChildren.findSome? node?).length = cs.length
      ↔ ∀ c ∈ cs, ∃ d ∈ c.namedChildren, (node? d).isSome := by
  rw [List.length_filterMap_eq_countP, List.countP_eq_length]
  simp only [List.findSome?_isSome_iff]

/-- A substitution is not skipped, so all its named children are reached from the template. -/
theorem Tree.mem_within_of_substitution {t c d : Tree} (hKind : t.kind = "template_string")
    (hc : c ∈ t.substitutions) (hd : d ∈ c.namedChildren) : d ∈ t.within := by
  obtain ⟨hNamed, hSubstitution⟩ := List.mem_filter.mp hc
  have hTemplate : Form.ofKind t.kind ≠ .skipped := by simp [form_of_template hKind]
  have hNotSkipped : Form.ofKind c.kind ≠ .skipped := by
    rw [show c.kind = "template_substitution" from by simpa [isSubstitution] using hSubstitution]
    decide +kernel
  rw [← content_eq_namedChildren hTemplate] at hNamed
  rw [← content_eq_namedChildren hNotSkipped] at hd
  exact mem_within.mpr ⟨c, hNamed, .inr (mem_within_of_mem_content hd)⟩

/-- **Templates keep their text in order.**  A document whose octets are in the source is converted,
and the table has in the end what each node that is reached becomes.  Each template in it becomes a
template literal.

* It has one piece more than there are substitutions; pieces and texts of substitutions in turn are
  the texts of all named children in their order, and each piece is the text between two
  substitutions.
* Its expressions are, in their order, what is first among the results of the named children of each
  substitution.  There are as many as there are substitutions if and only if each of these has such
  a child. -/
theorem convert_template (text : Text) (root : Tree) (hRows : root.DistinctRows) :
    (root.InRange (Text.encode text).length →
      ∃ table, work (.ofText text) [.enter root] ∅ = .ok table) ∧
    ∀ table, work (.ofText text) [.enter root] ∅ = .ok table →
      (∀ d, root.Reaches d → convert (.ofText text) d = .ok (table.node? d)) ∧
      ∀ t, root.Reaches t → t.kind = "template_string" →
        ∃ n quasis expressions, table.node? t = some n ∧ n.kind = .known .templateLiteral ∧
          n.slot .quasis = .value (.arr (quasis.map .str)) ∧
          n.slot .expressions = .nodes expressions ∧
          quasis.length = t.substitutions.length + 1 ∧
          interleave quasis (t.substitutions.map (Source.ofText text).textOf)
            = t.namedChildren.flatMap (Source.ofText text).textOf ∧
          quasis = t.fragments.map (·.flatMap (Source.ofText text).textOf) ∧
          expressions
            = t.substitutions.filterMap (fun c => c.namedChildren.findSome? table.node?) ∧
          (expressions.length = t.substitutions.length ↔
            ∀ c ∈ t.substitutions, ∃ d ∈ c.namedChildren, (table.node? d).isSome) := by
  refine ⟨exists_work, fun table hTable => ⟨fun d hd => ?_, fun t ht hKind => ?_⟩⟩
  · rw [convert_eq_recursion _ (hRows.of_mem_preorder hd.mem_preorder),
      recursion_of_work hRows hTable hd]
  · have hBuild : Builder.build ⟨.ofText text, found (.ofText text) t⟩ t = .ok (table.node? t) := by
      rw [← recursion_of_work hRows hTable ht]
      refine (recursion_eq_build (hRows.of_mem_preorder ht.mem_preorder) fun c hc => ?_).symm
      exact ⟨_, recursion_of_work hRows hTable
        (.inr (ht.within (Tree.mem_within_of_mem_content hc)))⟩
    obtain ⟨n, hn, hLiteral, hQuasis, hExpressions⟩ := Builder.build_template hKind hBuild
    have hFirst : t.substitutions.filterMap
          (Builder.firstNamed? ⟨.ofText text, found (.ofText text) t⟩)
        = t.substitutions.filterMap (fun c => c.namedChildren.findSome? table.node?) := by
      refine List.filterMap_congr fun c hc => ?_
      rw [Builder.firstNamed?, ← List.head?_filterMap, ← List.head?_filterMap]
      refine congrArg List.head? (List.filterMap_congr fun d hd => ?_)
      exact found_of_work hRows hTable ht (Tree.mem_within_of_substitution hKind hc hd)
    rw [hFirst] at hExpressions
    refine ⟨n, _, _, hn, hLiteral, hQuasis, hExpressions, ?_, interleave_splitOnP _, rfl, rfl,
      length_filterMap_findSome?_iff⟩
    rw [List.length_map, Tree.fragments, length_splitOnP, Tree.substitutions]

/-- The source of a template with two substitutions, of which the first holds only a comment. -/
def commentedText : Text := "`a$\x7b/**/\x7db$\x7bc\x7d`"

/-- The tree of that template. -/
def commentedTemplate : Tree :=
  let node (row : Nat) (kind : Text) (start stop : Nat) (isNamed : Bool) (ts : List Tree) : Tree :=
    .mk ⟨row, kind, [], start, stop, isNamed, false, false⟩ ts
  node 0 "template_string" 0 15 true
    [node 1 "`" 0 1 false [], node 2 "string_fragment" 1 2 true [],
     node 3 "template_substitution" 2 9 true
      [node 4 "$\x7b" 2 4 false [], node 5 "comment" 4 8 true [], node 6 "\x7d" 8 9 false []],
     node 7 "string_fragment" 9 10 true [],
     node 8 "template_substitution" 10 14 true
      [node 9 "$\x7b" 10 12 false [], node 10 "identifier" 12 13 true [],
       node 11 "\x7d" 13 14 false []],
     node 12 "`" 14 15 false []]

theorem convert_template_commentedTemplate :
    commentedTemplate.DistinctRows ∧
      ∃ table n, work (.ofText commentedText) [.enter commentedTemplate] ∅ = .ok table ∧
        table.node? commentedTemplate = some n ∧
        n.slot .quasis = .value (.arr [.str "a", .str "b", .str ""]) := by
  have hRows : commentedTemplate.DistinctRows := by decide
  obtain ⟨hExists, hAll⟩ := convert_template commentedText commentedTemplate hRows
  obtain ⟨table, hTable⟩ := hExists (by decide +kernel)
  obtain ⟨n, quasis, expressions, hn, -, hSlot, -, -, -, hQuasis, -⟩ :=
    (hAll table hTable).2 commentedTemplate (.refl _) rfl
  have hTexts : commentedTemplate.fragments.map (·.flatMap (Source.ofText commentedText).textOf)
      = [("a" : Text), "b", ""] := by
    decide +kernel
  refine ⟨hRows, table, n, hTable, hn, ?_⟩
  rw [hSlot, hQuasis, hTexts]
  rfl

end ScriptLint.Concrete
