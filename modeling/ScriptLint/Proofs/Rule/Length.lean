import ScriptLint.Proofs.Ast.Lineage
import ScriptLint.Proofs.Concrete.Nested
import ScriptLint.Proofs.Concrete.Words
import ScriptLint.Proofs.Text.Places
import ScriptLint.Rule.Hygiene

/-!
# The length of functions

A function has as many lines as the marks at its two ends say.  Each mark is found on its own, from
an octet over a code point to the beginning of a line; what is between them can still be said by the
text of the function alone: its line feeds, and one line more.  A method has no function of its own
in the concrete tree.  The one that is made for it takes its span from the whole method.

* `Place.line_eq_add_count`: lines go up with the line feeds of a text.
* `lineCount_of_spans`, `lengthTest_of_spans`: the lines of a node that goes from one code point to
  another, and whether they are too many.
* `Builder.given_method`, `Builder.form_of_given`: methods are made from method definitions, and
  their functions have the span of the whole definition.
* `sustains_located`: all that is built has the span of a concrete node.
* `lineCount_eq_feeds`: the lengths of the functions in a converted tree, and which are too long.
-/

namespace ScriptLint

open Ast (Node NodeId Slot Field Construct Kind)
open Concrete (Tree Source Spans convert)

/-! ### Lines of a text -/

/-- From one code point to a later one, the line goes up by the **line feeds between** them. -/
theorem Place.line_eq_add_count (t : Text) {i j : Nat} (hij : i ≤ j) (hj : j ≤ t.length) :
    (ofOffset (Text.lineStarts t) j).line
      = (ofOffset (Text.lineStarts t) i).line
        + List.count (CodePoint.ofChar '\n') (Text.slice t i j) := by
  have hCut : t.take i ++ (t.take j).drop i = t.take j := by
    conv_rhs => rw [← List.take_append_drop i (t.take j), List.take_take, Nat.min_eq_left hij]
  have hLines : lineAt t j
      = lineAt t i + List.count (CodePoint.ofChar '\n') (Text.slice t i j) := by
    rw [lineAt_eq_length, lineAt_eq_length, Text.length_feedsBefore, Text.length_feedsBefore,
      Source.slice_eq_drop hij hj, ← List.count_append, hCut]
  rw [ofOffset_eq, ofOffset_eq, hLines]
  simp only
  omega

namespace Hygiene

/-! ### Lines of a node -/

variable {text : Text} {n : Node} {i j : Nat}

/-- A node has one line more than there are **line feeds** in its text. -/
theorem lineCount_of_spans (h : Spans text n.span i j) :
    lineCount n = .ok (.int (1 + List.count (CodePoint.ofChar '\n') (Text.slice text i j))) := by
  have hLine := Place.line_eq_add_count text h.ordered h.bounded
  have hCount : lineCount n
      = .ok (.int ((Place.ofOffset (Text.lineStarts text) j).line
          - (Place.ofOffset (Text.lineStarts text) i).line + 1)) := by
    rw [lineCount, h.first, h.last]
    rfl
  rw [hCount, hLine]
  congr 2
  omega

/-- A function is **too long** if its text has at least as many line feeds as the limit says. -/
theorem lengthTest_of_spans (h : Spans text n.span i j) (hFunction : n.isFunction = true)
    (limit : Int) :
    lengthTest (.int limit) n
      = .ok (decide (limit ≤ List.count (CodePoint.ofChar '\n') (Text.slice text i j))) := by
  have hGreater : lengthTest (.int limit) n
      = .ok ((Number.int (1 + List.count (CodePoint.ofChar '\n') (Text.slice text i j))).greater
          (.int limit)) := by
    rw [lengthTest, if_pos hFunction, lineCount_of_spans h]
    rfl
  rw [hGreater, Number.greater_int, Except.ok.injEq, decide_eq_decide]
  omega

end Hygiene

/-! ### Where nodes come from -/

namespace Concrete

theorem Form.kind_of_methodDefinition {kind : Text} (h : ofKind kind = .methodDefinition) :
    kind = "method_definition" := by
  have hTable : ∀ e ∈ table, e.2 = methodDefinition → e.1 = ("method_definition" : Text) := by
    decide +kernel
  rw [ofKind] at h
  cases hLookup : table.lookup kind with
  | none =>
    rw [hLookup] at h
    cases h
  | some form =>
    rw [hLookup, Option.getD_some] at h
    obtain ⟨before, after, hEq, -⟩ := List.lookup_eq_some_iff.mp hLookup
    exact hTable (kind, form) (by simp [hEq]) h

namespace Builder

variable {b : Builder} {t : Tree} {g : Kind × List (Field × Slot)}

/-- A method definition calls for a method with a function that has the span **of the whole**. -/
theorem given_method (hForm : Form.ofKind t.kind = .methodDefinition) (h : b.given t = .ok g) :
    g.1 = .known .methodDefinition ∧ ∃ f, g.2.lookup .value = some (.node f) ∧
      f.kind = .known .functionExpression ∧ b.source.spanOf t = .ok f.span := by
  rw [given, hForm] at h
  obtain ⟨parts, -, h⟩ := Outcome.bind_eq_ok.mp h
  obtain ⟨f, hf, h⟩ := Outcome.bind_eq_ok.mp h
  obtain ⟨span, hSpan, hf⟩ := Outcome.bind_eq_ok.mp hf
  cases h
  cases hf
  exact ⟨rfl, _, rfl, rfl, hSpan⟩

/-- **Nothing else** calls for a method. -/
theorem form_of_given (h : b.given t = .ok g) (hKind : g.1 = .known .methodDefinition) :
    Form.ofKind t.kind = .methodDefinition := by
  rw [given] at h
  cases hForm : Form.ofKind t.kind with
  | methodDefinition => rfl
  | forInStatement =>
    rw [hForm] at h
    obtain ⟨left, -, h⟩ := Outcome.bind_eq_ok.mp h
    cases h
    dsimp only at hKind
    split at hKind <;> cases hKind
  | functionDeclaration | functionExpression =>
    rw [hForm] at h
    obtain ⟨parts, -, h⟩ := Outcome.bind_eq_ok.mp h
    cases h
    cases hKind
  | arrowFunction =>
    rw [hForm] at h
    dsimp only at h
    split at h
    all_goals
      obtain ⟨params, -, h⟩ := Outcome.bind_eq_ok.mp h
      cases h
      cases hKind
  | shorthandProperty =>
    rw [hForm] at h
    obtain ⟨key, -, h⟩ := Outcome.bind_eq_ok.mp h
    obtain ⟨value, -, h⟩ := Outcome.bind_eq_ok.mp h
    cases h
    cases hKind
  | binaryExpression =>
    rw [hForm] at h
    cases h
    dsimp only at hKind
    split at hKind <;> cases hKind
  | _ =>
    rw [hForm] at h
    cases h
    cases hKind

end Builder

/-- A method definition **becomes** a method. -/
theorem method_of_convert {source : Source} {root : Tree} {result : Option Node}
    (hForm : Form.ofKind root.kind = .methodDefinition) (h : convert source root = .ok result) :
    ∃ n, result = some n ∧ n.kind = .known .methodDefinition := by
  rw [convert_eq_build] at h
  obtain ⟨table, -, h⟩ := Outcome.bind_eq_ok.mp h
  rw [Builder.build, hForm] at h
  obtain ⟨g, hg, h⟩ := Outcome.bind_eq_ok.mp h
  obtain ⟨span, -, h⟩ := Outcome.bind_eq_ok.mp h
  cases h
  exact ⟨_, rfl, (Builder.given_method hForm hg).1⟩

/-- The node is made at a method definition, and its value is a function that covers **all of
it**. -/
structure MethodAt (source : Source) (t : Tree) (m : Node) : Prop where
  kind : t.kind = "method_definition"
  path : m.id.path = [t.row]
  function : ∃ f, m.slot .value = .node f ∧ f.kind = .known .functionExpression ∧
    source.spanOf t = .ok f.span

/-- The node has the span of a concrete node, and a method is made at its definition. -/
structure Located (source : Source) (root : Tree) (m : Node) : Prop where
  span : ∃ t ∈ root.preorder, source.spanOf t = .ok m.span
  method : m.kind = .known .methodDefinition → ∃ t ∈ root.preorder, MethodAt source t m

/-- All nodes of the tree are located. -/
def LocatedBy (source : Source) (root : Tree) (n : Node) : Prop :=
  ∀ m ∈ n.preorder, Located source root m

/-- A method that is made at a concrete node is made at **its definition**. -/
theorem Made.methodAt {b : Builder} {t : Tree} {id : NodeId} {kind : Kind}
    {fields : List (Field × Slot)} (h : Made b t id kind fields)
    (hKind : kind = .known .methodDefinition) (span : Ast.Span) :
    MethodAt b.source t (.build id kind span fields) := by
  cases h with
  | main h =>
    have hForm := Builder.form_of_given h hKind
    obtain ⟨-, f, hLookup, hFunction, hSpan⟩ := Builder.given_method hForm h
    have hField : Field.value ∈ (Kind.known .methodDefinition).fields.map (·.1) := by decide
    refine ⟨Form.kind_of_methodDefinition hForm, rfl, f, ?_, hFunction, hSpan⟩
    exact Node.slot_build (hKind ▸ hField) hLookup
  | identifier part h => cases hKind
  | other h =>
    cases hKind
    exact absurd h (by decide)

/-- All that is built has the span of a concrete node. -/
theorem sustains_located {text : Text} {root : Tree} {table : Table}
    (hRange : root.InRange (Text.encode text).length)
    (hTable : table.All (LocatedBy (.ofText text) root)) :
    Sustains (fun _ => LocatedBy (.ofText text) root) ⟨.ofText text, table.node?⟩ root where
  known := by
    intro u _
    exact hTable.node? u
  up := fun _ _ _ _ _ hn => hn
  child := fun _ _ n hn c hc => (Node.forall_mem_preorder_iff.mp hn).2 c hc
  make := by
    intro u hu id kind fields hMade hFields
    obtain ⟨hStart, hStop⟩ := hRange u hu
    have hSpan := Source.spanOf_ofText hStart hStop
    rw [hSpan]
    refine .ok (Node.forall_mem_preorder_iff.mpr ⟨⟨⟨u, hu, hSpan⟩, ?_⟩, fun c hc => ?_⟩)
    · exact fun hKind => ⟨u, hu, hMade.methodAt hKind _⟩
    · exact hFields c (Node.mem_givenNodes_of_mem_children hc)

/-- What has the span of a concrete node goes from the **code point** of the first octet to the one
of the last. -/
theorem spans_of_spanOf {text : Text} {t : Tree} {span : Ast.Span} (hOrder : t.start ≤ t.stop)
    (hStop : t.stop ≤ (Text.encode text).length)
    (h : (Source.ofText text).spanOf t = .ok span) :
    Spans text span (Source.position text t.start) (Source.position text t.stop) := by
  rw [Source.spanOf_ofText (Nat.le_trans hOrder hStop) hStop] at h
  cases h
  exact spans_spanBetween (Source.position_mono hOrder hStop) (Source.position_le_length hStop)

end Concrete

namespace Hygiene

/-- **Functions are as long as their texts.**  Let all octets of a concrete tree be in the source,
and no node end before it begins.

* The tree is converted.  Every function of the result covers a part of the source, and its lines
  are one more than the line feeds in this part; so there is at least one.
* A function is too long for a limit if and only if it has at least as many line feeds.  The limit
  of the rule is thirty.
* The function of a method is made from the whole method definition, and its lines are those of the
  source from the first to the last octet of the definition. -/
theorem lineCount_eq_feeds (text : Text) (root : Tree)
    (hRange : root.InRange (Text.encode text).length)
    (hOrder : ∀ t ∈ root.preorder, t.start ≤ t.stop) :
    ∃ result, convert (.ofText text) root = .ok result ∧ ∀ n ∈ result,
      (∀ f ∈ n.preorder, f.isFunction = true →
        ∃ i j feeds : Nat, f.span.start = .int i ∧ f.span.stop = .int j ∧
          feeds = List.count (CodePoint.ofChar '\n') (Text.slice text i j) ∧
          (∃ lines : Int, lineCount f = .ok (.int lines) ∧ lines = 1 + feeds ∧ 1 ≤ lines) ∧
          (∀ (limit : Int) (ctx : Context),
            (longFunctionMatcher (.int limit)).test f ctx = .ok (decide (limit ≤ feeds))) ∧
          ∀ ctx : Context, longFunctions.matcher.test f ctx = .ok (decide (30 ≤ feeds))) ∧
      ∀ m ∈ n.preorder, m.kind = .known .methodDefinition →
        ∃ t ∈ root.preorder, t.kind = "method_definition" ∧ m.id.path = [t.row] ∧
          ∃ f ∈ n.preorder, m.slot .value = .node f ∧ f.kind = .known .functionExpression ∧
            ∃ i j : Nat, (Source.ofText text).offset t.start = .ok i ∧
              (Source.ofText text).offset t.stop = .ok j ∧
              f.span.start = .int i ∧ f.span.stop = .int j ∧
              lineCount f
                = .ok (.int (1 + List.count (CodePoint.ofChar '\n') (Text.slice text i j))) := by
  have hSustains : ∀ table : Concrete.Table,
      table.All (Concrete.LocatedBy (.ofText text) root) →
        Concrete.Sustains (fun _ => Concrete.LocatedBy (.ofText text) root)
          ⟨.ofText text, table.node?⟩ root :=
    fun table hTable => Concrete.sustains_located hRange hTable
  obtain ⟨result, hResult, hLocated⟩ := Concrete.convert_keeps hSustains
  refine ⟨result, hResult, fun n hn => ⟨fun f hf hFunction => ?_, fun m hm hKind => ?_⟩⟩
  · obtain ⟨t, ht, hSpan⟩ := (hLocated n hn f hf).span
    have hSpans := Concrete.spans_of_spanOf (hOrder t ht) (hRange t ht).2 hSpan
    have hTest := lengthTest_of_spans hSpans hFunction
    exact ⟨_, _, _, hSpans.start, hSpans.stop, rfl,
      ⟨_, lineCount_of_spans hSpans, rfl, by omega⟩, fun limit _ => hTest limit,
      fun _ => (hTest 30).trans (by norm_cast)⟩
  · obtain ⟨t, ht, hText, hPath, f, hSlot, hFunction, hSpan⟩ := (hLocated n hn m hm).method hKind
    obtain ⟨hStart, hStop⟩ := hRange t ht
    have hSpans := Concrete.spans_of_spanOf (hOrder t ht) hStop hSpan
    exact ⟨t, ht, hText, hPath, f, Node.slot_node hm hSlot, hSlot, hFunction, _, _,
      Source.offset_ofText hStart, Source.offset_ofText hStop, hSpans.start, hSpans.stop,
      lineCount_of_spans hSpans⟩

/-- The text `ém(){⏎}`, in which `é` takes two octets. -/
def methodText : Text := "ém()\x7b\n\x7d"

/-- The method in it, after the `é`. -/
def shortMethod : Tree := .mk ⟨0, "method_definition", "", 2, 8, true, false, false⟩ []

theorem lineCount_eq_feeds_shortMethod :
    ∃ n f, convert (.ofText methodText) shortMethod = .ok (some n) ∧ n.slot .value = .node f ∧
      lineCount f = .ok (.int 2) := by
  obtain ⟨result, hResult, hFunctions⟩ := lineCount_eq_feeds methodText shortMethod
    (by decide +kernel) (by decide +kernel)
  obtain ⟨n, rfl, hKind⟩ := Concrete.method_of_convert (by decide +kernel) hResult
  obtain ⟨-, hMethods⟩ := hFunctions n rfl
  obtain ⟨t, ht, -, -, f, -, hSlot, -, i, j, hi, hj, -, -, hLines⟩ :=
    hMethods n n.mem_preorder_self hKind
  obtain rfl := List.mem_singleton.mp ht
  have hStart : (Source.ofText methodText).offset shortMethod.start = .ok 1 := by decide +kernel
  have hStop : (Source.ofText methodText).offset shortMethod.stop = .ok 7 := by decide +kernel
  obtain rfl := Except.ok.inj (hi.symm.trans hStart)
  obtain rfl := Except.ok.inj (hj.symm.trans hStop)
  exact ⟨n, f, hResult, hSlot, hLines.trans (by decide +kernel)⟩

end Hygiene

end ScriptLint
