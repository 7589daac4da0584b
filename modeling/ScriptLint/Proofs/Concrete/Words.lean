import ScriptLint.Proofs.Concrete.Integral

/-!
# The words of converted trees

A converted tree has names, texts of literals and operators.  Each of these **words** is the text of
one concrete node, or it is the same in every source.  The text of a concrete node that begins and
ends with code points of the source is the source between these code points; only surrogates come
out differently.  So the words of a tree are what stands in the source, whatever characters it is
written in.

* `Kind.wordField?`: the field with the word of a node.
* `Tree.word?`: where the word of the node that a concrete node becomes is taken from.
* `Spelled`: a node has the word that its concrete node calls for.
* `sustains_spelled`: all that is built is spelled as its concrete nodes call for.
* `convert_words`: the words of a converted tree stand in the source.
-/

namespace ScriptLint

open Ast (Node NodeId Slot Field Construct Kind)

/-! ### Words of nodes -/

namespace Ast

/-- The field with the **word** of a node: the name of an identifier or a tag, the text of a
literal, the operator of an expression. -/
def Kind.wordField? : Kind → Option Field
  | .known .identifier | .known .jsxElement | .known .jsxAttribute => some .name
  | .known .literal => some .raw
  | .known .assignmentExpression | .known .binaryExpression | .known .logicalExpression
  | .known .unaryExpression | .known .updateExpression => some .operator
  | _ => none

theorem Kind.mem_fields_of_wordField? {k : Kind} {f : Field} (h : f ∈ k.wordField?) :
    f ∈ k.fields.map (·.1) := by
  unfold wordField? at h
  split at h <;> cases h <;> simp [Kind.fields, Construct.fields]

theorem lookup_map_of_mem {fs : List (Field × Blank)} {g : Field → Blank → Slot} {f : Field}
    {s : Slot} (hf : f ∈ fs.map (·.1)) (hs : ∀ blank, g f blank = s) :
    (fs.map fun e => (e.1, g e.1 e.2)).lookup f = some s := by
  induction fs with
  | nil => cases hf
  | cons e fs ih =>
    rw [List.map_cons, List.mem_cons] at hf
    rw [List.map_cons, List.lookup_cons]
    by_cases he : f = e.1
    · simp [← he, hs]
    · rw [beq_false_of_ne he]
      exact ih (hf.resolve_left he)

/-- A field of the kind holds **what has been given** for it. -/
theorem Node.slot_build {id : NodeId} {kind : Kind} {span : Span} {given : List (Field × Slot)}
    {f : Field} {s : Slot} (hf : f ∈ kind.fields.map (·.1)) (hs : given.lookup f = some s) :
    (Node.build id kind span given).slot f = s := by
  have hLookup := lookup_map_of_mem (g := fun f blank => (given.lookup f).getD (.ofBlank blank)) hf
    fun blank => by rw [hs, Option.getD_some]
  rw [slot, slot?]
  exact congrArg (Option.getD · _) hLookup

end Ast

namespace Concrete

open Outcome (Yields)
open Source (Aligned)

/-- Where a word comes from. -/
inductive Word where
  /-- The word is the same in every source. -/
  | fixed (t : Text)
  /-- The word is the text of a concrete node, or nothing if there is none. -/
  | taken (v : Option Tree)

def Word.text (source : Source) : Word → Text
  | fixed t => t
  | taken v => source.textOf? v

/-- Where the word of the node that a concrete node becomes is **taken from**. -/
def Tree.word? (t : Tree) : Option Word :=
  match Form.ofKind t.kind with
  | .identifier | .shorthandProperty | .string | .number | .regex => some (.taken t)
  | .undefined => some (.fixed "undefined")
  | .trueWord => some (.fixed "true")
  | .falseWord => some (.fixed "false")
  | .nullWord => some (.fixed "null")
  | .assignmentExpression => some (.fixed "=")
  | .augmentedAssignment | .binaryExpression | .unaryExpression | .updateExpression =>
    some (.taken (t.childByField? "operator"))
  | .jsxElement =>
    some (.taken ((t.childByField? "open_tag").bind fun tag => tag.childByField? "name"))
  | .jsxSelfClosingElement => some (.taken (t.childByField? "name"))
  | .jsxAttribute => some (.taken t.namedChildren.head?)
  | _ => none

/-- What a concrete node calls for has **its word**.  An identifier is taken from the concrete node
itself, unless this is `undefined`. -/
theorem Builder.exists_word_of_given {b : Builder} {t : Tree} {g : Kind × List (Field × Slot)}
    (h : b.given t = .ok g) {f : Field} (hf : f ∈ g.1.wordField?) :
    ∃ w ∈ t.word?, g.2.lookup f = some (.value (.str (w.text b.source))) ∧
      (g.1 = .known .identifier → Form.ofKind t.kind ≠ .undefined → w = .taken t) := by
  rw [given] at h
  rw [Tree.word?]
  cases hForm : Form.ofKind t.kind with
  | identifier =>
    rw [hForm] at h
    cases h
    cases hf
    exact ⟨_, rfl, rfl, fun _ _ => rfl⟩
  | undefined =>
    rw [hForm] at h
    cases h
    cases hf
    exact ⟨_, rfl, rfl, fun _ hNot => absurd rfl hNot⟩
  | string | number | trueWord | falseWord | nullWord | regex | assignmentExpression
  | augmentedAssignment | unaryExpression | updateExpression | jsxElement | jsxSelfClosingElement
  | jsxAttribute =>
    rw [hForm] at h
    cases h
    cases hf
    exact ⟨_, rfl, rfl, fun hKind => by cases hKind⟩
  | binaryExpression =>
    -- both kinds of expressions have an operator
    rw [hForm] at h
    cases h
    have hKinds : ∀ logical : Bool,
        (Kind.known (if logical = true then .logicalExpression else .binaryExpression)).wordField?
            = some .operator ∧
          (if logical = true then Construct.logicalExpression else .binaryExpression)
            ≠ .identifier := by
      decide
    obtain ⟨hWord, hNot⟩ := hKinds _
    obtain rfl := Option.some.inj (hWord.symm.trans hf)
    exact ⟨_, rfl, rfl, fun hKind => absurd (Kind.known.inj hKind) hNot⟩
  | forInStatement =>
    rw [hForm] at h
    obtain ⟨left, -, h⟩ := Outcome.bind_eq_ok.mp h
    cases h
    dsimp only at hf
    split at hf <;> cases hf
  | functionDeclaration | functionExpression =>
    rw [hForm] at h
    obtain ⟨parts, -, h⟩ := Outcome.bind_eq_ok.mp h
    cases h
    cases hf
  | arrowFunction =>
    rw [hForm] at h
    dsimp only at h
    split at h
    all_goals
      obtain ⟨params, -, h⟩ := Outcome.bind_eq_ok.mp h
      cases h
      cases hf
  | methodDefinition | shorthandProperty =>
    rw [hForm] at h
    obtain ⟨first, -, h⟩ := Outcome.bind_eq_ok.mp h
    obtain ⟨second, -, h⟩ := Outcome.bind_eq_ok.mp h
    cases h
    cases hf
  | _ =>
    rw [hForm] at h
    cases h
    cases hf

/-! ### Spelling -/

/-- The node is made at a concrete node, and its word is the one that the concrete node **calls
for**.  The word of an identifier is the concrete node itself, unless this is `undefined`. -/
structure Spelled (source : Source) (t : Tree) (n : Node) (f : Field) : Prop where
  path : n.id.path = [t.row]
  span : source.spanOf t = .ok n.span
  word : ∃ w ∈ t.word?, n.slot f = .value (.str (w.text source)) ∧
    (n.kind = .known .identifier → Form.ofKind t.kind ≠ .undefined → w = .taken t)

/-- All nodes of the tree with a word are spelled as a concrete node calls for. -/
def SpelledBy (source : Source) (root : Tree) (n : Node) : Prop :=
  ∀ m ∈ n.preorder, ∀ f ∈ m.kind.wordField?, ∃ t ∈ root.preorder, Spelled source t m f

theorem besides_no_word : ∀ c ∈ besides, (Kind.known c).wordField? = none := by decide

/-- A node that is made at a concrete node is **spelled** as this calls for. -/
theorem Made.spelled {b : Builder} {t : Tree} {id : NodeId} {kind : Kind} {span : Ast.Span}
    {fields : List (Field × Slot)} (h : Made b t id kind fields)
    (hSpan : b.source.spanOf t = .ok span) {f : Field} (hf : f ∈ kind.wordField?) :
    Spelled b.source t (.build id kind span fields) f := by
  have hField := Kind.mem_fields_of_wordField? hf
  cases h with
  | main h =>
    obtain ⟨w, hw, hLookup, hIdentifier⟩ := Builder.exists_word_of_given h hf
    exact ⟨rfl, hSpan, w, hw, Node.slot_build hField hLookup, hIdentifier⟩
  | identifier part h =>
    cases hf
    refine ⟨rfl, hSpan, .taken t, ?_, Node.slot_build hField rfl, fun _ _ => rfl⟩
    rw [Tree.word?, h]
    rfl
  | other h =>
    rw [besides_no_word _ h] at hf
    cases hf

/-- All that is built is spelled as its concrete nodes call for. -/
theorem sustains_spelled {text : Text} {root : Tree} {table : Table}
    (hRange : root.InRange (Text.encode text).length)
    (hTable : table.All (SpelledBy (.ofText text) root)) :
    Sustains (fun _ => SpelledBy (.ofText text) root) ⟨.ofText text, table.node?⟩ root where
  known := by
    intro u _
    exact hTable.node? u
  up := fun _ _ _ _ _ hn => hn
  child := fun _ _ n hn c hc => (Node.forall_mem_preorder_iff.mp hn).2 c hc
  make := by
    intro u hu id kind fields hMade hFields
    obtain ⟨hStart, hStop⟩ := hRange u hu
    have hSpan := Source.spanOf_ofText hStart hStop
    rw [hSpan]
    refine .ok (Node.forall_mem_preorder_iff.mpr ⟨fun f hf => ?_, fun c hc => ?_⟩)
    · exact ⟨u, hu, hMade.spelled hSpan hf⟩
    · exact hFields c (Node.mem_givenNodes_of_mem_children hc)

/-- **Words stand in the source.**

* The text of a concrete node that goes from the code point `i` to the code point `j` is the text
  between these, with three replacement characters for each surrogate; and `i` and `j` are the code
  points of its two ends.
* If there are no surrogates, every concrete tree whose octets are in the source is converted.  A
  node of the result with a word is made at a concrete node and has the word that this calls for.  A
  word that is taken from a concrete node is the text between the code points of this node, as it
  stands.
* So an identifier covers its own name, unless it is made from the word `undefined`. -/
theorem convert_words (text : Text) :
    (∀ v i j, Aligned text v i j →
      (Source.ofText text).textOf v = (Text.slice text i j).flatMap CodePoint.shown ∧
        (Source.ofText text).offset v.start = .ok i ∧ (Source.ofText text).offset v.stop = .ok j) ∧
    ((∀ c ∈ text, c.isSurrogate = false) →
      ∀ root : Tree, root.InRange (Text.encode text).length →
        ∃ result, convert (.ofText text) root = .ok result ∧
          ∀ n ∈ result, ∀ m ∈ n.preorder, ∀ f ∈ m.kind.wordField?,
            ∃ t ∈ root.preorder, m.id.path = [t.row] ∧
              ∃ w ∈ t.word?, m.slot f = .value (.str (w.text (.ofText text))) ∧
                (∀ v i j, w = .taken (some v) → Aligned text v i j →
                  m.slot f = .value (.str (Text.slice text i j))) ∧
                (m.kind = .known .identifier → Form.ofKind t.kind ≠ .undefined →
                  ∀ i j, Aligned text t i j → m.span.start = .int i ∧ m.span.stop = .int j ∧
                    m.slot .name = .value (.str (Text.slice text i j)))) := by
  constructor
  · intro v i j h
    have hStart := Source.offset_ofText (h.start ▸ Text.boundary_le_length text i)
    have hStop := Source.offset_ofText (h.stop ▸ Text.boundary_le_length text j)
    rw [h.position_start] at hStart
    rw [h.position_stop] at hStop
    exact ⟨h.textOf, hStart, hStop⟩
  · intro hPlain root hRange
    have hSustains : ∀ table : Table, table.All (SpelledBy (.ofText text) root) →
        Sustains (fun _ => SpelledBy (.ofText text) root) ⟨.ofText text, table.node?⟩ root :=
      fun table hTable => sustains_spelled hRange hTable
    obtain ⟨result, hResult, hSpelled⟩ := convert_keeps hSustains
    refine ⟨result, hResult, fun n hn m hm f hf => ?_⟩
    obtain ⟨t, ht, hPath, hSpan, w, hw, hWord, hIdentifier⟩ := hSpelled n hn m hm f hf
    have hTaken : ∀ v i j, w = .taken (some v) → Aligned text v i j →
        m.slot f = .value (.str (Text.slice text i j)) := by
      intro v i j hv hAligned
      rw [hWord, hv]
      exact congrArg (fun u => Slot.value (.str u)) (hAligned.textOf_of_no_surrogate hPlain)
    refine ⟨t, ht, hPath, w, hw, hWord, hTaken, fun hKind hForm i j hAligned => ?_⟩
    obtain ⟨hStart, hStop⟩ := hRange t ht
    rw [Source.spanOf_ofText hStart hStop, Except.ok.injEq, hAligned.position_start,
      hAligned.position_stop] at hSpan
    rw [hKind] at hf
    cases hf
    rw [← hSpan]
    exact ⟨rfl, rfl, hTaken t i j (hIdentifier hKind hForm) hAligned⟩

/-- The name `é` in `é+='𝄞'`. -/
def accentedName : Tree := .mk ⟨1, "identifier", "left", 0, 2, true, false, false⟩ []

/-- The assignment `é+='𝄞'`, in which the name takes two octets and the text takes six. -/
def accentedSum : Tree :=
  .mk ⟨0, "augmented_assignment_expression", "", 0, 10, true, false, false⟩
    [accentedName, .mk ⟨2, "+=", "operator", 2, 4, false, false, false⟩ [],
     .mk ⟨3, "string", "right", 4, 10, true, false, false⟩ []]

theorem convert_words_accentedSum :
    (Source.ofText "é+='𝄞'").textOf accentedName = "é" ∧
      (Source.ofText "é+='𝄞'").offset accentedName.stop = .ok 1 ∧
      ∃ result, convert (.ofText "é+='𝄞'") accentedSum = .ok result := by
  have hAligned : Aligned "é+='𝄞'" accentedName 0 1 := by
    constructor <;> decide +kernel
  obtain ⟨hTexts, hWords⟩ := convert_words "é+='𝄞'"
  obtain ⟨hText, -, hStop⟩ := hTexts accentedName 0 1 hAligned
  obtain ⟨result, hResult, -⟩ := hWords (by decide +kernel) accentedSum (by decide +kernel)
  refine ⟨hText.trans (by decide +kernel), hStop, result, hResult⟩

end Concrete
end ScriptLint
