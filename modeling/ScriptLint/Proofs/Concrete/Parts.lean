import ScriptLint.Proofs.Ast.Grove
import ScriptLint.Proofs.Concrete.Build

/-!
# What building keeps

A node is built from nodes that have been built before, and from nodes made up on the way.  A
property that holds of a node made from nodes with this property holds of all that is built.

* `Fills`, `FillAll`: all nodes in a slot, or in some fields, have the property.
* `Made`: the identity, kind and fields with which a node is made at a concrete node.
* `Sustains`: a builder has nodes with the property below a concrete node, and **sustains** it: the
  property goes from a concrete node to those around it, from a node to its children, and from its
  fields to a node that is made.
* `Sustains.named`, `Sustains.params`, ...: each part of the node has the property.
* `Sustains.build`: building succeeds, and the result has the property.
* `work_keeps`, `convert_keeps`: so does the whole conversion, if the property is the same
  everywhere.
-/

namespace ScriptLint

namespace Concrete

open Ast (Node Slot Field Kind Construct)
open Outcome (Yields)

/-- All nodes in the slot have the property at a concrete node. -/
def Fills (Q : Tree → Node → Prop) (t : Tree) (s : Slot) : Prop := ∀ n ∈ s.children, Q t n

/-- All nodes in the fields have the property at a concrete node. -/
def FillAll (Q : Tree → Node → Prop) (t : Tree) (fields : List (Field × Slot)) : Prop :=
  ∀ n ∈ Ast.givenNodes fields, Q t n

section Fills

variable {Q : Tree → Node → Prop} {t : Tree}

@[simp]
theorem fills_value (v : Json) : Fills Q t (.value v) := by
  intro n hn
  cases hn

@[simp]
theorem fills_nodes (ns : List Node) : Fills Q t (.nodes ns) ↔ ∀ n ∈ ns, Q t n := Iff.rfl

@[simp]
theorem fills_node (n : Node) : Fills Q t (.node n) ↔ Q t n := by
  simp [Fills]

@[simp]
theorem fills_ofOption (o : Option Node) : Fills Q t (.ofOption o) ↔ ∀ n ∈ o, Q t n := by
  simp [Fills, Slot.children_ofOption]

@[simp]
theorem fillAll_nil : FillAll Q t [] := by
  intro n hn
  cases hn

@[simp]
theorem fillAll_cons (f : Field × Slot) (fields : List (Field × Slot)) :
    FillAll Q t (f :: fields) ↔ Fills Q t f.2 ∧ FillAll Q t fields := by
  obtain ⟨f, s⟩ := f
  rw [FillAll, Ast.givenNodes_cons, List.forall_mem_append]
  rfl

end Fills

/-! ### Parts of a node -/

/-- The constructs that are made besides the main node of a concrete node, identifiers apart. -/
def besides : List Construct :=
  [.assignmentPattern, .variableDeclarator, .variableDeclaration, .functionExpression]

/-- What is **made** at a concrete node: what the concrete node calls for, an identifier of the same
text, or one of the other constructs. -/
inductive Made (b : Builder) (t : Tree) : Ast.NodeId → Kind → List (Field × Slot) → Prop
  | main {given : Kind × List (Field × Slot)} (h : b.given t = .ok given) :
      Made b t ⟨[t.row], 0⟩ given.1 given.2
  | identifier (part : Nat) (h : Form.ofKind t.kind = .shorthandProperty) :
      Made b t ⟨[t.row], part⟩ (.known .identifier)
        [(.name, Builder.textSlot (b.source.textOf t))]
  | other {id : Ast.NodeId} {construct : Construct} {fields : List (Field × Slot)}
      (h : construct ∈ besides) : Made b t id (.known construct) fields

/-- What the builder has for the nodes below `t` has the property, and the property is kept by all
that building does. -/
structure Sustains (Q : Tree → Node → Prop) (b : Builder) (t : Tree) : Prop where
  known : ∀ u ∈ t.descendants, ∀ n ∈ b.node? u, Q u n
  up : ∀ u ∈ t.preorder, ∀ v ∈ u.descendants, ∀ n, Q v n → Q u n
  child : ∀ u ∈ t.preorder, ∀ n, Q u n → ∀ c ∈ n.children, Q u c
  make : ∀ u ∈ t.preorder, ∀ {id : Ast.NodeId} {kind : Kind} {fields : List (Field × Slot)},
    Made b u id kind fields → FillAll Q u fields →
      Yields (fun span => Q u (.build id kind span fields)) (b.source.spanOf u)

namespace Sustains

variable {Q : Tree → Node → Prop} {b : Builder} {t : Tree}

theorem descendant (h : Sustains Q b t) {u : Tree} (hu : u ∈ t.descendants) :
    Sustains Q b u := by
  have hSub : ∀ v ∈ u.preorder, v ∈ t.preorder := fun v hv =>
    Tree.mem_preorder_of_mem_descendants (Tree.preorder_subset hu hv)
  refine ⟨fun v hv => ?_, fun v hv => h.up v (hSub v hv), fun v hv => h.child v (hSub v hv),
    fun v hv => h.make v (hSub v hv)⟩
  exact h.known v (Tree.preorder_subset hu (Tree.mem_preorder_of_mem_descendants hv))

theorem ofField (h : Sustains Q b t) {u : Tree} {name : Text}
    (hu : t.childByField? name = some u) : Sustains Q b u :=
  h.descendant (Tree.mem_descendants_of_childByField? hu)

theorem lift (h : Sustains Q b t) {u : Tree} (hu : u ∈ t.descendants) {n : Node}
    (hn : Q u n) : Q t n :=
  h.up t t.mem_preorder_self u hu n hn

theorem node? (h : Sustains Q b t) {u : Tree} (hu : u ∈ t.descendants) :
    ∀ n ∈ b.node? u, Q t n :=
  fun n hn => h.lift hu (h.known u hu n hn)

theorem filterMap (h : Sustains Q b t) {us : List Tree} (hus : us ⊆ t.descendants) :
    ∀ n ∈ us.filterMap b.node?, Q t n := by
  intro n hn
  obtain ⟨u, hu, hn⟩ := List.mem_filterMap.mp hn
  exact h.node? (hus hu) n hn

theorem field? (h : Sustains Q b t) (name : Text) :
    ∀ n ∈ b.field? t name, Q t n := by
  intro n hn
  obtain ⟨u, hu, hn⟩ := Option.bind_eq_some_iff.mp hn
  exact h.node? (Tree.mem_descendants_of_childByField? hu) n hn

theorem fieldSlot (h : Sustains Q b t) (name : Text) : Fills Q t (b.fieldSlot t name) :=
  (fills_ofOption _).mpr (h.field? name)

theorem named (h : Sustains Q b t) : ∀ n ∈ b.named t, Q t n :=
  h.filterMap fun _ hu => Tree.mem_descendants_of_mem_namedChildren hu

theorem named? (h : Sustains Q b t) (name : Text) :
    ∀ n ∈ b.named? (t.childByField? name), Q t n := by
  intro n hn
  cases hu : t.childByField? name with
  | none =>
    rw [hu] at hn
    cases hn
  | some u =>
    rw [hu] at hn
    exact h.lift (Tree.mem_descendants_of_childByField? hu) ((h.ofField hu).named n hn)

theorem firstNamed? (h : Sustains Q b t) : ∀ n ∈ b.firstNamed? t, Q t n := by
  intro n hn
  obtain ⟨u, hu, hn⟩ := List.exists_of_findSome?_eq_some hn
  exact h.node? (Tree.mem_descendants_of_mem_namedChildren hu) n hn

theorem clause (h : Sustains Q b t) (name : Text) : Fills Q t (b.clause t name) := by
  rw [Builder.clause]
  split
  · exact fills_value _
  · rename_i u hu
    have huIn := Tree.mem_descendants_of_childByField? hu
    split
    · exact fills_value _
    · split
      · rw [fills_ofOption]
        exact fun n hn => h.lift huIn ((h.ofField hu).firstNamed? n hn)
      · rw [fills_ofOption]
        exact h.node? huIn

/-- A node made up at a concrete node has the property if its fields have. -/
theorem extra (h : Sustains Q b t) (u : Tree) (part : Nat) (construct : Construct)
    {fields : List (Field × Slot)} (hMade : Made b t ⟨[u.row], part⟩ (.known construct) fields)
    (hFields : FillAll Q t fields) : Yields (Q t) (b.extra u part construct t fields) :=
  (h.make t t.mem_preorder_self hMade hFields).bind fun _ hn => .ok hn

theorem param (h : Sustains Q b t) (ht : ∀ n ∈ b.node? t, Q t n) :
    Yields (fun o => ∀ n ∈ o, Q t n) (b.param t) := by
  rw [Builder.param]
  split
  · split
    · rename_i pattern value hPattern hValue
      have hFields : FillAll Q t [(.left, .node pattern), (.right, .node value)] := by
        simp only [fillAll_cons, fills_node, fillAll_nil, and_true]
        exact ⟨h.field? _ _ hPattern, h.field? _ _ hValue⟩
      refine (h.extra t 1 .assignmentPattern (.other (by decide)) hFields).bind
        fun n hn => .ok ?_
      simpa using hn
    · exact .ok (h.field? _)
  · exact .ok ht

theorem params (h : Sustains Q b t) (name : Text) :
    Yields (fun ns => ∀ n ∈ ns, Q t n) (b.params (t.childByField? name)) := by
  cases hu : t.childByField? name with
  | none => exact .ok (by simp)
  | some u =>
    have huIn := Tree.mem_descendants_of_childByField? hu
    have hu := h.ofField hu
    have hParam : ∀ v ∈ u.namedChildren,
        Yields (fun o => ∀ n ∈ o, Q t n) (b.param v) := by
      intro v hv
      have hv := Tree.mem_descendants_of_mem_namedChildren hv
      obtain ⟨o, ho, hIn⟩ := (hu.descendant hv).param (hu.known v hv)
      exact ⟨o, ho, fun n hn => h.lift huIn (hu.lift hv (hIn n hn))⟩
    refine (Yields.mapM hParam).bind fun found hFound => .ok fun n hn => ?_
    obtain ⟨o, ho, hn⟩ := List.mem_filterMap.mp hn
    exact hFound o ho n hn

theorem functionParts (h : Sustains Q b t) :
    Yields (FillAll Q t) (b.functionParts t) := by
  refine (h.params _).bind fun params hParams => .ok ?_
  simp only [fillAll_cons, fills_nodes, fills_value, fillAll_nil, and_true]
  exact ⟨hParams, h.fieldSlot _⟩

theorem loopVariable (h : Sustains Q b t) : Yields (Fills Q t) (b.loopVariable t) := by
  rw [Builder.loopVariable]
  split
  · exact .ok (fills_value _)
  · rename_i u hu
    have huIn := Tree.mem_descendants_of_childByField? hu
    have hu := h.ofField hu
    split
    · rename_i left word hLeft _
      have hVariable : FillAll Q u [(.id, .node left)] := by
        simpa using h.known u huIn left hLeft
      refine (hu.extra t 2 .variableDeclarator (.other (by decide)) hVariable).bind
        fun declarator hDeclarator => ?_
      have hFields : FillAll Q u [(.kind, Builder.textSlot (b.source.textOf word)),
          (.declarations, .nodes [declarator])] := by
        simpa [Builder.textSlot] using hDeclarator
      refine (hu.extra t 1 .variableDeclaration (.other (by decide)) hFields).bind
        fun declaration hDeclaration => ?_
      exact .ok ((fills_node _).mpr (h.lift huIn hDeclaration))
    · exact .ok ((fills_ofOption _).mpr (h.node? huIn))

theorem superclass (h : Sustains Q b t) : Fills Q t (b.superclass t) := by
  refine List.foldlRecOn t.namedChildren _ (fills_value _) fun found hFound u hu => ?_
  have huIn := Tree.mem_descendants_of_mem_namedChildren hu
  split
  · rw [fills_ofOption]
    exact fun n hn => h.lift huIn ((h.descendant huIn).firstNamed? n hn)
  · exact hFound

theorem callArguments (h : Sustains Q b t) : ∀ n ∈ b.callArguments t, Q t n := by
  intro n hn
  rw [Builder.callArguments] at hn
  split at hn
  · cases hn
  · rename_i u hu
    have huIn := Tree.mem_descendants_of_childByField? hu
    split at hn
    · exact h.lift huIn ((h.ofField hu).named n hn)
    · exact h.node? huIn n (Option.mem_toList.mp hn)

theorem templateParts (h : Sustains Q b t) {us : List Tree} (hus : us ⊆ t.descendants) :
    ∀ current, ∀ n ∈ (b.templateParts current us).2, Q t n := by
  induction us with
  | nil => intro current n hn; cases hn
  | cons u us ih =>
    intro current n hn
    have huIn := hus List.mem_cons_self
    have ih := ih fun v hv => hus (List.mem_cons_of_mem _ hv)
    rw [Builder.templateParts] at hn
    split at hn
    · rcases List.mem_append.mp hn with hn | hn
      · exact h.lift huIn ((h.descendant huIn).firstNamed? n (Option.mem_toList.mp hn))
      · exact ih _ n hn
    · exact ih _ n hn

theorem namedTemplateParts (h : Sustains Q b t) :
    ∀ n ∈ (b.templateParts [] t.namedChildren).2, Q t n :=
  h.templateParts (fun _ hu => Tree.mem_descendants_of_mem_namedChildren hu) []

/-- A sequence inside a sequence gives its own expressions, which are children of it. -/
theorem sequenceParts (h : Sustains Q b t) : ∀ n ∈ b.sequenceParts t, Q t n := by
  intro n hn
  obtain ⟨m, hm, hn⟩ := List.mem_flatMap.mp hn
  split at hn
  · exact h.child t t.mem_preorder_self m (h.named m hm) n (Node.mem_children_of_mem_slot hn)
  · rw [List.mem_singleton.mp hn]
    exact h.named m hm

theorem attributes (h : Sustains Q b t) : ∀ n ∈ b.attributes (some t), Q t n :=
  h.filterMap fun _ hu =>
    Tree.mem_descendants_of_mem_namedChildren (List.mem_of_mem_filter hu)

theorem fieldAttributes (h : Sustains Q b t) (name : Text) :
    ∀ n ∈ b.attributes (t.childByField? name), Q t n := by
  intro n hn
  cases hu : t.childByField? name with
  | none =>
    rw [hu] at hn
    cases hn
  | some u =>
    rw [hu] at hn
    exact h.lift (Tree.mem_descendants_of_childByField? hu) ((h.ofField hu).attributes n hn)

theorem elementChildren (h : Sustains Q b t) : ∀ n ∈ b.elementChildren t, Q t n :=
  h.filterMap fun _ hu =>
    Tree.mem_descendants_of_mem_namedChildren (List.mem_of_mem_filter hu)

theorem second (h : Sustains Q b t) :
    ∀ n ∈ t.namedChildren[1]?.bind b.node?, Q t n := by
  intro n hn
  obtain ⟨u, hu, hn⟩ := Option.bind_eq_some_iff.mp hn
  exact h.node? (Tree.mem_descendants_of_mem_namedChildren (List.mem_of_getElem? hu)) n hn

theorem sides (h : Sustains Q b t) : FillAll Q t (b.sides t) := by
  simp [Builder.sides, h.fieldSlot]

theorem branches (h : Sustains Q b t) : FillAll Q t (b.branches t) := by
  simp [Builder.branches, h.fieldSlot]

theorem member (h : Sustains Q b t) (name : Text) (computed : Bool) :
    FillAll Q t (b.member t name computed).2 := by
  simp [Builder.member, h.fieldSlot]

/-! ### The node -/

/-- Whatever becomes of a node, its fields hold nodes with the property. -/
theorem given (h : Sustains Q b t) :
    Yields (fun g => FillAll Q t g.2) (b.given t) := by
  rw [Builder.given]
  cases hForm : Form.ofKind t.kind with
  | forInStatement =>
    refine h.loopVariable.bind fun left hLeft => .ok ?_
    simp [hLeft, h.fieldSlot]
  | functionDeclaration =>
    refine h.functionParts.bind fun parts hParts => .ok ?_
    simp [hParts, h.fieldSlot]
  | functionExpression =>
    refine h.functionParts.bind fun parts hParts => .ok ?_
    simp [hParts, h.fieldSlot]
  | arrowFunction =>
    -- the only parameter of an arrow function may stand without brackets
    simp only
    split
    · rename_i u hu
      refine .ok ?_
      simpa [h.fieldSlot] using h.node? (Tree.mem_descendants_of_childByField? hu)
    · refine (h.params _).bind fun params hParams => .ok ?_
      simpa [h.fieldSlot] using hParams
  | methodDefinition =>
    -- the function of a method has the span of the method
    refine h.functionParts.bind fun parts hParts => ?_
    refine (h.extra t 1 .functionExpression (.other (by decide)) hParts).bind
      fun function hFunction => .ok ?_
    simp [hFunction, h.fieldSlot, Builder.textSlot]
  | classDeclaration =>
    refine .ok ?_
    simpa [h.fieldSlot, h.superclass] using h.named? _
  | newExpression =>
    refine .ok ?_
    simpa [h.fieldSlot] using h.named? _
  | shorthandProperty =>
    -- key and value are made from the same word, at the same place
    have hName : FillAll Q t [(.name, Builder.textSlot (b.source.textOf t))] := by
      simp [Builder.textSlot]
    refine (h.extra t 1 .identifier (.identifier 1 hForm) hName).bind fun key hKey => ?_
    refine (h.extra t 2 .identifier (.identifier 2 hForm) hName).bind fun value hValue => .ok ?_
    simp [hKey, hValue]
  | jsxElement =>
    refine .ok ?_
    simpa [Builder.textSlot] using ⟨h.fieldAttributes _, h.elementChildren⟩
  | _ =>
    refine .ok ?_
    simp +contextual only [fillAll_cons, fillAll_nil, fills_nodes, fills_value, fills_ofOption,
      Builder.textSlot, Builder.literalParts, and_true, implies_true, h.fieldSlot,
      h.named, h.firstNamed?, h.clause, h.callArguments, h.namedTemplateParts, h.sequenceParts,
      h.attributes, h.second, h.sides, h.branches, h.member]

/-- **What is built has the property.** -/
theorem build (h : Sustains Q b t) : Yields (fun o => ∀ n ∈ o, Q t n) (b.build t) := by
  rw [Builder.build]
  split
  · exact .ok (by simp)
  · exact .ok h.firstNamed?
  · obtain ⟨g, hGiven, hFields⟩ := h.given
    rw [hGiven]
    refine (h.make t t.mem_preorder_self (.main hGiven) hFields).bind fun span hn => .ok ?_
    simpa using hn

end Sustains

/-! ### All nodes -/

/-- All nodes in the table have the property. -/
def Table.All (Q : Node → Prop) (table : Table) : Prop :=
  ∀ (row : Nat) (n : Node), table[row]? = some (some n) → Q n

theorem Table.All.node? {Q : Node → Prop} {table : Table} (h : table.All Q) (t : Tree) :
    ∀ n ∈ table.node? t, Q n :=
  fun n hn => h t.row n (Option.join_eq_some_iff.mp hn)

section Keeps

variable {source : Source} {root : Tree} {Q : Node → Prop}
  (h : ∀ table : Table, table.All Q → Sustains (fun _ => Q) ⟨source, table.node?⟩ root)
include h

theorem build_keeps {table : Table} {t : Tree} (ht : t ∈ root.preorder) (hTable : table.All Q) :
    Yields (fun o => ∀ n ∈ o, Q n) (Builder.build ⟨source, table.node?⟩ t) := by
  rcases Tree.mem_preorder.mp ht with rfl | ht
  · exact (h table hTable).build
  · exact ((h table hTable).descendant ht).build

/-- Working off a stack of tasks **succeeds**, and all that gets into the table has the property. -/
theorem work_keeps {tasks : List Task} {table : Table}
    (hTasks : ∀ t, .enter t ∈ tasks ∨ .leave t ∈ tasks → t ∈ root.preorder)
    (hTable : table.All Q) : Yields (Table.All Q) (work source tasks table) := by
  fun_induction work source tasks table with
  | case1 table => exact .ok hTable
  | case2 t rest table e he =>
    -- the node can be built
    obtain ⟨o, ho, _⟩ := build_keeps h (hTasks t (.inr List.mem_cons_self)) hTable
    rw [he] at ho
    cases ho
  | case3 t rest table o ho ih =>
    obtain ⟨o', ho', hAll⟩ := build_keeps h (hTasks t (.inr List.mem_cons_self)) hTable
    rw [ho] at ho'
    cases ho'
    refine ih (fun u hu => ?_) fun row n hn => ?_
    · exact hTasks u (hu.imp (List.mem_cons_of_mem _) (List.mem_cons_of_mem _))
    · rw [Std.HashMap.getElem?_insert] at hn
      split at hn
      · rw [Option.some.injEq] at hn
        exact hAll n hn
      · exact hTable row n hn
  | case4 t rest table ih =>
    have ht := hTasks t (.inl List.mem_cons_self)
    refine ih (fun u hu => ?_) hTable
    simp only [List.mem_append, List.mem_map, List.mem_reverse, List.mem_cons,
      Task.enter.injEq, Task.leave.injEq, exists_eq_right, reduceCtorEq, and_false,
      exists_false, false_or] at hu
    rcases hu with (hu | hu) | rfl | hu
    · have hBelow := Tree.mem_descendants_of_mem_content hu
      exact Tree.mem_preorder_of_mem_descendants (Tree.descendants_subset t ht hBelow)
    · exact hTasks u (.inl (List.mem_cons_of_mem _ hu))
    · exact ht
    · exact hTasks u (.inr (List.mem_cons_of_mem _ hu))

/-- **Conversion succeeds**, and its result has the property. -/
theorem convert_keeps : Yields (fun o => ∀ n ∈ o, Q n) (convert source root) := by
  have hTasks : ∀ t, .enter t ∈ [Task.enter root] ∨ .leave t ∈ [Task.enter root] →
      t ∈ root.preorder := by
    intro t ht
    simp only [List.mem_singleton, Task.enter.injEq, reduceCtorEq, or_false] at ht
    rw [ht]
    exact root.mem_preorder_self
  have hEmpty : Table.All Q ∅ := by
    intro row n hn
    simp at hn
  refine (work_keeps h hTasks hEmpty).bind fun table hTable => .ok ?_
  exact hTable.node? root

end Keeps

end Concrete

end ScriptLint
