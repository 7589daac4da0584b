import ScriptLint.Proofs.Concrete.Tree
import ScriptLint.Proofs.Outcome

/-!
# What building a node depends on

A node is built from the text of its concrete node and from what the concrete nodes below it have
become.  Nothing else is read: neither the node itself nor a node outside is looked up.

* `Builder.Agree`: two builders have the same source and know the same of the nodes below a node.
* `Agree.named`, `Agree.params`, ...: they agree on each part of the node.
* `Agree.build`: then they build the same node.
* `Builder.exists_given_of_build`: a node that is neither skipped nor a wrapper becomes a node with
  the kind and the fields that it calls for.
* `Builder.build_fault`: building fails only where an octet is out of range.
-/

namespace ScriptLint.Concrete

open Ast (Node Slot Field Kind Construct)

theorem Tree.mem_children_of_childByField? {t c : Tree} {name : Text}
    (h : t.childByField? name = some c) : c ∈ t.children :=
  List.mem_of_find?_eq_some h

theorem Tree.mem_descendants_of_childByField? {t c : Tree} {name : Text}
    (h : t.childByField? name = some c) : c ∈ t.descendants :=
  mem_descendants_of_mem_children (mem_children_of_childByField? h)

theorem Tree.mem_descendants_of_mem_namedChildren {t c : Tree} (h : c ∈ t.namedChildren) :
    c ∈ t.descendants :=
  mem_descendants_of_mem_children (mem_children_of_mem_namedChildren h)

namespace Builder

/-- The builders have the same source and know the same of the nodes below `t`. -/
structure Agree (b c : Builder) (t : Tree) : Prop where
  source : b.source = c.source
  node? : ∀ u ∈ t.descendants, b.node? u = c.node? u

namespace Agree

variable {b c : Builder} {t : Tree}

theorem descendant (h : Agree b c t) {u : Tree} (hu : u ∈ t.descendants) : Agree b c u where
  source := h.source
  node? := fun v hv => h.node? v (Tree.preorder_subset hu (Tree.mem_preorder_of_mem_descendants hv))

theorem ofField (h : Agree b c t) {u : Tree} {name : Text} (hu : t.childByField? name = some u) :
    Agree b c u :=
  h.descendant (Tree.mem_descendants_of_childByField? hu)

/-! ### Parts that are looked up -/

theorem field? (h : Agree b c t) (name : Text) : b.field? t name = c.field? t name := by
  rw [Builder.field?, Builder.field?]
  cases hc : t.childByField? name with
  | none => rfl
  | some u => exact h.node? u (Tree.mem_descendants_of_childByField? hc)

theorem fieldSlot (h : Agree b c t) : b.fieldSlot t = c.fieldSlot t := by
  funext name
  rw [Builder.fieldSlot, Builder.fieldSlot, h.field?]

theorem fieldText (h : Agree b c t) : b.fieldText t = c.fieldText t := by
  funext name
  rw [Builder.fieldText, Builder.fieldText, h.source]

theorem filterMap (h : Agree b c t) {us : List Tree} (hus : us ⊆ t.descendants) :
    us.filterMap b.node? = us.filterMap c.node? :=
  List.filterMap_congr fun u hu => h.node? u (hus hu)

theorem named (h : Agree b c t) : b.named t = c.named t :=
  h.filterMap fun _ hu => Tree.mem_descendants_of_mem_namedChildren hu

theorem named? (h : Agree b c t) (name : Text) :
    b.named? (t.childByField? name) = c.named? (t.childByField? name) := by
  cases hc : t.childByField? name with
  | none => rfl
  | some u => exact (h.ofField hc).named

theorem firstNamed? (h : Agree b c t) : b.firstNamed? t = c.firstNamed? t := by
  have hAll : ∀ us : List Tree, us ⊆ t.descendants →
      us.findSome? b.node? = us.findSome? c.node? := by
    intro us
    induction us with
    | nil => intro _; rfl
    | cons u us ih =>
      intro hus
      rw [List.findSome?_cons, List.findSome?_cons, h.node? u (hus List.mem_cons_self),
        ih fun v hv => hus (List.mem_cons_of_mem _ hv)]
  exact hAll _ fun _ hu => Tree.mem_descendants_of_mem_namedChildren hu

/-! ### Parts of single kinds -/

theorem clause (h : Agree b c t) (name : Text) : b.clause t name = c.clause t name := by
  rw [Builder.clause, Builder.clause]
  cases hc : t.childByField? name with
  | none => rfl
  | some u =>
    simp only [(h.ofField hc).firstNamed?, h.node? u (Tree.mem_descendants_of_childByField? hc)]

theorem extra (h : Agree b c t) : b.extra = c.extra := by
  funext u part construct position given
  rw [Builder.extra, Builder.extra, h.source]

theorem param (h : Agree b c t) (ht : b.node? t = c.node? t) : b.param t = c.param t := by
  rw [Builder.param, Builder.param, h.field?, h.field?, h.extra, ht]

theorem params (h : Agree b c t) (name : Text) :
    b.params (t.childByField? name) = c.params (t.childByField? name) := by
  cases hc : t.childByField? name with
  | none => rfl
  | some u =>
    have hParam : ∀ v ∈ u.namedChildren, b.param v = c.param v := by
      intro v hv
      have hv := Tree.mem_descendants_of_mem_namedChildren hv
      exact ((h.ofField hc).descendant hv).param ((h.ofField hc).node? v hv)
    rw [Builder.params, Builder.params, Outcome.mapM_congr hParam]

theorem functionParts (h : Agree b c t) : b.functionParts t = c.functionParts t := by
  rw [Builder.functionParts, Builder.functionParts, h.params, h.fieldSlot]

theorem loopVariable (h : Agree b c t) : b.loopVariable t = c.loopVariable t := by
  rw [Builder.loopVariable, Builder.loopVariable]
  cases hc : t.childByField? "left" with
  | none => rfl
  | some u => simp only [h.node? u (Tree.mem_descendants_of_childByField? hc), h.extra, h.source]

theorem methodRole (h : Agree b c t) : b.methodRole t = c.methodRole t := by
  rw [Builder.methodRole, Builder.methodRole, h.fieldText]

theorem superclass (h : Agree b c t) : b.superclass t = c.superclass t := by
  have hStep : ∀ (found : Slot) (u : Tree), u ∈ t.namedChildren →
      (if u.kind == ("class_heritage" : Text) then Slot.ofOption (b.firstNamed? u) else found)
        = if u.kind == ("class_heritage" : Text) then .ofOption (c.firstNamed? u) else found := by
    intro found u hu
    rw [(h.descendant (Tree.mem_descendants_of_mem_namedChildren hu)).firstNamed?]
  exact List.foldl_ext _ _ _ hStep

theorem callArguments (h : Agree b c t) : b.callArguments t = c.callArguments t := by
  rw [Builder.callArguments, Builder.callArguments]
  cases hc : t.childByField? "arguments" with
  | none => rfl
  | some u =>
    simp only [(h.ofField hc).named, h.node? u (Tree.mem_descendants_of_childByField? hc)]

theorem templateParts (h : Agree b c t) : ∀ (us : List Tree), us ⊆ t.descendants →
    ∀ current, b.templateParts current us = c.templateParts current us := by
  intro us
  induction us with
  | nil => intro _ _; rfl
  | cons u us ih =>
    intro hus current
    have hRest := ih fun v hv => hus (List.mem_cons_of_mem _ hv)
    rw [Builder.templateParts, Builder.templateParts, hRest, hRest,
      (h.descendant (hus List.mem_cons_self)).firstNamed?, h.source]

theorem namedTemplateParts (h : Agree b c t) :
    b.templateParts [] t.namedChildren = c.templateParts [] t.namedChildren :=
  h.templateParts _ (fun _ hu => Tree.mem_descendants_of_mem_namedChildren hu) []

theorem sequenceParts (h : Agree b c t) : b.sequenceParts t = c.sequenceParts t := by
  rw [Builder.sequenceParts, Builder.sequenceParts, h.named]

theorem attributes (h : Agree b c t) : b.attributes (some t) = c.attributes (some t) :=
  h.filterMap fun _ hu =>
    Tree.mem_descendants_of_mem_namedChildren (List.mem_of_mem_filter hu)

theorem fieldAttributes (h : Agree b c t) (name : Text) :
    b.attributes (t.childByField? name) = c.attributes (t.childByField? name) := by
  cases hc : t.childByField? name with
  | none => rfl
  | some u => exact (h.ofField hc).attributes

theorem elementChildren (h : Agree b c t) : b.elementChildren t = c.elementChildren t :=
  h.filterMap fun _ hu =>
    Tree.mem_descendants_of_mem_namedChildren (List.mem_of_mem_filter hu)

theorem second (h : Agree b c t) :
    t.namedChildren[1]?.bind b.node? = t.namedChildren[1]?.bind c.node? := by
  cases hc : t.namedChildren[1]? with
  | none => rfl
  | some u =>
    exact h.node? u (Tree.mem_descendants_of_mem_namedChildren (List.mem_of_getElem? hc))

theorem sides (h : Agree b c t) : b.sides t = c.sides t := by
  rw [Builder.sides, Builder.sides, h.fieldSlot]

theorem branches (h : Agree b c t) : b.branches t = c.branches t := by
  rw [Builder.branches, Builder.branches, h.fieldSlot]

theorem member (h : Agree b c t) : b.member t = c.member t := by
  funext name computed
  rw [Builder.member, Builder.member, h.fieldSlot]

/-! ### The node -/

theorem given (h : Agree b c t) : b.given t = c.given t := by
  rw [Builder.given, Builder.given]
  cases Form.ofKind t.kind with
  | arrowFunction =>
    -- the only parameter of an arrow function may stand without brackets
    simp only [h.fieldSlot, h.params]
    cases hc : t.childByField? "parameter" with
    | none => rfl
    | some u => simp only [h.node? u (Tree.mem_descendants_of_childByField? hc)]
  | _ =>
    simp only [h.source, h.fieldSlot, h.fieldText, h.named, h.named?, h.firstNamed?, h.clause,
      h.extra, h.functionParts, h.loopVariable, h.methodRole, h.superclass, h.callArguments,
      h.namedTemplateParts, h.sequenceParts, h.attributes, h.fieldAttributes, h.elementChildren,
      h.second, h.sides, h.branches, h.member]

/-- **Builders that agree below a node build the same node.** -/
theorem build (h : Agree b c t) : b.build t = c.build t := by
  rw [Builder.build, Builder.build, h.firstNamed?, h.given, h.source]

end Agree

/-! ### The node that is built -/

theorem exists_given_of_build {b : Builder} {t : Tree} {o : Option Node}
    (hs : Form.ofKind t.kind ≠ .skipped) (hw : Form.ofKind t.kind ≠ .wrapper)
    (h : b.build t = .ok o) :
    ∃ g span, b.given t = .ok g ∧ o = some (.build ⟨[t.row], 0⟩ g.1 span g.2) := by
  rw [build] at h
  split at h
  · contradiction
  · contradiction
  · obtain ⟨g, hGiven, h⟩ := Outcome.bind_eq_ok.mp h
    obtain ⟨span, -, h⟩ := Outcome.bind_eq_ok.mp h
    cases h
    exact ⟨g, span, hGiven, rfl⟩

/-! ### Faults -/

open Outcome (FailsOnlyWith)

theorem offset_fault (src : Source) (octet : Nat) :
    FailsOnlyWith .outOfRange (src.offset octet) := by
  rw [Source.offset]
  split
  · exact .ok _
  · split
    · exact .ok _
    · intro e h
      cases h
      rfl

theorem spanOf_fault (src : Source) (t : Tree) : FailsOnlyWith .outOfRange (src.spanOf t) :=
  (offset_fault src _).bind fun _ => (offset_fault src _).bind fun _ => .ok _

theorem extra_fault (b : Builder) (t : Tree) (part : Nat) (construct : Construct)
    (position : Tree) (given : List (Field × Slot)) :
    FailsOnlyWith .outOfRange (b.extra t part construct position given) :=
  (spanOf_fault b.source position).bind fun _ => .ok _

theorem param_fault (b : Builder) (t : Tree) : FailsOnlyWith .outOfRange (b.param t) := by
  rw [param]
  split
  · split
    · exact (b.extra_fault _ _ _ _ _).bind fun _ => .ok _
    · exact .ok _
  · exact .ok _

theorem params_fault (b : Builder) (t : Option Tree) :
    FailsOnlyWith .outOfRange (b.params t) := by
  cases t with
  | none => exact .ok _
  | some t => exact (FailsOnlyWith.mapM fun u _ => b.param_fault u).bind fun _ => .ok _

theorem functionParts_fault (b : Builder) (t : Tree) :
    FailsOnlyWith .outOfRange (b.functionParts t) :=
  (b.params_fault _).bind fun _ => .ok _

theorem loopVariable_fault (b : Builder) (t : Tree) :
    FailsOnlyWith .outOfRange (b.loopVariable t) := by
  rw [loopVariable]
  split
  · exact .ok _
  · split
    · exact (b.extra_fault _ _ _ _ _).bind fun _ => (b.extra_fault _ _ _ _ _).bind fun _ => .ok _
    · exact .ok _

theorem given_fault (b : Builder) (t : Tree) : FailsOnlyWith .outOfRange (b.given t) := by
  rw [given]
  cases Form.ofKind t.kind with
  | forInStatement => exact (b.loopVariable_fault t).bind fun _ => .ok _
  | functionDeclaration => exact (b.functionParts_fault t).bind fun _ => .ok _
  | functionExpression => exact (b.functionParts_fault t).bind fun _ => .ok _
  | arrowFunction =>
    simp only
    split
    · exact .ok _
    · exact (b.params_fault _).bind fun _ => .ok _
  | methodDefinition =>
    exact (b.functionParts_fault t).bind fun _ => (b.extra_fault _ _ _ _ _).bind fun _ => .ok _
  | shorthandProperty =>
    exact (b.extra_fault _ _ _ _ _).bind fun _ => (b.extra_fault _ _ _ _ _).bind fun _ => .ok _
  | _ => exact .ok _

/-- Building fails only where an octet is **out of range**. -/
theorem build_fault (b : Builder) (t : Tree) : FailsOnlyWith .outOfRange (b.build t) := by
  rw [build]
  split
  · exact .ok _
  · exact .ok _
  · exact (b.given_fault t).bind fun _ => (spanOf_fault b.source t).bind fun _ => .ok _

end Builder

end ScriptLint.Concrete
