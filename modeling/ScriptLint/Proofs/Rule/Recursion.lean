import ScriptLint.Proofs.Ast.Scope
import ScriptLint.Proofs.Ast.Typed
import ScriptLint.Proofs.Outcome
import ScriptLint.Rule.Recursion

/-!
# Questions about the recursion of a function

The questions that are asked about the recursion of a function may fail on a tree with odd values
in it.  On a well-typed function each of them has an answer, and the answer can be said in terms of
the nodes of the body.

* `Slot.subtree`, `Slot.IsPartOf`: the nodes of what a slot holds; a slot with a node or nothing.
* `TypedFunction`: a well-typed function with its parameters and its body.
* `Calls`, `isSelfCall_ofName_iff`: what counts as a call of the function.
* `leaves`, `exits`: what a function may return, found by plain recursion; `exitLeaves_eq` and
  `exitValues_eq` say that the walks over the tree give the same.
* `Stops`, `hasBaseCase_decides`: which of the exits stop the recursion.
* `HandsOn`, `passesOwnParameters_decides`: which calls hand on given names.
* `TypedFunction.exists_ofFunction`: all that is known about a well-typed function.
-/

namespace ScriptLint

open Ast (Node Slot Index Field Construct Kind Blank)

/-! ### Slots with a node or nothing -/

namespace Ast.Slot

/-- All nodes of what a slot holds. -/
def subtree (s : Slot) : List Node := s.children.flatMap Node.preorder

@[simp]
theorem subtree_node (n : Node) : (node n).subtree = n.preorder := List.flatMap_singleton _ n

@[simp]
theorem subtree_absent : absent.subtree = [] := rfl

/-- The slot holds **a node** of the tree, **or nothing**. -/
def IsPartOf (s : Slot) (root : Node) : Prop := s = .absent ∨ ∃ n ∈ root.preorder, s = .node n

theorem IsPartOf.subtree_subset {s : Slot} {root : Node} (h : s.IsPartOf root) :
    s.subtree ⊆ root.preorder := by
  rcases h with rfl | ⟨n, hn, rfl⟩
  · exact List.nil_subset _
  · rw [subtree_node]
    exact fun m hm => Node.mem_preorder_trans hn hm

/-- A field of a well-typed node that is empty when nothing is given holds a node or nothing. -/
theorem isPartOf_of_wellTyped {root n : Node} (h : root.WellTyped) (hn : n ∈ root.preorder)
    {c : Construct} {f : Field} (hIs : n.is c = true) (hc : c ≠ .literal)
    (hf : (f, Blank.plain .null) ∈ c.fields) : (n.slot f).IsPartOf root := by
  have hAdmits := h.admits hn hIs hc hf
  cases hs : n.slot f with
  | node m => exact .inr ⟨m, Node.slot_node hn hs, rfl⟩
  | nodes ms => rw [hs] at hAdmits; cases hAdmits
  | value v =>
    rw [hs] at hAdmits
    cases v with
    | null => exact .inl rfl
    | _ => cases hAdmits

/-- Only the same text is equal to a text. -/
theorem equal_text_iff {s : Slot} {t : Text} :
    s.equal (.value (.str t)) = true ↔ s = .value (.str t) := by
  cases s with
  | node m => simp [equal]
  | nodes ms => simp [equal]
  | value v =>
    cases v with
    | str u => rw [equal, Json.equal, beq_iff_eq, value.injEq, Json.str.injEq]
    | _ => simp [equal, Json.equal, Json.number?]

/-- A text is equal only to the same text. -/
theorem text_equal_iff {s : Slot} {t : Text} :
    equal (.value (.str t)) s = true ↔ s = .value (.str t) := by
  cases s with
  | node m => simp [equal]
  | nodes ms => simp [equal]
  | value v =>
    cases v with
    | str u => rw [equal, Json.equal, beq_iff_eq, value.injEq, Json.str.injEq, eq_comm]
    | _ => simp [equal, Json.equal, Json.number?]

theorem eq_absent_of_isNull {s : Slot} (h : s.isNull = true) : s = .absent := by
  cases s with
  | value v =>
    cases v with
    | null => rfl
    | _ => cases h
  | _ => cases h

end Ast.Slot

/-! ### Searches that cannot fail -/

open Outcome (Decides Yields)

/-- If every node has an answer, the search finds a node with the answer **yes** if there is one. -/
theorem Ast.anyNode_decides {ε : Type} {p : Node → Except ε Bool} {Q : Node → Prop} :
    ∀ {ns : List Node}, (∀ n ∈ ns, Decides (Q n) (p n)) →
      Decides (∃ n ∈ ns, Q n) (Ast.anyNode p ns) := by
  intro ns
  induction ns with
  | nil => intro _; exact ⟨false, rfl, by simp⟩
  | cons n ns ih =>
    intro h
    rw [List.forall_mem_cons] at h
    obtain ⟨b, hb, hQ⟩ := h.1
    unfold Ast.anyNode
    rw [hb, List.exists_mem_cons_iff]
    cases b with
    | true => exact ⟨true, rfl, by simp [hQ.mp rfl]⟩
    | false =>
      have hNot : ¬ Q n := fun hn => by cases hQ.mpr hn
      exact (ih h.2).congr (by simp [hNot])

theorem Ast.Slot.anyNode_decides {s : Slot} {root : Node} {e : Fault}
    {p : Node → Except Fault Bool} {Q : Node → Prop} (hPart : s.IsPartOf root)
    (h : ∀ n ∈ s.subtree, Decides (Q n) (p n)) :
    Decides (∃ n ∈ s.subtree, Q n) (s.anyNode e p) := by
  rcases hPart with rfl | ⟨n, -, rfl⟩
  · exact ⟨false, rfl, by simp⟩
  · rw [subtree_node] at h ⊢
    exact Ast.anyNode_decides h

namespace Recursion

/-! ### Calls of the function -/

/-- The slot of a name, empty if there is none. -/
def ofName : Option Text → Slot
  | some t => .value (.str t)
  | none => .absent

/-- A **call of an identifier** with the name; without a name, of any identifier. -/
def Calls (name : Option Text) (n : Node) : Prop :=
  n.is .callExpression = true ∧ ∃ callee, n.slot .callee = .node callee ∧
    callee.is .identifier = true ∧ ∀ t ∈ name, callee.slot .name = .value (.str t)

theorem as?_eq_some_iff {s : Slot} {c : Construct} {n : Node} :
    s.as? c = some n ↔ s = .node n ∧ n.is c = true := by
  cases s with
  | node m =>
    rw [Slot.as?, Slot.node?, Option.filter_eq_some_iff, Option.some.injEq, Slot.node.injEq]
  | nodes ms => simp [Slot.as?, Slot.node?]
  | value v => simp [Slot.as?, Slot.node?]

theorem isSelfCall_ofName_iff {name : Option Text} {n : Node} :
    isSelfCall (ofName name) n = true ↔ Calls name n := by
  unfold isSelfCall Calls
  rw [Bool.and_eq_true]
  refine and_congr_right fun _ => ?_
  cases hCallee : (n.slot .callee).as? .identifier with
  | none =>
    constructor
    · intro h
      cases h
    · rintro ⟨callee, hSlot, hIs, -⟩
      rw [as?_eq_some_iff.mpr ⟨hSlot, hIs⟩] at hCallee
      cases hCallee
  | some callee =>
    obtain ⟨hSlot, hIs⟩ := as?_eq_some_iff.mp hCallee
    simp only [hSlot, Slot.node.injEq, exists_eq_left', hIs, true_and]
    cases name with
    | none => simp [ofName, Slot.isNull, Slot.absent]
    | some t => simp [ofName, Slot.isNull, Slot.equal_text_iff]

/-- What is called by its name in a well-typed tree has a **text** for a name, or none. -/
theorem exists_ofName_of_isSelfCall {root call : Node} {name : Slot} (h : root.WellTyped)
    (hCall : call ∈ root.preorder) (hSelf : isSelfCall name call = true) :
    ∃ known, name = ofName known := by
  by_cases hNull : name.isNull = true
  · exact ⟨none, Slot.eq_absent_of_isNull hNull⟩
  · unfold isSelfCall at hSelf
    rw [Bool.and_eq_true] at hSelf
    cases hCallee : (call.slot .callee).as? .identifier with
    | none =>
      rw [hCallee] at hSelf
      cases hSelf.2
    | some callee =>
      obtain ⟨hSlot, hName⟩ := as?_eq_some_iff.mp hCallee
      obtain ⟨t, ht⟩ := h.name (Node.slot_node hCall hSlot) hName
      have hEqual : (callee.slot .name).equal name = true := by
        simpa [hCallee, hNull] using hSelf.2
      rw [ht, Slot.text_equal_iff] at hEqual
      exact ⟨some t, hEqual⟩

/-! ### Exits -/

/-- The **leaves** of a slot: what is reached through the branches of conditionals, and is no
conditional itself. -/
def leaves (s : Slot) : List Slot :=
  match _h : s.as? .conditionalExpression with
  | some c => leaves (c.slot .consequent) ++ leaves (c.slot .alternate)
  | none => [s]
termination_by conditionalSize s
decreasing_by all_goals have := conditionalSize_split_lt _h; omega

theorem leaves_of_conditional {s : Slot} {c : Node} (h : s.as? .conditionalExpression = some c) :
    leaves s = leaves (c.slot .consequent) ++ leaves (c.slot .alternate) := by
  rw [leaves]
  split
  · rename_i d hd
    rw [Option.some.inj (hd.symm.trans h)]
  · rename_i hNone
    rw [h] at hNone
    cases hNone

theorem leaves_of_none {s : Slot} (h : s.as? .conditionalExpression = none) : leaves s = [s] := by
  rw [leaves]
  split
  · rename_i c hc
    rw [h] at hc
    cases hc
  · rfl

/-- The work list gives the leaves, the **last** branch first. -/
theorem exitLeaves_eq (stack : List Slot) :
    exitLeaves stack = stack.flatMap fun s => (leaves s).reverse := by
  induction stack using exitLeaves.induct with
  | case1 => rw [exitLeaves, List.flatMap_nil]
  | case2 s stack c hc ih =>
    rw [exitLeaves]
    split
    · rename_i d hd
      rw [Option.some.inj (hd.symm.trans hc), ih]
      simp only [List.flatMap_cons, leaves_of_conditional hc, List.reverse_append,
        List.append_assoc]
    · rename_i hNone
      rw [hc] at hNone
      cases hNone
  | case3 s stack hc ih =>
    rw [exitLeaves]
    split
    · rename_i d hd
      rw [hc] at hd
      cases hd
    · rw [ih, List.flatMap_cons, leaves_of_none hc]
      rfl

/-- The leaves of a node or nothing are nodes or nothing. -/
theorem leaves_isPartOf {root : Node} (h : root.WellTyped) (s : Slot) :
    s.IsPartOf root → ∀ leaf ∈ leaves s, leaf.IsPartOf root := by
  induction s using leaves.induct with
  | case1 s c hc ihConsequent ihAlternate =>
    intro hs leaf hLeaf
    obtain ⟨rfl, hIs⟩ := as?_eq_some_iff.mp hc
    have hMem : c ∈ root.preorder := by
      apply hs.subtree_subset
      rw [Slot.subtree_node]
      exact c.mem_preorder_self
    rw [leaves_of_conditional hc, List.mem_append] at hLeaf
    rcases hLeaf with hLeaf | hLeaf
    · refine ihConsequent (Slot.isPartOf_of_wellTyped h hMem hIs (by decide) ?_) leaf hLeaf
      exact List.mem_cons_of_mem _ List.mem_cons_self
    · refine ihAlternate (Slot.isPartOf_of_wellTyped h hMem hIs (by decide) ?_) leaf hLeaf
      exact List.mem_cons_of_mem _ (List.mem_cons_of_mem _ List.mem_cons_self)
  | case2 s hc =>
    intro hs leaf hLeaf
    rw [leaves_of_none hc, List.mem_singleton] at hLeaf
    rwa [hLeaf]

/-- The **exit values** of a function: the body of an arrow function that is an expression, and
otherwise the arguments of the return statements below the body with no function in between. -/
def exits (f : Node) (body : Slot) : List Slot :=
  if f.is .arrowFunctionExpression && (f.slot .expression).truthy then [body]
  else
    ((body.children.flatMap Node.trails).filter fun t =>
      t.2.is .returnStatement && Node.isFree t).map fun t => t.2.slot .argument

theorem exitValues_eq {f root : Node} {body : Slot} (h : body.IsPartOf root) :
    exitValues f body = .ok (exits f body) := by
  unfold exitValues exits
  by_cases hArrow : (f.is .arrowFunctionExpression && (f.slot .expression).truthy) = true
  · rw [if_pos hArrow, if_pos hArrow]
  · rw [if_neg hArrow, if_neg hArrow]
    rcases h with rfl | ⟨b, -, rfl⟩
    · rfl
    · simp only [Slot.children_node, List.flatMap_singleton, b.ownScope_eq_trails, List.filter_map,
        List.filter_filter, List.map_map]
      rfl

theorem exits_isPartOf {f : Node} {body : Slot} (h : f.WellTyped) (hBody : body.IsPartOf f) :
    ∀ s ∈ exits f body, s.IsPartOf f := by
  intro s hs
  rw [exits] at hs
  split at hs
  · rwa [List.mem_singleton.mp hs]
  · obtain ⟨t, ht, rfl⟩ := List.mem_map.mp hs
    obtain ⟨ht, hReturn⟩ := List.mem_filter.mp ht
    obtain ⟨b, hb, ht⟩ := List.mem_flatMap.mp ht
    have hBelow : t.2 ∈ b.descendants := by
      rw [← b.map_snd_trails]
      exact List.mem_map_of_mem ht
    have hMem : t.2 ∈ f.preorder := by
      apply hBody.subtree_subset
      exact List.mem_flatMap.mpr ⟨b, hb, Node.mem_preorder_of_mem_descendants hBelow⟩
    rw [Bool.and_eq_true] at hReturn
    exact Slot.isPartOf_of_wellTyped h hMem hReturn.1 (by decide) List.mem_cons_self

/-! ### Exits that stop -/

/-- **No node** of what the slot holds calls the function.  An empty slot holds no node. -/
def Stops (name s : Slot) : Prop := ∀ n ∈ s.subtree, ¬ isSelfCall name n

theorem anyStops_decides {name : Slot} {root : Node} : ∀ {values : List Slot},
    (∀ s ∈ values, s.IsPartOf root) →
      Decides (∃ s ∈ values, Stops name s) (anyStops name values) := by
  intro values
  induction values with
  | nil => intro _; exact ⟨false, rfl, by simp⟩
  | cons s values ih =>
    intro h
    rw [List.forall_mem_cons] at h
    rw [List.exists_mem_cons_iff]
    unfold anyStops
    by_cases hNull : s.isNull = true
    · have hStops : Stops name s := by
        rw [Slot.eq_absent_of_isNull hNull]
        intro n hn
        cases hn
      rw [if_pos hNull]
      exact ⟨true, rfl, by simp [hStops]⟩
    · have hSearch : Decides (∃ n ∈ s.subtree, isSelfCall name n)
          (s.anyNode .mismatch fun n => .ok (isSelfCall name n)) :=
        Slot.anyNode_decides h.1 fun n _ => .of_bool _
      obtain ⟨b, hb, hCall⟩ := hSearch
      rw [if_neg hNull, hb]
      cases b with
      | true =>
        obtain ⟨n, hn, hSelf⟩ := hCall.mp rfl
        have hNot : ¬ Stops name s := fun hStops => hStops n hn hSelf
        exact (ih h.2).congr (by simp [hNot])
      | false =>
        have hStops : Stops name s := fun n hn hSelf => by cases hCall.mpr ⟨n, hn, hSelf⟩
        exact ⟨true, rfl, by simp [hStops]⟩

theorem exitLeaves_reverse (values : List Slot) :
    exitLeaves values.reverse = (values.flatMap leaves).reverse := by
  rw [exitLeaves_eq, List.reverse_flatMap]
  rfl

/-- A well-typed function has a base case if one of the leaves of its exits **stops**. -/
theorem hasBaseCase_decides {f : Node} {body : Slot} (name : Slot) (h : f.WellTyped)
    (hBody : body.IsPartOf f) :
    Decides (∃ leaf ∈ (exits f body).flatMap leaves, Stops name leaf)
      (hasBaseCase name f body) := by
  have hParts : ∀ s ∈ exitLeaves (exits f body).reverse, s.IsPartOf f := by
    intro leaf hLeaf
    rw [exitLeaves_reverse, List.mem_reverse] at hLeaf
    obtain ⟨s, hs, hLeaf⟩ := List.mem_flatMap.mp hLeaf
    exact leaves_isPartOf h s (exits_isPartOf h hBody s hs) leaf hLeaf
  unfold hasBaseCase
  rw [exitValues_eq hBody]
  refine (anyStops_decides hParts).congr ?_
  simp only [exitLeaves_reverse, List.mem_reverse]

/-! ### Guards and parameters -/

theorem exists_isGuard {root n : Node} (h : root.WellTyped) (hn : n ∈ root.preorder)
    (parent : Option Node) : ∃ b, isGuard n parent = .ok b := by
  unfold isGuard
  by_cases hName : n.is .identifier = true
  · have hKey := h.isKey_name hn hName
    rw [if_neg (by simp [hName]), Slot.isOneOf, if_pos hKey]
    cases (n.slot .name).text?.any fun t => guardNames.contains t <;> exact ⟨_, rfl⟩
  · rw [if_pos (by simpa using hName)]
    exact ⟨false, rfl⟩

theorem exists_anyGuard {links : List (Node × Option Node)} :
    (∀ e ∈ links, ∃ b, isGuard e.1 e.2 = .ok b) → ∃ b, anyGuard links = .ok b := by
  induction links with
  | nil => intro _; exact ⟨false, rfl⟩
  | cons e links ih =>
    intro h
    rw [List.forall_mem_cons] at h
    obtain ⟨b, hb⟩ := h.1
    unfold anyGuard
    rw [hb]
    cases b with
    | true => exact ⟨true, rfl⟩
    | false => exact ih h.2

theorem exists_hasDepthGuard {f : Node} {body : Slot} (h : f.WellTyped) (hBody : body.IsPartOf f) :
    ∃ b, hasDepthGuard body = .ok b := by
  rcases hBody with rfl | ⟨b, hb, rfl⟩
  · exact ⟨false, rfl⟩
  · refine exists_anyGuard fun e he => exists_isGuard h ?_ e.2
    refine Node.mem_preorder_trans hb ?_
    rw [← b.map_fst_withParents]
    exact List.mem_map_of_mem he

/-- The arguments are names, and one by one they are **the given** names. -/
def AreNames (args : List Node) (names : List Slot) : Prop :=
  List.Forall₂ (fun a name => a.is .identifier = true ∧ (a.slot .name).equal name = true) args names

theorem passesOn_decides {call : Node} {args : List Node} (names : List Slot)
    (hArgs : call.slot .arguments = .nodes args) :
    Decides (AreNames args names) (passesOn names call) := by
  unfold passesOn
  rw [hArgs]
  refine (Decides.of_bool _).congr ?_
  rw [AreNames, List.forall₂_iff_zip, Bool.and_eq_true, List.length_map, beq_iff_eq,
    List.zip_map_left, List.all_map, List.all_eq_true]
  refine and_congr_right fun _ => ?_
  simp [Prod.forall]

/-- A call of the function in the body hands on the given names, and there are some. -/
def HandsOn (name : Slot) (names : List Slot) (body : Slot) : Prop :=
  names ≠ [] ∧ ∃ call ∈ body.subtree, isSelfCall name call = true ∧
    ∃ args, call.slot .arguments = .nodes args ∧ AreNames args names

theorem passesOwnParameters_decides {f : Node} {body : Slot} (name : Slot) (names : List Slot)
    (h : f.WellTyped) (hBody : body.IsPartOf f) :
    Decides (HandsOn name names body) (passesOwnParameters name names body) := by
  unfold passesOwnParameters HandsOn
  by_cases hEmpty : names.isEmpty = true
  · rw [if_pos hEmpty]
    exact ⟨false, rfl, by simp [List.isEmpty_iff.mp hEmpty]⟩
  · rw [if_neg hEmpty]
    have hNames : names ≠ [] := fun hNil => hEmpty (List.isEmpty_iff.mpr hNil)
    rw [and_iff_right hNames]
    refine Slot.anyNode_decides hBody fun n hn => ?_
    by_cases hSelf : isSelfCall name n = true
    · have hCall := (Bool.and_eq_true_iff.mp hSelf).1
      obtain ⟨args, hArgs⟩ := h.arguments (hBody.subtree_subset hn) hCall
      rw [if_pos hSelf]
      refine (passesOn_decides names hArgs).congr ?_
      simp [hSelf, hArgs]
    · rw [if_neg hSelf]
      exact ⟨false, rfl, by simp [hSelf]⟩

/-! ### The whole -/

/-- A **well-typed function** with its parameters and its body, which may be missing. -/
structure TypedFunction (f : Node) (params : List Node) (body : Slot) : Prop where
  isFunction : f.isFunction = true
  typed : f.WellTyped
  hasParams : f.slot? .params = some (.nodes params)
  hasBody : f.slot? .body = some body
  nodeOrNone : body = .absent ∨ ∃ b, body = .node b

namespace TypedFunction

variable {f : Node} {params : List Node} {body : Slot}

theorem isPartOf (h : TypedFunction f params body) : body.IsPartOf f := by
  refine h.nodeOrNone.imp_right ?_
  rintro ⟨b, rfl⟩
  refine ⟨b, Node.slot_node f.mem_preorder_self (f := .body) ?_, rfl⟩
  rw [Node.slot, h.hasBody, Option.getD_some]

theorem functionParams_eq (h : TypedFunction f params body) :
    f.functionParams = .ok (params.filterMap Node.paramName?) := by
  unfold Node.functionParams
  rw [h.hasParams]
  show Except.ok ((params.map some).filterMap fun item => item.bind Node.paramName?) = _
  rw [List.filterMap_map]
  rfl

/-- **All that is known** about a well-typed function: whether it is recursive, whether it hands on
its parameters, and whether it lacks a base case. -/
theorem exists_ofFunction (h : TypedFunction f params body) (ix : Option Index) :
    ∃ r, ofFunction f ix = .ok r ∧ r.name = f.functionName ix ∧
      (r.isRecursive = true ↔ ∃ n ∈ body.subtree, isSelfCall r.name n = true) ∧
      (r.keepsParameters = true ↔
        r.name.isNull = false ∧ HandsOn r.name (params.filterMap Node.paramName?) body) ∧
      (r.isRecursive = true → (r.lacksBaseCase = false ↔
        ∃ leaf ∈ (exits f body).flatMap leaves, Stops r.name leaf)) := by
  have hPart := h.isPartOf
  have hRecursive : Decides (∃ n ∈ body.subtree, isSelfCall (f.functionName ix) n = true)
      (body.anyNode .mismatch fun n => .ok (isSelfCall (f.functionName ix) n)) :=
    Slot.anyNode_decides hPart fun n _ => .of_bool _
  obtain ⟨recursive, hEq, hIff⟩ := hRecursive
  unfold ofFunction
  simp only [h.hasBody, pure_bind, hEq, Outcome.ok_bind]
  cases recursive with
  | false =>
    refine ⟨_, rfl, rfl, hIff, ?_, fun hRecursive => absurd hRecursive Bool.false_ne_true⟩
    constructor
    · intro hKeeps
      cases hKeeps
    · rintro ⟨-, -, call, hCall, hSelf, -⟩
      exact hIff.mpr ⟨call, hCall, hSelf⟩
  | true =>
    obtain ⟨keeps, hKeeps, hKeepsIff⟩ := passesOwnParameters_decides (f.functionName ix)
      (params.filterMap Node.paramName?) h.typed hPart
    obtain ⟨returns, hReturns, -⟩ : Decides _ (returnsSelfCall (f.functionName ix) body) :=
      Slot.anyNode_decides hPart fun n _ => .of_bool _
    obtain ⟨base, hBase, hBaseIff⟩ := hasBaseCase_decides (f.functionName ix) h.typed hPart
    obtain ⟨guarded, hGuarded⟩ := exists_hasDepthGuard h.typed hPart
    simp only [h.functionParams_eq, hKeeps, hReturns, hBase, hGuarded, Outcome.ok_bind]
    -- without a name nothing is said about the parameters
    cases hNull : (f.functionName ix).isNull with
    | true =>
      refine ⟨_, rfl, rfl, hIff, ?_, fun _ => by rw [← hBaseIff]; simp⟩
      simp [hNull]
    | false =>
      refine ⟨_, rfl, rfl, hIff, ?_, fun _ => by rw [← hBaseIff]; simp⟩
      rw [← hKeepsIff]
      simp [hNull]

end TypedFunction

/-! ### Small functions -/

/-- A node of a small function. -/
def sample (part : Nat) (kind : Kind) (given : List (Field × Slot)) : Node :=
  .build ⟨[0], part⟩ kind ⟨.int 0, .int 0, ⟨.int 1, .int 0⟩, ⟨.int 1, .int 0⟩⟩ given

def sampleName (part : Nat) (name : Text) : Node :=
  sample part (.known .identifier) [(.name, .value (.str name))]

/-- A call of `f`. -/
def sampleCall (part : Nat) (args : List Node) : Node :=
  sample part (.known .callExpression)
    [(.callee, .node (sampleName (part + 1) "f")), (.arguments, .nodes args)]

theorem calls_sampleCall (part : Nat) (args : List Node) :
    Calls (some "f") (sampleCall part args) := by
  refine ⟨rfl, sampleName (part + 1) "f", rfl, rfl, fun t ht => ?_⟩
  cases ht
  rfl

def sampleReturn (part : Nat) (value : Node) : Node :=
  sample part (.known .returnStatement) [(.argument, .node value)]

def sampleBlock (part : Nat) (statements : List Node) : Node :=
  sample part (.known .blockStatement) [(.body, .nodes statements)]

/-- A function `f`. -/
def sampleFunction (params : List Node) (body : Node) : Node :=
  sample 0 (.known .functionDeclaration)
    [(.id, .node (sampleName 1 "f")), (.params, .nodes params), (.body, .node body)]

end Recursion

end ScriptLint
