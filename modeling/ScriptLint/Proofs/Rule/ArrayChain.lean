import ScriptLint.Proofs.Registry.Isolation
import ScriptLint.Proofs.Registry.Sources
import ScriptLint.Proofs.Rule.Recursion

/-!
# The calls of a chain

The call at the end of `a.map(f).filter(g).sort()` has a chain of three calls, its receiver
`a.map(f).filter(g)` has one of two, and the receiver of this one has one of a single call.  The
rule looks at every call by itself and counts its chain anew.  So a chain is reported at all of its
calls but the first one of the source, with a length that goes down by one from call to call.  The
name that the chain begins with is searched by a second loop, which does not stop where the count
stops; nevertheless it is the same for all calls of a chain.

* `receiver`: what the method of a call is called on.
* `chainLength_eq_succ`, `chainRoot_of_receiver`: one step along a chain.
* `IsChain`, `exists_isChain`: the calls of a whole chain.
* `Registry.Sound.exists_detect`: what a rule reports that looks at nothing but the node.
* `chain_reported`: a chain of `k` calls is reported `k - 1` times.
-/

namespace ScriptLint

open Ast (Node Slot Index)

/-! ### Parts of a walk -/

namespace Ast.Node

/-- The walk over a node below another one is a part of the walk **below** that one. -/
theorem preorder_sublist_descendants {n m : Node} (h : m ∈ n.descendants) :
    m.preorder.Sublist n.descendants := by
  obtain ⟨c, hc, hm⟩ := List.mem_flatMap.mp h
  refine (preorder_sublist hm).trans ?_
  rw [descendants, List.flatMap_def]
  exact List.sublist_flatten_of_mem (List.mem_map_of_mem hc)

/-- Some nodes of a tree in the order of the walk are what is left of the walk when **only their
identities** are kept. -/
theorem DistinctIds.filter_preorder {root : Node} (h : root.DistinctIds) {part : List Node}
    (hPart : part.Sublist root.preorder) :
    root.preorder.filter (fun m => part.any (·.id == m.id)) = part := by
  let among : Node → Bool := fun m => part.any (·.id == m.id)
  have hAll : part.filter among = part :=
    List.filter_eq_self.mpr fun m hm => List.any_eq_true.mpr ⟨m, hm, beq_self_eq_true m.id⟩
  have hLeft : part.Sublist (root.preorder.filter among) := by
    have hFilter := hPart.filter among
    rwa [hAll] at hFilter
  have hIds : ((root.preorder.filter among).map id).Nodup :=
    (List.filter_sublist.map id).nodup h
  have hSubset : (root.preorder.filter among).map id ⊆ part.map id := by
    intro i hi
    obtain ⟨m, hm, rfl⟩ := List.mem_map.mp hi
    obtain ⟨l, hl, hSame⟩ := List.any_eq_true.mp (List.mem_filter.mp hm).2
    exact List.mem_map.mpr ⟨l, hl, beq_iff_eq.mp hSame⟩
  have hLength := (hIds.subperm hSubset).length_le
  rw [List.length_map, List.length_map] at hLength
  exact (hLeft.eq_of_length_le hLength).symm

end Ast.Node

namespace ArrayChain

/-! ### One step -/

/-- What the method of a call is called **on**: `a` for `a.map(f)`. -/
def receiver : Slot → Slot
  | .node n =>
    match n.slot .callee with
    | .node callee => callee.slot .object
    | _ => .absent
  | _ => .absent

theorem receiver_node {n callee : Node} (h : n.slot .callee = .node callee) :
    receiver (.node n) = callee.slot .object := by
  rw [receiver, h]

theorem methodCallee?_eq_some_iff {s : Slot} {callee : Node} :
    methodCallee? s = some callee ↔
      ∃ n, s = .node n ∧ n.is .callExpression = true ∧ n.slot .callee = .node callee ∧
        callee.is .memberExpression = true := by
  cases s with
  | node n =>
    rw [methodCallee?]
    by_cases hCall : n.is .callExpression = true
    · simp [hCall, Recursion.as?_eq_some_iff]
    · simp [hCall]
  | nodes ns => simp [methodCallee?]
  | value v => simp [methodCallee?]

/-- A chain that is not empty **ends with a call**, whose receiver has a chain of one call less. -/
theorem chainLength_eq_succ {s : Slot} {k : Nat} (h : chainLength s = .ok (k + 1)) :
    ∃ n callee, s = .node n ∧ n.is .callExpression = true ∧ n.slot .callee = .node callee ∧
      callee.is .memberExpression = true ∧ chainLength (callee.slot .object) = .ok k := by
  rw [chainLength] at h
  split at h
  · cases h
  · rename_i callee hCallee
    obtain ⟨n, hs, hCall, hSlot, hMember⟩ := methodCallee?_eq_some_iff.mp hCallee
    split at h
    · cases h
    · cases h
    · cases hRest : chainLength (callee.slot .object) with
      | error e =>
        rw [hRest] at h
        cases h
      | ok l =>
        rw [hRest] at h
        cases h
        exact ⟨n, callee, hs, hCall, hSlot, hMember, hRest⟩

/-- A method call on a call begins with the **same name** as that call. -/
theorem chainRoot_of_receiver {n callee m : Node} (hCall : n.is .callExpression = true)
    (hSlot : n.slot .callee = .node callee) (hMember : callee.is .memberExpression = true)
    (hReceiver : callee.slot .object = .node m) (hm : m.is .callExpression = true) :
    chainRoot (.node n) = chainRoot (.node m) := by
  have hCallee := methodCallee?_eq_some_iff.mpr ⟨n, rfl, hCall, hSlot, hMember⟩
  have hOther : m.is .identifier = false := by
    rw [Node.is, Node.kind_of_is hm]
    rfl
  rw [chainRoot]
  split
  · rename_i hNone
    rw [hCallee] at hNone
    cases hNone
  · rename_i callee' hSome
    obtain rfl : callee = callee' := Option.some.inj (hCallee.symm.trans hSome)
    rw [hReceiver]
    simp only [Slot.node?, hOther, Bool.false_eq_true, if_false]

/-- In a well-typed tree a chain begins with a **text**. -/
theorem exists_chainRoot {root : Node} (hTyped : root.WellTyped) (s : Slot)
    (hs : ∀ n, s = .node n → n ∈ root.preorder) : ∃ name, chainRoot s = .value (.str name) := by
  fun_induction chainRoot s with
  | case1 s hNone => exact ⟨"array", rfl⟩
  | case2 s callee hCallee hNone => exact ⟨"array", rfl⟩
  | case3 s callee hCallee m hReceiver hName =>
    obtain ⟨n, rfl, -, hSlot, -⟩ := methodCallee?_eq_some_iff.mp hCallee
    have hMem := Node.slot_node (hs n rfl) hSlot
    exact hTyped.name (Node.slot_node hMem (Slot.eq_node_of_node? hReceiver)) hName
  | case4 s callee hCallee m hReceiver hName ih =>
    obtain ⟨n, rfl, -, hSlot, -⟩ := methodCallee?_eq_some_iff.mp hCallee
    exact ih fun l hl => Node.slot_node (Node.slot_node (hs n rfl) hSlot) hl

/-! ### Whole chains -/

/-- The list of the **calls of the chain** that ends with `s`, the last call first. -/
structure IsChain (s : Slot) (links : List Node) : Prop where
  /-- Each call is the receiver of the one before. -/
  follows : ∀ j (hj : j < links.length), receiver^[j] s = .node links[j]
  calls : ∀ m ∈ links, m.is .callExpression = true
  /-- The lengths go down by one. -/
  lengths : ∀ j (hj : j < links.length), chainLength (.node links[j]) = .ok (links.length - j)
  /-- All calls begin with the same name. -/
  roots : ∀ m ∈ links, chainRoot (.node m) = chainRoot s
  /-- The calls are visited in this order. -/
  order : ∀ n, s = .node n → links.Sublist n.preorder

theorem IsChain.nil (s : Slot) : IsChain s [] where
  follows := by
    intro j hj
    cases hj
  calls := by simp
  lengths := by
    intro j hj
    cases hj
  roots := by simp
  order := fun n _ => List.nil_sublist n.preorder

/-- A chain is **continued** by a method call on its last call. -/
theorem IsChain.cons {n callee : Node} {links : List Node}
    (h : IsChain (callee.slot .object) links) (hCall : n.is .callExpression = true)
    (hSlot : n.slot .callee = .node callee) (hMember : callee.is .memberExpression = true)
    (hLength : chainLength (.node n) = .ok (links.length + 1)) :
    IsChain (.node n) (n :: links) where
  follows := by
    intro j hj
    cases j with
    | zero => rfl
    | succ j =>
      rw [Function.iterate_succ_apply, receiver_node hSlot]
      exact h.follows j (Nat.lt_of_succ_lt_succ hj)
  calls := List.forall_mem_cons.mpr ⟨hCall, h.calls⟩
  lengths := by
    intro j hj
    cases j with
    | zero => exact hLength
    | succ j =>
      rw [List.length_cons, Nat.add_sub_add_right]
      exact h.lengths j (Nat.lt_of_succ_lt_succ hj)
  roots := by
    rw [List.forall_mem_cons]
    refine ⟨rfl, fun m hm => ?_⟩
    -- the first of the other calls is the receiver
    obtain ⟨first, rest, rfl⟩ := List.exists_cons_of_ne_nil (List.ne_nil_of_mem hm)
    have hReceiver : callee.slot .object = .node first := h.follows 0 (Nat.zero_lt_succ _)
    rw [h.roots m hm, hReceiver]
    exact (chainRoot_of_receiver hCall hSlot hMember hReceiver
      (h.calls first List.mem_cons_self)).symm
  order := by
    rintro n' hn
    cases hn
    rw [Node.preorder_eq]
    refine List.Sublist.cons_cons n ?_
    cases links with
    | nil => exact List.nil_sublist _
    | cons first rest =>
      have hReceiver : callee.slot .object = .node first := h.follows 0 (Nat.zero_lt_succ _)
      have hBelow : first ∈ n.descendants :=
        Node.mem_descendants_of_child
          (Node.mem_preorder_of_mem_children (Node.mem_children_of_slot hSlot))
          (Node.mem_children_of_slot hReceiver)
      exact (h.order first hReceiver).trans (Node.preorder_sublist_descendants hBelow)

/-- **Every chain has its calls**, as many as its length says. -/
theorem exists_isChain (k : Nat) : ∀ {s : Slot}, chainLength s = .ok k →
    ∃ links, links.length = k ∧ IsChain s links := by
  induction k with
  | zero =>
    intro s _
    exact ⟨[], rfl, .nil s⟩
  | succ k ih =>
    intro s h
    obtain ⟨n, callee, rfl, hCall, hSlot, hMember, hRest⟩ := chainLength_eq_succ h
    obtain ⟨links, rfl, hLinks⟩ := ih hRest
    exact ⟨n :: links, rfl, hLinks.cons hCall hSlot hMember h⟩

/-! ### What the rule says -/

theorem test_of_chainLength {n : Node} {k : Nat} (hCall : n.is .callExpression = true)
    (h : chainLength (.node n) = .ok k) (ctx : Context) :
    rule.matcher.test n ctx = .ok (decide (2 ≤ k)) := by
  show test n = _
  rw [test, if_pos hCall, h]
  rfl

theorem describe_of_chainLength {n : Node} {k : Nat} {name : Text}
    (h : chainLength (.node n) = .ok k) (hRoot : chainRoot (.node n) = .value (.str name))
    (ctx : Context) :
    ∃ d, rule.matcher.describe n ctx = .ok (some d) ∧
      d.metadata = ([("chain_length", .int k), ("array", .str name)] : Entries) := by
  show ∃ d, (detail n).map some = .ok (some d) ∧ _
  rw [detail, h, hRoot]
  exact ⟨_, rfl, rfl⟩

end ArrayChain

/-! ### Rules that look at nothing but the node -/

/-- The matcher says the same about a node in **every context**. -/
def Matcher.IgnoresContext (m : Matcher) : Prop :=
  ∀ n ctx ctx', m.test n ctx = m.test n ctx' ∧ m.describe n ctx = m.describe n ctx'

namespace Detection

theorem filePath_of_mem_trials (ctx : Context) :
    ∀ (ix : Index) (links : List (Node × Option Node)), ∀ t ∈ trials ctx ix links,
      t.2.filePath = ctx.filePath := by
  intro ix links
  induction links generalizing ix with
  | nil =>
    intro t ht
    cases ht
  | cons e links ih =>
    intro t ht
    rw [trials] at ht
    rcases List.mem_cons.mp ht with rfl | ht
    · rfl
    · exact ih _ t ht

theorem reports_of_ignoresContext {r : Rule} (h : r.matcher.IgnoresContext) {ctx ctx' : Context}
    (hPath : ctx'.filePath = ctx.filePath) (n : Node) :
    reports [r] n ctx' = reports [r] n ctx := by
  obtain ⟨hTest, hDescribe⟩ := h n ctx' ctx
  have hFinds : finds r n ctx' = finds r n ctx := by rw [finds, finds, hTest]
  have hReport : report r n ctx' = report r n ctx := by
    rw [report, report, detailOf, detailOf, hDescribe, hPath]
  rw [reports, reports, List.filter_singleton, List.filter_singleton, hFinds]
  cases finds r n ctx with
  | true => exact congrArg (fun m => [m]) hReport
  | false => rfl

/-- One rule alone reports the nodes that it finds, in the order of the walk. -/
theorem findings_of_ignoresContext {r : Rule} (h : r.matcher.IgnoresContext) (root : Node)
    (ctx : Context) :
    findings [r] (trials ctx .empty root.withParents)
      = (root.findAll fun n => finds r n ctx).map fun n => report r n ctx := by
  have hSame : ∀ t ∈ trials ctx .empty root.withParents,
      reports [r] t.1 t.2 = reports [r] t.1 ctx := by
    intro t ht
    exact reports_of_ignoresContext h (filePath_of_mem_trials ctx _ _ t ht) t.1
  have hNodes : (trials ctx .empty root.withParents).map (·.1) = root.preorder := by
    rw [map_fst_trials, root.map_fst_withParents]
  calc findings [r] (trials ctx .empty root.withParents)
      = (trials ctx .empty root.withParents).flatMap fun t => reports [r] t.1 ctx :=
        List.flatMap_congr hSame
    _ = root.preorder.flatMap fun n => reports [r] n ctx := by rw [← hNodes, List.flatMap_map]
    _ = ((candidates root.preorder [r]).filter fun p => finds p.2 p.1 ctx).map
          fun p => report p.2 p.1 ctx := flatMap_reports [r] (fun _ => ctx) root.preorder
    _ = (root.findAll fun n => finds r n ctx).map fun n => report r n ctx := by
        have hPairs : candidates root.preorder [r] = root.preorder.map fun n => (n, r) :=
          List.flatMap_pure_eq_map _ _
        rw [hPairs, List.filter_map, List.map_map]
        rfl

end Detection

/-- The matches of a rule that ignores the context are **its findings in the order of the walk**,
whatever other rules are tried. -/
theorem Registry.Sound.exists_detect {g : Registry} (h : g.Sound) {root : Node} {ctx : Context}
    {categories : List Category} {r : Rule} (hr : r ∈ g.rulesFor ctx.language categories)
    (hIgnores : r.matcher.IgnoresContext)
    (hSpans : ∀ n ∈ root.preorder, n.span.isIntegral = true) :
    ∃ ms, g.detect (some root) ctx categories = .ok ms ∧
      ms.filter (·.ruleId == r.id)
        = (root.findAll fun n => Detection.finds r n ctx).map
            fun n => Detection.report r n ctx := by
  have hAlone : (g.rulesFor ctx.language categories).filter (·.id == r.id) = [r] := by
    have hSelected := h.rulesFor_eq ctx.language categories ▸ hr
    obtain ⟨hRoster, hSelects⟩ := List.mem_filter.mp hSelected
    have hGet : g.get? r.id = some r := h.lookup_eq_some_iff.mpr ⟨hRoster, rfl⟩
    rw [h.filter_id_rulesFor, hGet, Option.toList_some, List.filter_singleton, hSelects]
    rfl
  refine ⟨_, g.detect_eq_findings ctx categories hSpans, ?_⟩
  rw [Detection.filter_id_findings, hAlone, Detection.findings_of_ignoresContext hIgnores]

/-! ### Reports on a chain -/

namespace ArrayChain

open Detection (finds report)

theorem ignoresContext : rule.matcher.IgnoresContext := fun _ _ _ => ⟨rfl, rfl⟩

theorem IsChain.test {s : Slot} {links : List Node} (h : IsChain s links) (ctx : Context)
    {j : Nat} (hj : j < links.length) :
    rule.matcher.test links[j] ctx = .ok (decide (j + 2 ≤ links.length)) := by
  rw [test_of_chainLength (h.calls _ (List.getElem_mem hj)) (h.lengths j hj)]
  congr 2
  rw [Nat.le_sub_iff_add_le (Nat.le_of_lt hj), Nat.add_comm]

/-- A rule with this test finds **all calls of a chain but one**: the call that has no other call
of the chain below it. -/
theorem IsChain.filter_finds {s : Slot} {links : List Node} (h : IsChain s links) {r : Rule}
    (hMatcher : r.matcher = rule.matcher) (ctx : Context) :
    links.filter (fun m => finds r m ctx) = links.take (links.length - 1) := by
  have hFinds : ∀ j (hj : j < links.length),
      finds r links[j] ctx = decide (j + 2 ≤ links.length) := by
    intro j hj
    rw [finds, hMatcher, h.test ctx hj]
  have hTaken : (links.take (links.length - 1)).filter (fun m => finds r m ctx)
      = links.take (links.length - 1) := by
    rw [List.filter_eq_self]
    intro m hm
    obtain ⟨j, hj, rfl⟩ := List.mem_take_iff_getElem.mp hm
    rw [hFinds j (by omega)]
    exact decide_eq_true (by omega)
  have hLeft : (links.drop (links.length - 1)).filter (fun m => finds r m ctx) = [] := by
    rw [List.filter_eq_nil_iff]
    intro m hm
    obtain ⟨j, hj, rfl⟩ := List.mem_drop_iff_getElem.mp hm
    rw [hFinds _ (by omega), decide_eq_true_eq]
    omega
  conv_lhs => rw [← List.take_append_drop (links.length - 1) links]
  rw [List.filter_append, hTaken, hLeft, List.append_nil]

/-- What is said about the calls of a chain: the lengths **go down to two**, and the name stays. -/
theorem IsChain.map_metadata {s : Slot} {links : List Node} (h : IsChain s links) {r : Rule}
    (hMatcher : r.matcher = rule.matcher) (ctx : Context) {name : Text}
    (hRoot : chainRoot s = .value (.str name)) :
    (links.take (links.length - 1)).map (fun m => (report r m ctx).detail.map Detail.metadata)
      = (List.range (links.length - 1)).map fun j =>
          some ([("chain_length", .int (links.length - j : Nat)),
            ("array", .str name)] : Entries) := by
  apply List.ext_getElem
  · simp
  · intro j hj hj'
    rw [List.length_map, List.length_range] at hj'
    have hBelow : j < links.length := by omega
    have hName := (h.roots _ (List.getElem_mem hBelow)).trans hRoot
    obtain ⟨d, hDescribe, hMetadata⟩ := describe_of_chainLength (h.lengths j hBelow) hName ctx
    rw [List.getElem_map, List.getElem_take, List.getElem_map, List.getElem_range]
    show (Detection.detailOf r links[j] ctx).map Detail.metadata = _
    rw [Detection.detailOf, hMatcher, hDescribe]
    exact congrArg some hMetadata

/-- **A chain of `k` calls is reported `k - 1` times.**  Let a node of a well-typed tree without
shared nodes have a chain of `k` calls.

* Following the receivers from this node on gives `k` calls.  Their lengths are `k`, `k - 1`, …,
  `1`, and all of them begin with the same name.
* The matcher finds all of them but the last.
* In every detection that tries a rule with this matcher, the matches of the rule are the nodes that
  the matcher finds, in the order of the walk.  The calls of the chain are among them in the order
  of the chain, each of them once, with the lengths `k`, `k - 1`, …, `2` and the common name. -/
theorem chain_reported (calls : List Registry.Call) (root n : Node) (ctx : Context)
    (categories : List Category) (r : Rule) (k : Nat) (hIds : root.DistinctIds)
    (hTyped : root.WellTyped) (hSpans : ∀ m ∈ root.preorder, m.span.isIntegral = true)
    (hMem : n ∈ root.preorder) (hLength : chainLength (.node n) = .ok k)
    (hMatcher : r.matcher = rule.matcher)
    (hRule : r ∈ (Registry.empty.run calls).1.rulesFor ctx.language categories) :
    ∃ links name ms,
      links.length = k ∧ IsChain (.node n) links ∧ chainRoot (.node n) = .value (.str name) ∧
      (∀ j (hj : j < links.length) (c : Context),
        r.matcher.test links[j] c = .ok (decide (j + 2 ≤ k))) ∧
      (Registry.empty.run calls).1.detect (some root) ctx categories = .ok ms ∧
      ms.filter (·.ruleId == r.id)
        = (root.findAll fun m => finds r m ctx).map (fun m => report r m ctx) ∧
      (root.findAll fun m => finds r m ctx).filter (fun m => links.any (·.id == m.id))
        = links.take (k - 1) ∧
      (links.take (k - 1)).map (fun m => (report r m ctx).detail.map Detail.metadata)
        = (List.range (k - 1)).map fun j =>
            some ([("chain_length", .int (k - j : Nat)), ("array", .str name)] : Entries) := by
  obtain ⟨links, rfl, hChain⟩ := exists_isChain k hLength
  obtain ⟨name, hRoot⟩ := exists_chainRoot hTyped (.node n) (by rintro m ⟨⟩; exact hMem)
  have hSound := (Registry.Sound.run calls Registry.Sound.empty).1
  obtain ⟨ms, hDetect, hReports⟩ := hSound.exists_detect hRule (hMatcher ▸ ignoresContext) hSpans
  have hOrder : links.Sublist root.preorder :=
    (hChain.order n rfl).trans (Node.preorder_sublist hMem)
  refine ⟨links, name, ms, rfl, hChain, hRoot, ?_, hDetect, hReports, ?_, ?_⟩
  · intro j hj c
    rw [hMatcher]
    exact hChain.test c hj
  · rw [Node.findAll, List.filter_filter, ← hChain.filter_finds hMatcher ctx]
    conv_rhs => rw [← hIds.filter_preorder hOrder, List.filter_filter]
    simp only [Bool.and_comm]
  · exact hChain.map_metadata hMatcher ctx hRoot

/-- The span of all nodes of `sortedChain`. -/
def sampleSpan : Ast.Span := ⟨.int 0, .int 30, ⟨.int 1, .int 0⟩, ⟨.int 1, .int 30⟩⟩

/-- A name. -/
def nameNode (number part : Nat) (name : Text) : Node :=
  .build ⟨[number], part⟩ (.known .identifier) sampleSpan [(.name, .value name)]

/-- The call of a method. -/
def methodCall (number : Nat) (object : Node) (method : Text) (arguments : List Node) : Node :=
  let callee := Node.build ⟨[number], 1⟩ (.known .memberExpression) sampleSpan
    [(.object, .node object), (.property, .node (nameNode number 2 method))]
  .build ⟨[number], 0⟩ (.known .callExpression) sampleSpan
    [(.callee, .node callee), (.arguments, .nodes arguments)]

/-- The chain `a.map(f).filter(g).sort()`. -/
def sortedChain : Node :=
  methodCall 5 (methodCall 3 (methodCall 1 (nameNode 0 0 "a") "map" [nameNode 2 0 "f"]) "filter"
    [nameNode 4 0 "g"]) "sort" []

theorem chainLength_methodCall {number : Nat} {object : Node} {method : Text}
    {arguments : List Node} (h : (Slot.value (.str method)).isOneOf methods = .ok true) :
    chainLength (.node (methodCall number object method arguments))
      = (chainLength (.node object)).map (· + 1) := by
  rw [chainLength]
  split
  · rename_i hNone
    cases hNone
  · rename_i callee hCallee
    cases hCallee
    split
    · rename_i hOther
      cases h.symm.trans hOther
    · rename_i hOther
      cases h.symm.trans hOther
    · rfl

theorem chainLength_sortedChain : chainLength (.node sortedChain) = .ok 3 := by
  have hName : chainLength (.node (nameNode 0 0 "a")) = .ok 0 := by
    rw [chainLength]
    rfl
  rw [sortedChain, chainLength_methodCall rfl, chainLength_methodCall rfl,
    chainLength_methodCall rfl, hName]
  rfl

theorem chainRoot_sortedChain : chainRoot (.node sortedChain) = .value "a" := by
  rw [chainRoot]
  show chainRoot _ = _
  rw [chainRoot]
  show chainRoot _ = _
  rw [chainRoot]
  rfl

theorem chain_reported_sortedChain :
    sortedChain.DistinctIds ∧ sortedChain.WellTyped ∧ chainLength (.node sortedChain) = .ok 3 ∧
      ∃ links ms, links.length = 3 ∧ IsChain (.node sortedChain) links ∧
        (Registry.empty.run [.registerAll Rule.catalog]).1.detect (some sortedChain)
          Registry.evalContext [] = .ok ms ∧
        (sortedChain.findAll fun m => finds rule m Registry.evalContext).filter
          (fun m => links.any (·.id == m.id)) = links.take 2 ∧
        (links.take 2).map (fun m =>
            (report rule m Registry.evalContext).detail.map Detail.metadata)
          = ([some [("chain_length", .int 3), ("array", .str "a")],
              some [("chain_length", .int 2), ("array", .str "a")]] : List (Option Entries)) := by
  have hIds : sortedChain.DistinctIds := by decide +kernel
  have hTyped : sortedChain.WellTyped := by decide +kernel
  have hSpans : (sortedChain.preorder.all fun n => n.span.isIntegral) = true := by decide +kernel
  have hRule : rule ∈ (Registry.empty.run [.registerAll Rule.catalog]).1.rulesFor
      Registry.evalContext.language [] := by
    show rule ∈ Registry.standard.rulesFor _ _
    rw [Registry.sound_standard.rulesFor_eq, Registry.roster_standard]
    exact List.mem_filter.mpr ⟨by simp [Rule.catalog], by decide⟩
  obtain ⟨links, name, ms, hCount, hChain, hName, -, hDetect, -, hReported, hMetadata⟩ :=
    chain_reported [.registerAll Rule.catalog] sortedChain sortedChain Registry.evalContext [] rule
      3 hIds hTyped (List.all_eq_true.mp hSpans) sortedChain.mem_preorder_self
      chainLength_sortedChain rfl hRule
  obtain rfl : name = "a" := by
    rw [chainRoot_sortedChain] at hName
    cases hName
    rfl
  exact ⟨hIds, hTyped, chainLength_sortedChain, links, ms, hCount, hChain, hDetect, hReported,
    hMetadata⟩

end ArrayChain

end ScriptLint
