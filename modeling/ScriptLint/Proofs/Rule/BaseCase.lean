import ScriptLint.Proofs.Ast.Swap
import ScriptLint.Proofs.Rule.Recursion

/-!
# The base case of a recursive function

A recursive function has a base case if one of its exits does not recurse.  The exits are what the
function itself returns: the return statements of nested functions do not count, so a nested
function may be replaced by another one without any effect on the exits.

* `returned`, `ownReturns_eq`: what is returned below a node, child by child.
* `ownReturns_eq_of_swap`, `returned_eq_of_swapped`: one step up from the place of a nested
  function, and all steps up to the body.
* `exits_eq_of_swapped`: a nested function outside of the exits has no effect on them.
* `HasStop`, `hasStop_iff`: an exit that is empty, or that holds no call of the function.
* `baseCase_iff_hasStop`: all of this for a well-typed function.
-/

namespace ScriptLint.Recursion

open Ast (Node Slot Index Swapped)

/-! ### Return statements -/

/-- What the return statements of the own scope return. -/
def ownReturns (n : Node) : List Slot :=
  (n.ownScope.filter fun m => m.is .returnStatement).map fun m => m.slot .argument

/-- What is returned **at** a node or in its own scope.  What a function returns stays inside. -/
def returned (n : Node) : List Slot :=
  (if n.is .returnStatement then [n.slot .argument] else []) ++
    if n.isFunction then [] else ownReturns n

theorem ownReturns_eq (n : Node) : ownReturns n = n.children.flatMap returned := by
  rw [ownReturns, n.ownScope_eq, List.filter_flatMap, List.map_flatMap]
  refine List.flatMap_congr fun c _ => ?_
  unfold returned ownReturns
  rw [List.filter_cons]
  by_cases hReturn : c.is .returnStatement = true <;>
    by_cases hFunction : c.isFunction = true <;> simp [hReturn, hFunction]

theorem returned_of_isFunction {n : Node} (h : n.isFunction = true) : returned n = [] := by
  rw [returned, Node.is_eq_false_of_isFunction h rfl, if_pos h]
  rfl

/-- If the child returns the same, so does the node. -/
theorem ownReturns_eq_of_swap {c c' n n' : Node} (h : Node.Swap c c' n n')
    (hChild : returned c' = returned c) : ownReturns n' = ownReturns n := by
  obtain ⟨l, r, hn, hn'⟩ := h.children_eq
  rw [ownReturns_eq, ownReturns_eq, hn, hn', List.flatMap_append, List.flatMap_append,
    List.flatMap_cons, List.flatMap_cons, hChild]

/-- What is outside of all that is returned **has no effect** on it. -/
theorem returned_eq_of_swapped {g g' n n' : Node} (hg : g.isFunction = true)
    (hg' : g'.isFunction = true) (h : Swapped g g' n n') :
    (∀ s ∈ returned n, g ∉ s.subtree) → returned n' = returned n := by
  -- by induction on the place: there both are functions, and above it one child has changed
  induction h with
  | here => intro _; rw [returned_of_isFunction hg, returned_of_isFunction hg']
  | @inside c c' n n' hStep h ih =>
    intro hOut
    by_cases hFunction : n.isFunction = true
    · have hFunction' : n'.isFunction = true := by rwa [hStep.isFunction_eq]
      rw [returned_of_isFunction hFunction, returned_of_isFunction hFunction']
    · have hBelow : returned c' = returned c := by
        refine ih fun s hs => hOut s ?_
        rw [returned, if_neg hFunction, ownReturns_eq]
        refine List.mem_append_right _ (List.mem_flatMap.mpr ⟨c, hStep.mem_children, hs⟩)
      unfold returned
      rw [hStep.is_eq, hStep.isFunction_eq, ownReturns_eq_of_swap hStep hBelow]
      refine congrArg (· ++ _) ?_
      by_cases hReturn : n.is .returnStatement = true
      · rw [if_pos hReturn, if_pos hReturn]
        rcases hStep.slot_cases .argument with hEq | hSlot
        · rw [hEq]
        · -- the argument holds the changed child
          refine absurd ?_ (hOut (n.slot .argument) ?_)
          · exact List.mem_flatMap.mpr ⟨c, hSlot.mem_children, h.mem_preorder⟩
          · rw [returned, if_pos hReturn]
            exact List.mem_append_left _ List.mem_cons_self
      · rw [if_neg hReturn, if_neg hReturn]

/-! ### Exits -/

theorem exits_of_arrow {f : Node} (body : Slot)
    (h : (f.is .arrowFunctionExpression && (f.slot .expression).truthy) = true) :
    exits f body = [body] := by
  rw [exits, if_pos h]

theorem exits_node {f : Node} (b : Node)
    (h : ¬ (f.is .arrowFunctionExpression && (f.slot .expression).truthy) = true) :
    exits f (.node b) = ownReturns b := by
  have hPart : (Slot.node b).IsPartOf b := .inr ⟨b, b.mem_preorder_self, rfl⟩
  have hValues := exitValues_eq (f := f) hPart
  rw [exitValues, if_neg h] at hValues
  exact (Except.ok.inj hValues).symm

/-- A nested function outside of the exits **has no effect** on them, unless it is the body. -/
theorem exits_eq_of_swapped {f f' g g' : Node} {params params' : List Node} {body body' : Slot}
    (hf : TypedFunction f params body) (hf' : TypedFunction f' params' body')
    (hg : g.isFunction = true) (hg' : g'.isFunction = true) (hBelow : g ∈ f.descendants)
    (h : Swapped g g' f f') (hBody : body ≠ .node g)
    (hOut : ∀ s ∈ exits f body, g ∉ s.subtree) : exits f' body' = exits f body := by
  obtain ⟨c, c', hStep, h⟩ := h.exists_swap (Node.ne_of_mem_descendants hBelow)
  have hArrow : (f'.is .arrowFunctionExpression && (f'.slot .expression).truthy)
      = (f.is .arrowFunctionExpression && (f.slot .expression).truthy) := by
    rw [hStep.is_eq]
    refine congrArg _ ?_
    rcases hStep.slot_cases .expression with hEq | hSlot
    · rw [hEq]
    · exact hSlot.truthy_eq
  rcases hStep.slot?_cases .body with hEq | ⟨s, s', hs, hs', hSlot⟩
  · have hSame : body' = body := by
      rw [hf.hasBody, hf'.hasBody] at hEq
      exact Option.some.inj hEq
    rw [exits, exits, hArrow, hSame]
  · obtain rfl : s = body := Option.some.inj (hs.symm.trans hf.hasBody)
    obtain rfl : s' = body' := Option.some.inj (hs'.symm.trans hf'.hasBody)
    cases hSlot with
    | nodes l r => rcases hf.nodeOrNone with hNone | ⟨b, hb⟩ <;> contradiction
    | node =>
      by_cases hExpression : (f.is .arrowFunctionExpression && (f.slot .expression).truthy) = true
      · -- the body is the only exit, and the nested function is in it
        refine absurd ?_ (hOut (.node c) ?_)
        · rw [Slot.subtree_node]
          exact h.mem_preorder
        · rw [exits_of_arrow _ hExpression]
          exact List.mem_cons_self
      · have hNe : c ≠ g := fun hEq => hBody (by rw [hEq])
        obtain ⟨d, d', hStep', h⟩ := h.exists_swap hNe
        rw [exits_node c hExpression] at hOut
        rw [exits_node c hExpression, exits_node c' (by rwa [hArrow])]
        refine ownReturns_eq_of_swap hStep' (returned_eq_of_swapped hg hg' h fun s hs => hOut s ?_)
        rw [ownReturns_eq]
        exact List.mem_flatMap.mpr ⟨d, hStep'.mem_children, hs⟩

/-! ### Stops -/

/-- A leaf of the exits is **empty**, or **no node** in it calls the function. -/
def HasStop (name : Option Text) (f : Node) (body : Slot) : Prop :=
  ∃ leaf ∈ (exits f body).flatMap leaves, leaf = .absent ∨ ∀ n ∈ leaf.subtree, ¬ Calls name n

theorem hasStop_iff {name : Option Text} {f : Node} {body : Slot} :
    HasStop name f body ↔ ∃ leaf ∈ (exits f body).flatMap leaves, Stops (ofName name) leaf := by
  unfold HasStop Stops
  simp only [isSelfCall_ofName_iff]
  refine exists_congr fun leaf => and_congr_right fun _ => ⟨?_, .inr⟩
  rintro (rfl | hNone)
  · intro n hn
    cases hn
  · exact hNone

/-- A function with one exit, which is no conditional. -/
theorem hasStop_of_exits_eq {name : Option Text} {f : Node} {body s : Slot}
    (hExits : exits f body = [s]) (hLeaf : s.as? .conditionalExpression = none) :
    HasStop name f body ↔ s = .absent ∨ ∀ n ∈ s.subtree, ¬ Calls name n := by
  rw [HasStop, hExits, List.flatMap_singleton, leaves_of_none hLeaf]
  simp only [List.mem_singleton, exists_eq_left]

namespace TypedFunction

variable {f : Node} {params : List Node} {body : Slot}

/-- Where a well-typed function calls itself, its name is a **text**, or it has none. -/
theorem exists_isSelfCall_iff (h : TypedFunction f params body) {name : Slot} :
    (∃ n ∈ body.subtree, isSelfCall name n = true) ↔
      ∃ known, name = ofName known ∧ ∃ n ∈ body.subtree, Calls known n := by
  constructor
  · rintro ⟨n, hn, hSelf⟩
    obtain ⟨known, rfl⟩ :=
      exists_ofName_of_isSelfCall h.typed (h.isPartOf.subtree_subset hn) hSelf
    exact ⟨known, rfl, n, hn, isSelfCall_ofName_iff.mp hSelf⟩
  · rintro ⟨known, rfl, n, hn, hCalls⟩
    exact ⟨n, hn, isSelfCall_ofName_iff.mpr hCalls⟩

/-- What is known about a well-typed function that **calls** itself. -/
theorem exists_of_calls (h : TypedFunction f params body) {name : Option Text} {ix : Option Index}
    (hName : f.functionName ix = ofName name) (hCalls : ∃ n ∈ body.subtree, Calls name n) :
    ∃ r, ofFunction f ix = .ok r ∧ r.isRecursive = true ∧
      (r.lacksBaseCase = false ↔ HasStop name f body) := by
  obtain ⟨r, hr, hEq, hRecursive, -, hBase⟩ := h.exists_ofFunction ix
  rw [hEq, hName] at hRecursive hBase
  have hTrue := hRecursive.mpr (h.exists_isSelfCall_iff.mpr ⟨name, rfl, hCalls⟩)
  exact ⟨r, hr, hTrue, by rw [hBase hTrue, hasStop_iff]⟩

end TypedFunction

/-- **What a base case is.**  For a well-typed function:

* the exits are found, and they are split into exactly the leaves below their conditionals, from
  the last one to the first one;
* for every name, the question for a base case has an answer: whether some leaf is empty or has no
  call of the name;
* if the function is recursive, it lacks a base case if and only if there is no such leaf;
* as long as the function stays recursive, this does not change when a nested function is replaced,
  unless it is in an exit or is the body itself. -/
theorem baseCase_iff_hasStop (f : Node) (params : List Node) (body : Slot)
    (h : TypedFunction f params body) :
    (exitValues f body = .ok (exits f body) ∧
      exitLeaves (exits f body).reverse = ((exits f body).flatMap leaves).reverse) ∧
    (∀ name, ∃ found, hasBaseCase (ofName name) f body = .ok found ∧
      (found = true ↔ HasStop name f body)) ∧
    (∀ ix, ∃ r, ofFunction f ix = .ok r ∧
      (r.isRecursive = true ↔
        ∃ name, f.functionName ix = ofName name ∧ ∃ n ∈ body.subtree, Calls name n) ∧
      (r.isRecursive = true → ∀ name, f.functionName ix = ofName name →
        (r.lacksBaseCase = false ↔ HasStop name f body))) ∧
    ∀ g g' f' params' body', TypedFunction f' params' body' → g.isFunction = true →
      g'.isFunction = true → g ∈ f.descendants → Swapped g g' f f' → body ≠ .node g →
      (∀ s ∈ exits f body, g ∉ s.subtree) →
        (∀ ix, f'.functionName ix = f.functionName ix) ∧
        ∀ ix ix', f'.functionName ix' = f.functionName ix →
          ∃ r r', ofFunction f ix = .ok r ∧ ofFunction f' ix' = .ok r' ∧
            (r.isRecursive = true → r'.isRecursive = true →
              r'.lacksBaseCase = r.lacksBaseCase) := by
  refine ⟨⟨exitValues_eq h.isPartOf, exitLeaves_reverse _⟩, fun name => ?_, fun ix => ?_, ?_⟩
  · obtain ⟨found, hFound, hIff⟩ := hasBaseCase_decides (ofName name) h.typed h.isPartOf
    exact ⟨found, hFound, hIff.trans hasStop_iff.symm⟩
  · obtain ⟨r, hr, hName, hRecursive, -, hBase⟩ := h.exists_ofFunction ix
    rw [hName, h.exists_isSelfCall_iff] at hRecursive
    refine ⟨r, hr, hRecursive, fun hTrue name hKnown => ?_⟩
    rw [hBase hTrue, hName, hKnown, hasStop_iff]
  · intro g g' f' params' body' h' hg hg' hBelow hSwapped hBody hOut
    refine ⟨hSwapped.functionName_eq (Node.ne_of_mem_descendants hBelow) h.typed hg hg', ?_⟩
    intro ix ix' hSame
    obtain ⟨r, hr, hName, -, -, hBase⟩ := h.exists_ofFunction ix
    obtain ⟨r', hr', hName', -, -, hBase'⟩ := h'.exists_ofFunction ix'
    refine ⟨r, r', hr, hr', fun hTrue hTrue' => ?_⟩
    have hIff : r'.lacksBaseCase = false ↔ r.lacksBaseCase = false := by
      rw [hBase hTrue, hBase' hTrue', hName, hName', hSame,
        exits_eq_of_swapped h h' hg hg' hBelow hSwapped hBody hOut]
    rw [Bool.eq_iff_iff, ← not_iff_not]
    simpa using hIff

/-! ### Small functions -/

theorem swap_sampleFunction (params : List Node) (b b' : Node) :
    Node.Swap b b' (sampleFunction params b) (sampleFunction params b') :=
  .inField _ _ _ [(.id, .node (sampleName 1 "f")), (.params, .nodes params)] .body _ .node

theorem mem_descendants_sampleFunction {params : List Node} {b g : Node} (h : g ∈ b.preorder) :
    g ∈ (sampleFunction params b).descendants :=
  List.mem_flatMap.mpr ⟨b, (swap_sampleFunction params b b).mem_children, h⟩

theorem exits_sampleFunction (params : List Node) (b : Node) :
    exits (sampleFunction params b) (.node b) = b.children.flatMap returned := by
  rw [← ownReturns_eq]
  exact exits_node b Bool.false_ne_true

theorem returned_sampleReturn (part : Nat) {v : Node} (h : (returned v).isEmpty = true) :
    returned (sampleReturn part v) = [.node v] := by
  have hBelow : ownReturns (sampleReturn part v) = returned v ++ [] := ownReturns_eq _
  show [.node v] ++ ownReturns (sampleReturn part v) = _
  rw [hBelow, List.isEmpty_iff.mp h]
  rfl

/-- There is no function in `f()`. -/
theorem not_mem_sampleCall {g : Node} (h : g.isFunction = true) (part : Nat) :
    g ∉ (Slot.node (sampleCall part [])).subtree := by
  have hNodes : (sampleCall part []).preorder
      = [sampleCall part [], sampleName (part + 1) "f"] := by
    rw [Node.preorder_eq]
    show _ :: ((sampleName (part + 1) "f").preorder ++ []) = _
    rw [Node.preorder_eq]
    rfl
  rw [Slot.subtree_node, hNodes, List.mem_pair]
  rintro (rfl | rfl) <;> cases h

/-- If all that is returned is a call of the function, it **does not stop**. -/
theorem not_hasStop_of_exits_eq_call {f : Node} {body : Slot} {part : Nat} {args : List Node}
    (h : exits f body = [.node (sampleCall part args)]) : ¬ HasStop (some "f") f body := by
  rw [hasStop_of_exits_eq h rfl]
  rintro (hNone | hNone)
  · cases hNone
  · refine hNone _ ?_ (calls_sampleCall part args)
    rw [Slot.subtree_node]
    exact Node.mem_preorder_self _

/-- The arrow function `() => value`. -/
def sampleArrow (value : Node) : Node :=
  sample 6 (.known .arrowFunctionExpression)
    [(.body, .node value), (.expression, .value (.bool true))]

/-- The body of `function f() { () => value; return f() }`. -/
def arrowBody (value : Node) : Node :=
  sampleBlock 2 [sampleArrow value, sampleReturn 3 (sampleCall 4 [])]

theorem exits_arrowBody (v : Node) :
    exits (sampleFunction [] (arrowBody v)) (.node (arrowBody v)) = [.node (sampleCall 4 [])] := by
  rw [exits_sampleFunction]
  show returned (sampleArrow v) ++ (returned (sampleReturn 3 (sampleCall 4 [])) ++ []) = _
  rw [returned_of_isFunction rfl, returned_sampleReturn 3 (by decide +kernel)]
  rfl

theorem calls_arrowBody (v : Node) :
    ∃ n ∈ (Slot.node (arrowBody v)).subtree, Calls (some "f") n := by
  refine ⟨_, ?_, calls_sampleCall 4 []⟩
  rw [Slot.subtree_node]
  apply Node.mem_preorder_trans (b := sampleReturn 3 (sampleCall 4 []))
  · apply Node.mem_preorder_of_mem_children
    exact List.mem_cons_of_mem _ List.mem_cons_self
  · exact Node.mem_preorder_of_mem_children List.mem_cons_self

/-- In `function f() { () => a; return f() }` the arrow function may as well be `() => f()`. -/
theorem baseCase_iff_hasStop_arrowBody :
    ∃ r r', ofFunction (sampleFunction [] (arrowBody (sampleName 7 "a"))) none = .ok r ∧
      ofFunction (sampleFunction [] (arrowBody (sampleCall 7 []))) none = .ok r' ∧
      r.lacksBaseCase = true ∧ r'.lacksBaseCase = true := by
  have hTyped : TypedFunction (sampleFunction [] (arrowBody (sampleName 7 "a"))) []
      (.node (arrowBody (sampleName 7 "a"))) := ⟨rfl, by decide +kernel, rfl, rfl, .inr ⟨_, rfl⟩⟩
  have hTyped' : TypedFunction (sampleFunction [] (arrowBody (sampleCall 7 []))) []
      (.node (arrowBody (sampleCall 7 []))) := ⟨rfl, by decide +kernel, rfl, rfl, .inr ⟨_, rfl⟩⟩
  have hSwapped : Swapped (sampleArrow (sampleName 7 "a")) (sampleArrow (sampleCall 7 []))
      (sampleFunction [] (arrowBody (sampleName 7 "a")))
      (sampleFunction [] (arrowBody (sampleCall 7 []))) := by
    refine .inside (swap_sampleFunction [] _ _) (.inside ?_ .here)
    exact .inField _ _ _ [] .body [] (.nodes [] [sampleReturn 3 (sampleCall 4 [])])
  have hBody : Slot.node (arrowBody (sampleName 7 "a"))
      ≠ .node (sampleArrow (sampleName 7 "a")) := by
    intro hEq
    cases hEq
  have hOut : ∀ s ∈ exits (sampleFunction [] (arrowBody (sampleName 7 "a")))
      (.node (arrowBody (sampleName 7 "a"))), sampleArrow (sampleName 7 "a") ∉ s.subtree := by
    intro s hs
    rw [exits_arrowBody, List.mem_singleton] at hs
    rw [hs]
    exact not_mem_sampleCall rfl 4
  obtain ⟨-, -, -, hReplace⟩ := baseCase_iff_hasStop _ _ _ hTyped
  obtain ⟨-, hSame⟩ := hReplace _ _ _ _ _ hTyped' rfl rfl
    (mem_descendants_sampleFunction (Node.mem_preorder_of_mem_children List.mem_cons_self))
    hSwapped hBody hOut
  obtain ⟨r, r', hr, hr', hEq⟩ := hSame none none rfl
  obtain ⟨s, hs, hTrue, hBase⟩ := hTyped.exists_of_calls rfl (calls_arrowBody _)
  obtain ⟨s', hs', hTrue', -⟩ := hTyped'.exists_of_calls rfl (calls_arrowBody _)
  obtain rfl : r = s := Except.ok.inj (hr.symm.trans hs)
  obtain rfl : r' = s' := Except.ok.inj (hr'.symm.trans hs')
  have hLacks : r.lacksBaseCase = true := by
    rw [← Bool.not_eq_false, hBase]
    exact not_hasStop_of_exits_eq_call (exits_arrowBody _)
  exact ⟨r, r', hr, hr', hLacks, (hEq hTrue hTrue').trans hLacks⟩

/-- A function `function () { … }` that stands in place of a body. -/
def functionBody (statements : List Node) : Node :=
  sample 2 (.known .functionExpression) [(.body, .node (sampleBlock 3 statements))]

theorem exits_functionBody (statements : List Node) :
    exits (sampleFunction [] (functionBody statements)) (.node (functionBody statements))
      = statements.flatMap returned := by
  have hBlock : returned (sampleBlock 3 statements) = statements.flatMap returned := by
    show ownReturns (sampleBlock 3 statements) = _
    rw [ownReturns_eq]
    show (statements ++ []).flatMap returned = _
    rw [List.append_nil]
  rw [exits_sampleFunction]
  show returned (sampleBlock 3 statements) ++ [] = _
  rw [hBlock, List.append_nil]

theorem mem_subtree_functionBody {statements : List Node} {n s : Node} (hs : s ∈ statements)
    (hn : n ∈ s.preorder) : n ∈ (Slot.node (functionBody statements)).subtree := by
  rw [Slot.subtree_node]
  apply Node.mem_preorder_trans (Node.mem_preorder_of_mem_children List.mem_cons_self)
  refine Node.mem_preorder_trans (Node.mem_preorder_of_mem_children ?_) hn
  exact List.mem_append_left [] hs

/-- The function `function () { return f() }`, in place of the body of `f`. -/
def loopingBody : Node := functionBody [sampleReturn 4 (sampleCall 5 [])]

/-- The function `function () { f(); return a }`, in place of the body of `f`. -/
def stoppingBody : Node := functionBody [sampleCall 4 [], sampleReturn 6 (sampleName 7 "a")]

/-- If the body itself is a function, what it returns counts.  So a function that is outside of all
exits, and is replaced, may **change** whether there is a base case. -/
theorem lacksBaseCase_loopingBody_stoppingBody :
    TypedFunction (sampleFunction [] loopingBody) [] (.node loopingBody) ∧
    TypedFunction (sampleFunction [] stoppingBody) [] (.node stoppingBody) ∧
    loopingBody.isFunction = true ∧ stoppingBody.isFunction = true ∧
    loopingBody ∈ (sampleFunction [] loopingBody).descendants ∧
    Swapped loopingBody stoppingBody (sampleFunction [] loopingBody)
      (sampleFunction [] stoppingBody) ∧
    (∀ s ∈ exits (sampleFunction [] loopingBody) (.node loopingBody), loopingBody ∉ s.subtree) ∧
    ∃ r r', ofFunction (sampleFunction [] loopingBody) none = .ok r ∧
      ofFunction (sampleFunction [] stoppingBody) none = .ok r' ∧
      r.isRecursive = true ∧ r'.isRecursive = true ∧
      r.lacksBaseCase = true ∧ r'.lacksBaseCase = false := by
  have hTyped : TypedFunction (sampleFunction [] loopingBody) [] (.node loopingBody) :=
    ⟨rfl, by decide +kernel, rfl, rfl, .inr ⟨_, rfl⟩⟩
  have hTyped' : TypedFunction (sampleFunction [] stoppingBody) [] (.node stoppingBody) :=
    ⟨rfl, by decide +kernel, rfl, rfl, .inr ⟨_, rfl⟩⟩
  have hExits : exits (sampleFunction [] loopingBody) (.node loopingBody)
      = [.node (sampleCall 5 [])] := by
    rw [loopingBody, exits_functionBody, List.flatMap_singleton,
      returned_sampleReturn 4 (by decide +kernel)]
  have hExits' : exits (sampleFunction [] stoppingBody) (.node stoppingBody)
      = [.node (sampleName 7 "a")] := by
    have hCall : returned (sampleCall 4 []) = [] := by
      rw [← List.isEmpty_iff]
      decide +kernel
    rw [stoppingBody, exits_functionBody, List.flatMap_cons, List.flatMap_singleton, hCall,
      returned_sampleReturn 6 (by decide +kernel), List.nil_append]
  refine ⟨hTyped, hTyped', rfl, rfl, mem_descendants_sampleFunction loopingBody.mem_preorder_self,
    .inside (swap_sampleFunction [] _ _) .here, ?_, ?_⟩
  · intro s hs
    rw [hExits, List.mem_singleton] at hs
    rw [hs]
    exact not_mem_sampleCall rfl 5
  · obtain ⟨r, hr, hTrue, hBase⟩ := hTyped.exists_of_calls rfl
      ⟨_, mem_subtree_functionBody List.mem_cons_self
        (Node.mem_preorder_of_mem_children List.mem_cons_self), calls_sampleCall 5 []⟩
    obtain ⟨r', hr', hTrue', hBase'⟩ := hTyped'.exists_of_calls rfl
      ⟨_, mem_subtree_functionBody List.mem_cons_self (Node.mem_preorder_self _),
        calls_sampleCall 4 []⟩
    refine ⟨r, r', hr, hr', hTrue, hTrue', ?_, ?_⟩
    · rw [← Bool.not_eq_false, hBase]
      exact not_hasStop_of_exits_eq_call hExits
    · have hNone : ∀ n ∈ (Slot.node (sampleName 7 "a")).subtree, n.is .callExpression = false := by
        decide +kernel
      rw [hBase', hasStop_of_exits_eq hExits' rfl]
      refine .inr fun n hn hCalls => ?_
      exact Bool.false_ne_true ((hNone n hn).symm.trans hCalls.1)

end ScriptLint.Recursion
