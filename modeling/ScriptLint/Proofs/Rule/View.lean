import ScriptLint.Proofs.Ast.Index
import ScriptLint.Registry.Detection

/-!
# What a rule sees of an index

A rule that is tried at a node asks the index about that node, about its ancestors and about the
parents of these, and about nothing else.  So two indexes that tell the same about the node
(`Index.SameView`) lead every rule of the catalog to the same verdict and the same words.

* `insideLoop_congr`, `insideFunction_congr`, `isStored_congr`, `functionName_congr`: the four
  questions that lead to an index.
* `Matcher.SeesOnlyAround`: the verdict and the words of a matcher depend on no other part of an
  index.
* `catalog_seesOnlyAround`: this holds of every rule of the catalog.
-/

namespace ScriptLint

open Ast (Node Index)
open Detection (contextAt)

variable {ix iy : Index} {n : Node}

/-! ### The questions -/

theorem Containment.isIterationCallback_congr {a : Node} (h : ix.parent? a = iy.parent? a) :
    isIterationCallback ix a = isIterationCallback iy a := by
  rw [isIterationCallback, h, isIterationCallback]

theorem Containment.climb_congr (helpers : Bool) : ∀ (child : Node) (above : List Node),
    (∀ a ∈ above, ix.parent? a = iy.parent? a) →
    climb ix helpers child above = climb iy helpers child above := by
  intro child above
  induction above generalizing child with
  | nil => intro _; rfl
  | cons a above ih =>
    intro h
    have hRest := ih a (fun b hb => h b (List.mem_cons_of_mem _ hb))
    rw [climb, climb, hRest, isIterationCallback_congr (h a List.mem_cons_self)]

theorem Containment.structural_congr (h : Index.SameView ix iy n) (helpers : Bool) :
    structural ix helpers n = structural iy helpers n := by
  rw [structural, structural, h.ancestors]
  exact climb_congr helpers n _ h.around

namespace Context

/-- In a context whose index knows the node, the index answers. -/
theorem indexFor?_contextAt (ctx : Context) (h : ix.knows n = true) :
    (contextAt ctx ix n).indexFor? n = some ix := by
  show (some ix).filter (fun ix => ix.knows n) = some ix
  rw [Option.filter_some, if_pos h]

theorem insideLoop_contextAt (ctx : Context) (h : ix.knows n = true) (helpers : Bool) :
    (contextAt ctx ix n).insideLoop helpers n = Containment.structural ix helpers n := by
  rw [insideLoop, indexFor?_contextAt ctx h]

theorem insideLoop_congr (ctx : Context) (h : Index.SameView ix iy n) (helpers : Bool) :
    (contextAt ctx ix n).insideLoop helpers n = (contextAt ctx iy n).insideLoop helpers n := by
  rw [insideLoop_contextAt ctx h.left, insideLoop_contextAt ctx h.right,
    Containment.structural_congr h]

end Context

namespace Leak

theorem insideFunction_congr (ctx : Context) (h : Index.SameView ix iy n) (hints : List Text) :
    insideFunction (contextAt ctx ix n) hints n = insideFunction (contextAt ctx iy n) hints n := by
  rw [insideFunction, insideFunction, Context.indexFor?_contextAt ctx h.left,
    Context.indexFor?_contextAt ctx h.right]
  show Except.ok _ = Except.ok _
  rw [Index.nearestFunction?, Index.nearestFunction?, h.ancestors]

theorem isStored_congr (ctx : Context) (h : Index.SameView ix iy n) :
    isStored (contextAt ctx ix n) n = isStored (contextAt ctx iy n) n := by
  rw [isStored, isStored, Context.indexFor?_contextAt ctx h.left,
    Context.indexFor?_contextAt ctx h.right]
  simp only [h.parent]

theorem leak?_congr (ctx : Context) (h : Index.SameView ix iy n) :
    leak? n (contextAt ctx ix n) = leak? n (contextAt ctx iy n) := by
  have hSource : (contextAt ctx ix n).source = (contextAt ctx iy n).source := rfl
  rw [leak?, leak?, isListener, isListener, isTimer, isTimer, isDomReference, isDomReference,
    insideFunction_congr ctx h, insideFunction_congr ctx h, isStored_congr ctx h, hSource]

theorem detail_congr (ctx : Context) (h : Index.SameView ix iy n) :
    detail n (contextAt ctx ix n) = detail n (contextAt ctx iy n) := by
  rw [detail, detail, leak?_congr ctx h]

end Leak

namespace Recursion

theorem functionName_congr (h : Index.SameView ix iy n) :
    n.functionName (some ix) = n.functionName (some iy) := by
  rw [Node.functionName, Node.functionName]
  simp only [h.parent]

theorem ofFunction_congr (h : Index.SameView ix iy n) :
    ofFunction n (some ix) = ofFunction n (some iy) := by
  rw [ofFunction, ofFunction, functionName_congr h]

end Recursion

/-! ### The rules -/

/-- Verdict and words of the matcher at a node depend on the index only through what it tells
about the node and its surroundings. -/
def Matcher.SeesOnlyAround (m : Matcher) : Prop :=
  ∀ (ctx : Context) (ix iy : Index) (n : Node), Index.SameView ix iy n →
    m.test n (contextAt ctx ix n) = m.test n (contextAt ctx iy n) ∧
      m.describe n (contextAt ctx ix n) = m.describe n (contextAt ctx iy n)

theorem StringBuilding.seesOnlyAround : StringBuilding.rule.matcher.SeesOnlyAround := by
  intro ctx ix iy n h
  refine ⟨?_, rfl⟩
  show StringBuilding.test _ _ = StringBuilding.test _ _
  rw [StringBuilding.test, StringBuilding.test, Context.insideLoop_congr ctx h]

theorem LoopWork.domOperations_seesOnlyAround : LoopWork.domOperations.matcher.SeesOnlyAround := by
  intro ctx ix iy n h
  refine ⟨?_, rfl⟩
  show LoopWork.domTest _ _ = LoopWork.domTest _ _
  rw [LoopWork.domTest, LoopWork.domTest, Context.insideLoop_congr ctx h]

theorem LoopWork.costlyCalls_seesOnlyAround : LoopWork.costlyCalls.matcher.SeesOnlyAround := by
  intro ctx ix iy n h
  refine ⟨?_, rfl⟩
  show LoopWork.costTest _ _ = LoopWork.costTest _ _
  rw [LoopWork.costTest, LoopWork.costTest, Context.insideLoop_congr ctx h]

theorem Access.seesOnlyAround : Access.rule.matcher.SeesOnlyAround := by
  intro ctx ix iy n h
  refine ⟨?_, rfl⟩
  show Access.test _ _ = Access.test _ _
  have hSource : (contextAt ctx ix n).source = (contextAt ctx iy n).source := rfl
  rw [Access.test, Access.test, Context.insideLoop_congr ctx h, hSource]

theorem Recursion.seesOnlyAround : Recursion.rule.matcher.SeesOnlyAround := by
  intro ctx ix iy n h
  constructor
  · show Recursion.test n _ = Recursion.test n _
    rw [Recursion.test, Recursion.test]
    show (if n.isFunction then (ofFunction n (some ix)).map isAtRisk else .ok false) = _
    rw [ofFunction_congr h]
    rfl
  · show (Recursion.detail n _).map some = (Recursion.detail n _).map some
    rw [Recursion.detail, Recursion.detail]
    show (do let r ← ofFunction n (some ix); _ : Except Fault Detail).map some = _
    rw [ofFunction_congr h]
    rfl

theorem Leak.seesOnlyAround : Leak.rule.matcher.SeesOnlyAround := by
  intro ctx ix iy n h
  constructor
  · show (Leak.leak? n _).map _ = (Leak.leak? n _).map _
    rw [Leak.leak?_congr ctx h]
  · show (Leak.detail n _).map _ = (Leak.detail n _).map _
    rw [Leak.detail_congr ctx h]

/-- **Every rule of the catalog** sees only the node and what is around it.  Eight of them never
ask an index. -/
theorem Rule.catalog_seesOnlyAround : ∀ r ∈ Rule.catalog, r.matcher.SeesOnlyAround := by
  simp only [Rule.catalog, List.forall_mem_cons]
  exact ⟨fun _ _ _ _ _ => ⟨rfl, rfl⟩, StringBuilding.seesOnlyAround,
    LoopWork.domOperations_seesOnlyAround, Access.seesOnlyAround,
    fun _ _ _ _ _ => ⟨rfl, rfl⟩, Recursion.seesOnlyAround, Leak.seesOnlyAround,
    LoopWork.costlyCalls_seesOnlyAround, fun _ _ _ _ _ => ⟨rfl, rfl⟩,
    fun _ _ _ _ _ => ⟨rfl, rfl⟩, fun _ _ _ _ _ => ⟨rfl, rfl⟩, fun _ _ _ _ _ => ⟨rfl, rfl⟩,
    fun _ _ _ _ _ => ⟨rfl, rfl⟩, fun _ _ _ _ _ => ⟨rfl, rfl⟩, by simp⟩

end ScriptLint
