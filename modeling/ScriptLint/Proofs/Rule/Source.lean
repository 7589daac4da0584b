import ScriptLint.Proofs.Outcome
import ScriptLint.Proofs.Registry.Table
import ScriptLint.Proofs.Rule.View
import ScriptLint.Proofs.Text.Search

/-!
# What a rule sees of the source

Where the index knows a node, the tree answers whether the node is inside a loop or a function, and
the text before the node is not asked.  So the source does not matter to twelve rules of the
catalog.  The other two look for words in the whole source: with more text a path may turn out to be
repeated, and a subscription may turn out to be ended.

* `Rule.Persists`: what the rule finds with one source it finds with another, in the same words.
* `Rule.persists_of_ignoresSource`, `Access.persists`, `Leak.persists`: which rules persist from
  which source to which.
* `Leak.Suspicion`: what a node may leave behind and which word in the source would clear it.
* `Rule.catalog_detailOf`: what two runs both find, both say in the same words.
-/

namespace ScriptLint

open Ast (Node Index Slot)
open Detection (contextAt finds detailOf)

variable {ix : Index} {n : Node} {s t : Text}

theorem Detection.finds_iff {r : Rule} {ctx : Context} :
    finds r n ctx = true ↔ r.matcher.test n ctx = .ok true := by
  rw [finds]
  split
  · rename_i found hTest
    rw [hTest, Except.ok.injEq]
  · rename_i hTest
    simp [hTest]

/-- The context of another source. -/
def Context.withSource (ctx : Context) (source : Text) : Context := { ctx with source }

/-- What the rule finds at a node with the source `s` it finds there with the source `t` as well,
and says the **same** about it. -/
def Rule.Persists (r : Rule) (s t : Text) : Prop :=
  ∀ (ctx : Context) (ix : Index) (n : Node), ix.knows n = true →
    finds r n (contextAt (ctx.withSource s) ix n) = true →
    finds r n (contextAt (ctx.withSource t) ix n) = true ∧
      detailOf r n (contextAt (ctx.withSource s) ix n)
        = detailOf r n (contextAt (ctx.withSource t) ix n)

/-! ### Rules that ignore the source -/

/-- Verdict and words of the matcher at a node that the index knows do not depend on the source. -/
def Matcher.IgnoresSource (m : Matcher) : Prop :=
  ∀ (ctx : Context) (ix : Index) (n : Node) (s t : Text), ix.knows n = true →
    m.test n (contextAt (ctx.withSource s) ix n) = m.test n (contextAt (ctx.withSource t) ix n) ∧
      m.describe n (contextAt (ctx.withSource s) ix n)
        = m.describe n (contextAt (ctx.withSource t) ix n)

theorem Context.insideLoop_withSource (ctx : Context) (h : ix.knows n = true) (helpers : Bool)
    (s t : Text) :
    (contextAt (ctx.withSource s) ix n).insideLoop helpers n
      = (contextAt (ctx.withSource t) ix n).insideLoop helpers n := by
  rw [insideLoop_contextAt _ h, insideLoop_contextAt _ h]

theorem StringBuilding.ignoresSource : StringBuilding.rule.matcher.IgnoresSource := by
  intro ctx ix n s t h
  refine ⟨?_, rfl⟩
  show StringBuilding.test _ _ = StringBuilding.test _ _
  rw [StringBuilding.test, StringBuilding.test, Context.insideLoop_withSource ctx h false s t]

theorem LoopWork.domOperations_ignoresSource : LoopWork.domOperations.matcher.IgnoresSource := by
  intro ctx ix n s t h
  refine ⟨?_, rfl⟩
  show LoopWork.domTest _ _ = LoopWork.domTest _ _
  rw [LoopWork.domTest, LoopWork.domTest, Context.insideLoop_withSource ctx h true s t]

theorem LoopWork.costlyCalls_ignoresSource : LoopWork.costlyCalls.matcher.IgnoresSource := by
  intro ctx ix n s t h
  refine ⟨?_, rfl⟩
  show LoopWork.costTest _ _ = LoopWork.costTest _ _
  rw [LoopWork.costTest, LoopWork.costTest, Context.insideLoop_withSource ctx h false s t]

/-- The rules of the catalog that look for words in the source. -/
def Rule.sourceReaders : List Text := [Access.rule.id, Leak.rule.id]

/-- **Only two rules** of the catalog look at the source where the index knows the node. -/
theorem Rule.catalog_ignoresSource :
    ∀ r ∈ Rule.catalog, r.id ∉ Rule.sourceReaders → r.matcher.IgnoresSource := by
  simp only [Rule.catalog, List.forall_mem_cons]
  exact ⟨fun _ _ _ _ _ _ _ => ⟨rfl, rfl⟩, fun _ => StringBuilding.ignoresSource,
    fun _ => LoopWork.domOperations_ignoresSource, fun h => absurd (by simp [sourceReaders]) h,
    fun _ _ _ _ _ _ _ => ⟨rfl, rfl⟩, fun _ _ _ _ _ _ _ => ⟨rfl, rfl⟩,
    fun h => absurd (by simp [sourceReaders]) h, fun _ => LoopWork.costlyCalls_ignoresSource,
    fun _ _ _ _ _ _ _ => ⟨rfl, rfl⟩, fun _ _ _ _ _ _ _ => ⟨rfl, rfl⟩,
    fun _ _ _ _ _ _ _ => ⟨rfl, rfl⟩, fun _ _ _ _ _ _ _ => ⟨rfl, rfl⟩,
    fun _ _ _ _ _ _ _ => ⟨rfl, rfl⟩, fun _ _ _ _ _ _ _ => ⟨rfl, rfl⟩, by simp⟩

theorem Rule.persists_of_ignoresSource {r : Rule} (h : r.matcher.IgnoresSource) (s t : Text) :
    r.Persists s t := by
  intro ctx ix n hKnows hFinds
  obtain ⟨hTest, hDescribe⟩ := h ctx ix n s t hKnows
  rw [finds, hTest] at hFinds
  exact ⟨hFinds, by rw [detailOf, detailOf, hDescribe]⟩

/-! ### Paths that are looked up again -/

namespace Access

theorem isRepeatedPath_append {path : Text} (more : Text) (h : isRepeatedPath path s = true) :
    isRepeatedPath path (s ++ more) = true := by
  simp only [isRepeatedPath] at h ⊢
  generalize hParts : (if path.isEmpty then [] else Text.splitAt (CodePoint.ofChar '.') path)
    = parts at h ⊢
  by_cases hShort : parts.length < 2
  · rw [if_pos hShort] at h
    cases h
  · have hPath : path ≠ [] := by
      intro hEmpty
      rw [hEmpty] at hParts
      subst hParts
      exact hShort (by decide)
    have hCount := Text.count_le_append hPath s more
    have hBase : Text.join "." parts.dropLast ++ ("." : Text) ≠ [] := by simp [Text.ofString]
    have hBaseCount := Text.count_le_append hBase s more
    rw [if_neg hShort] at h ⊢
    simp only [Bool.if_true_left, Bool.or_eq_true, Bool.and_eq_true, decide_eq_true_eq] at h ⊢
    rcases h with h | ⟨hSome, h⟩
    · left
      omega
    · right
      exact ⟨hSome, by omega⟩

theorem isRepeatedCall_append {path : Text} (more : Text) (h : isRepeatedCall path s = true) :
    isRepeatedCall path (s ++ more) = true := by
  rw [isRepeatedCall, Bool.and_eq_true, decide_eq_true_eq] at h ⊢
  have hCount := callCount_le_append path s more
  exact ⟨h.1, by omega⟩

theorem test_append (ctx : Context) (hKnows : ix.knows n = true) (more : Text)
    (h : test n (contextAt (ctx.withSource s) ix n) = .ok true) :
    test n (contextAt (ctx.withSource (s ++ more)) ix n) = .ok true := by
  rw [test, Context.insideLoop_contextAt _ hKnows] at h ⊢
  by_cases hKind : (!(n.is .memberExpression || n.is .callExpression)) = true
  · rw [if_pos hKind] at h
    cases h
  rw [if_neg hKind] at h ⊢
  obtain ⟨inside, hLoop, h⟩ := Outcome.bind_eq_ok.mp h
  refine Outcome.bind_eq_ok.mpr ⟨inside, hLoop, ?_⟩
  cases inside with
  | false => cases h
  | true =>
    by_cases hMember : n.is .memberExpression = true
    · simp only [hMember] at h ⊢
      obtain ⟨path, hPath, h⟩ := Outcome.bind_eq_ok.mp h
      refine Outcome.bind_eq_ok.mpr ⟨path, hPath, congrArg Except.ok ?_⟩
      have hVerdict := Except.ok.inj h
      rw [Bool.or_eq_true] at hVerdict ⊢
      exact hVerdict.imp_left (isRepeatedPath_append more)
    · simp only [hMember] at h ⊢
      cases hCallee : (n.slot .callee).as? .memberExpression with
      | none =>
        simp only [hCallee] at h
        cases h
      | some callee =>
        simp only [hCallee] at h ⊢
        obtain ⟨path, hPath, h⟩ := Outcome.bind_eq_ok.mp h
        refine Outcome.bind_eq_ok.mpr ⟨path, hPath, congrArg Except.ok ?_⟩
        exact isRepeatedCall_append more (Except.ok.inj h)

/-- A path that is repeated stays repeated when text is **appended**. -/
theorem persists (s more : Text) : Access.rule.Persists s (s ++ more) := by
  intro ctx ix n hKnows hFinds
  rw [Detection.finds_iff] at hFinds ⊢
  exact ⟨test_append ctx hKnows more hFinds, rfl⟩

end Access

/-! ### Things that a word in the source releases -/

namespace Leak

/-- What a node may leave behind, and the word that **clears** it if it occurs in the source. -/
structure Suspicion where
  leak : Leak
  release : Option Text

/-- What is left behind with a given source. -/
def Suspicion.leakWith? (x : Suspicion) (source : Text) : Option Leak :=
  if x.release.any fun release => Text.occursIn release source then none else some x.leak

/-- What a node is suspected of, before the whole source is searched. -/
def suspicion? (n : Node) (ctx : Context) : Except Fault (Option Suspicion) := do
  if n.is .callExpression then
    match ← n.methodName.find? subscriptions with
    | some release =>
      return if ← insideFunction ctx componentHints n then some ⟨.listener, some release⟩ else none
    | none =>
      match ← n.methodName.find? timers with
      | none => return none
      | some release => return some ⟨.timer, if ← isStored ctx n then some release else none⟩
  else return if ← isDomReference ctx n then some ⟨.domReference, none⟩ else none

/-- Nothing is both a subscription and a timer. -/
theorem find?_timers_of_subscriptions {name : Slot} {release : Text}
    (h : name.find? subscriptions = .ok (some release)) : name.find? timers = .ok none := by
  have hNames : ∀ e ∈ subscriptions, timers.lookup e.1 = none := by decide +kernel
  rw [Slot.find?] at h ⊢
  split at h
  · rename_i hKey
    rw [if_pos hKey]
    obtain ⟨word, hWord, hLookup⟩ := Option.bind_eq_some_iff.mp (Except.ok.inj h)
    rw [hWord, Option.bind_some, hNames _ (Table.mem_of_lookup hLookup)]
  · cases h

/-- A leak is a suspicion that no word of the source clears. -/
theorem leak?_eq_suspicion? (n : Node) (ctx : Context) :
    leak? n ctx = (suspicion? n ctx).map fun x => x.bind (·.leakWith? ctx.source) := by
  rw [leak?, suspicion?]
  by_cases hCall : n.is .callExpression = true
  · rw [if_pos hCall, if_pos hCall, isListener, isTimer]
    cases hSubscription : n.methodName.find? subscriptions with
    | error e => rfl
    | ok found =>
      cases found with
      | none =>
        cases n.methodName.find? timers with
        | error e => rfl
        | ok found =>
          cases found with
          | none => rfl
          | some release =>
            cases isStored ctx n with
            | error e => rfl
            | ok stored =>
              cases stored with
              | false => rfl
              | true =>
                show (if (!Text.occursIn release ctx.source) = true then Except.ok (some timer)
                    else .ok none)
                  = .ok (if Text.occursIn release ctx.source = true then none else some timer)
                cases Text.occursIn release ctx.source <;> rfl
      | some release =>
        -- a subscription that is ended is no timer either
        rw [find?_timers_of_subscriptions hSubscription]
        cases insideFunction ctx componentHints n with
        | error e => rfl
        | ok inside =>
          cases inside with
          | false => rfl
          | true =>
            show (if (!Text.occursIn release ctx.source) = true then Except.ok (some listener)
                else .ok none)
              = .ok (if Text.occursIn release ctx.source = true then none else some listener)
            cases Text.occursIn release ctx.source <;> rfl
  · rw [if_neg hCall, if_neg hCall]
    cases isDomReference ctx n with
    | error e => rfl
    | ok found => cases found <;> rfl

theorem insideFunction_withSource (ctx : Context) (h : ix.knows n = true) (hints : List Text)
    (s t : Text) :
    insideFunction (contextAt (ctx.withSource s) ix n) hints n
      = insideFunction (contextAt (ctx.withSource t) ix n) hints n := by
  rw [insideFunction, insideFunction, Context.indexFor?_contextAt _ h,
    Context.indexFor?_contextAt _ h]

theorem isStored_withSource (ctx : Context) (h : ix.knows n = true) (s t : Text) :
    isStored (contextAt (ctx.withSource s) ix n) n
      = isStored (contextAt (ctx.withSource t) ix n) n := by
  rw [isStored, isStored, Context.indexFor?_contextAt _ h, Context.indexFor?_contextAt _ h]

theorem suspicion?_withSource (ctx : Context) (h : ix.knows n = true) (s t : Text) :
    suspicion? n (contextAt (ctx.withSource s) ix n)
      = suspicion? n (contextAt (ctx.withSource t) ix n) := by
  rw [suspicion?, suspicion?, isDomReference, isDomReference,
    insideFunction_withSource ctx h componentHints s t,
    insideFunction_withSource ctx h closureHints s t, isStored_withSource ctx h s t]

theorem leakWith?_eq_some_iff {x : Suspicion} {k : Leak} :
    x.leakWith? s = some k ↔
      x.leak = k ∧ ∀ release ∈ x.release, Text.occursIn release s = false := by
  rw [Suspicion.leakWith?]
  cases x.release with
  | none => simp
  | some release => cases hOccurs : Text.occursIn release s <;> simp [hOccurs]

theorem leak?_eq_some_iff {ctx : Context} {k : Leak} :
    leak? n ctx = .ok (some k) ↔
      ∃ x, suspicion? n ctx = .ok (some x) ∧ x.leakWith? ctx.source = some k := by
  rw [leak?_eq_suspicion?]
  cases suspicion? n ctx with
  | error e => simp [Except.map]
  | ok found => cases found <;> simp [Except.map]

/-- What is left behind with two sources is the **same** thing. -/
theorem leak?_common (ctx : Context) (hKnows : ix.knows n = true) {k l : Leak}
    (hk : leak? n (contextAt (ctx.withSource s) ix n) = .ok (some k))
    (hl : leak? n (contextAt (ctx.withSource t) ix n) = .ok (some l)) : k = l := by
  obtain ⟨x, hx, hk⟩ := leak?_eq_some_iff.mp hk
  obtain ⟨y, hy, hl⟩ := leak?_eq_some_iff.mp hl
  rw [suspicion?_withSource ctx hKnows s t, hy] at hx
  cases hx
  exact (leakWith?_eq_some_iff.mp hk).1.symm.trans (leakWith?_eq_some_iff.mp hl).1

/-- What is left behind with more text is left behind with less. -/
theorem leak?_of_append (ctx : Context) (hKnows : ix.knows n = true) (more : Text) {k : Leak}
    (h : leak? n (contextAt (ctx.withSource (s ++ more)) ix n) = .ok (some k)) :
    leak? n (contextAt (ctx.withSource s) ix n) = .ok (some k) := by
  obtain ⟨x, hx, h⟩ := leak?_eq_some_iff.mp h
  obtain ⟨hLeak, hAbsent⟩ := leakWith?_eq_some_iff.mp h
  rw [suspicion?_withSource ctx hKnows (s ++ more) s] at hx
  refine leak?_eq_some_iff.mpr ⟨x, hx, leakWith?_eq_some_iff.mpr ⟨hLeak, fun release hr => ?_⟩⟩
  have hMore : Text.occursIn release (s ++ more) = false := hAbsent release hr
  cases hOccurs : Text.occursIn release s with
  | false => exact hOccurs
  | true =>
    rw [Text.occursIn_append more hOccurs] at hMore
    cases hMore

theorem finds_iff {ctx : Context} :
    finds Leak.rule n ctx = true ↔ ∃ k, leak? n ctx = .ok (some k) := by
  rw [Detection.finds_iff]
  show (leak? n ctx).map Option.isSome = .ok true ↔ _
  cases leak? n ctx with
  | error e => simp [Except.map]
  | ok found => cases found <;> simp [Except.map]

theorem detailOf_common (ctx : Context) (hKnows : ix.knows n = true)
    (hs : finds Leak.rule n (contextAt (ctx.withSource s) ix n) = true)
    (ht : finds Leak.rule n (contextAt (ctx.withSource t) ix n) = true) :
    detailOf Leak.rule n (contextAt (ctx.withSource s) ix n)
      = detailOf Leak.rule n (contextAt (ctx.withSource t) ix n) := by
  obtain ⟨k, hk⟩ := finds_iff.mp hs
  obtain ⟨l, hl⟩ := finds_iff.mp ht
  have hSame : leak? n (contextAt (ctx.withSource s) ix n)
      = leak? n (contextAt (ctx.withSource t) ix n) := by
    rw [hk, hl, leak?_common ctx hKnows hk hl]
  have hDetail : detail n (contextAt (ctx.withSource s) ix n)
      = detail n (contextAt (ctx.withSource t) ix n) := by
    rw [detail, detail, hSame]
  have hDescribe : Leak.rule.matcher.describe n (contextAt (ctx.withSource s) ix n)
      = Leak.rule.matcher.describe n (contextAt (ctx.withSource t) ix n) :=
    congrArg (Except.map some) hDetail
  rw [detailOf, detailOf, hDescribe]

/-- What nothing releases was not released **before** text was appended. -/
theorem persists (s more : Text) : Leak.rule.Persists (s ++ more) s := by
  intro ctx ix n hKnows hFinds
  obtain ⟨k, hk⟩ := finds_iff.mp hFinds
  have hLess : finds Leak.rule n (contextAt (ctx.withSource s) ix n) = true :=
    finds_iff.mpr ⟨k, leak?_of_append ctx hKnows more hk⟩
  exact ⟨hLess, detailOf_common ctx hKnows hFinds hLess⟩

end Leak

theorem Rule.nodup_catalog : (Rule.catalog.map Rule.id).Nodup := by decide +kernel

theorem Rule.eq_of_mem_catalog {r s : Rule} (hr : r ∈ Rule.catalog) (hs : s ∈ Rule.catalog)
    (h : r.id = s.id) : r = s :=
  List.inj_on_of_nodup_map Rule.nodup_catalog hr hs h

/-- What two runs **both** find at a node they describe in the same words. -/
theorem Rule.catalog_detailOf {r : Rule} (hr : r ∈ Rule.catalog) (ctx : Context)
    (hKnows : ix.knows n = true)
    (hs : finds r n (contextAt (ctx.withSource s) ix n) = true)
    (ht : finds r n (contextAt (ctx.withSource t) ix n) = true) :
    detailOf r n (contextAt (ctx.withSource s) ix n)
      = detailOf r n (contextAt (ctx.withSource t) ix n) := by
  by_cases hReader : r.id ∈ Rule.sourceReaders
  · simp only [Rule.sourceReaders, List.mem_cons, List.not_mem_nil, or_false] at hReader
    rcases hReader with hAccess | hLeak
    · rw [Rule.eq_of_mem_catalog hr (by simp [Rule.catalog]) hAccess]
      rfl
    · rw [Rule.eq_of_mem_catalog hr (s := Leak.rule) (by simp [Rule.catalog]) hLeak] at hs ht ⊢
      exact Leak.detailOf_common ctx hKnows hs ht
  · exact (Rule.persists_of_ignoresSource (Rule.catalog_ignoresSource r hr hReader) s t ctx ix n
      hKnows hs).2

end ScriptLint
