import ScriptLint.Proofs.Registry.OnePass
import ScriptLint.Proofs.Rule.Source

/-!
# One tree, two sources

The source is handed to detection beside the tree.  This file compares the matches in **one** tree
for **two** sources: apart from the two rules that search the source they are the same, and when the
second source continues the first one, one of these rules can only gain matches and the other can
only lose some.

* `Detection.twoPassMatches`: the matches of two passes.
* `Detection.filter_twoPassMatches_sublist`: rules that persist from one source to another keep
  their matches.
* `detect_two_sources`: detection with the standard rules and two sources.
-/

namespace ScriptLint

open Ast (Node Index)

namespace Detection

/-- The matches of some rules with the index of the whole tree. -/
def twoPassMatches (rules : List Rule) (root : Node) (ctx : Context) : List Match :=
  (twoPass rules root ctx).map fun p => report p.2 p.1 (contextAt ctx (.build root) p.1)

/-- A condition that is weaker at the items of a list keeps more of them. -/
theorem filter_sublist_filter {α : Type} {p q : α → Bool} {l : List α}
    (h : ∀ a ∈ l, p a = true → q a = true) : (l.filter p).Sublist (l.filter q) := by
  have hBoth : l.filter p = (l.filter q).filter p := by
    rw [List.filter_filter]
    refine List.filter_congr (fun a ha => ?_)
    cases hp : p a with
    | false => rfl
    | true => simp [h a ha hp]
  rw [hBoth]
  exact List.filter_sublist

/-- Rules that **persist** from one source to another keep their matches, and what they say. -/
theorem filter_twoPassMatches_sublist {rules : List Rule} {root : Node} (ctx : Context) {s t : Text}
    (q : Text → Bool) (hIds : root.DistinctIds)
    (h : ∀ r ∈ rules, q r.id = true → r.Persists s t) :
    ((twoPassMatches rules root (ctx.withSource s)).filter fun m => q m.ruleId).Sublist
      ((twoPassMatches rules root (ctx.withSource t)).filter fun m => q m.ruleId) := by
  have hPersists : ∀ p ∈ candidates root.preorder rules, q p.2.id = true →
      finds p.2 p.1 (contextAt (ctx.withSource s) (.build root) p.1) = true →
      finds p.2 p.1 (contextAt (ctx.withSource t) (.build root) p.1) = true ∧
        report p.2 p.1 (contextAt (ctx.withSource s) (.build root) p.1)
          = report p.2 p.1 (contextAt (ctx.withSource t) (.build root) p.1) := by
    intro p hp hq hFinds
    obtain ⟨n, hn, hp⟩ := List.mem_flatMap.mp hp
    obtain ⟨r, hr, rfl⟩ := List.mem_map.mp hp
    obtain ⟨hLater, hDetail⟩ := h r hr hq ctx _ n (Index.build_knows hIds hn) hFinds
    refine ⟨hLater, ?_⟩
    rw [report, report, hDetail]
    rfl
  rw [twoPassMatches, twoPassMatches, twoPass, twoPass, List.filter_map, List.filter_map,
    List.filter_filter, List.filter_filter]
  rw [List.map_congr_left (g := fun p =>
    report p.2 p.1 (contextAt (ctx.withSource t) (.build root) p.1))]
  · refine (filter_sublist_filter (fun p hp hFound => ?_)).map _
    rw [Bool.and_eq_true] at hFound ⊢
    exact ⟨hFound.1, (hPersists p hp hFound.1 hFound.2).1⟩
  · intro p hp
    obtain ⟨hp, hFound⟩ := List.mem_filter.mp hp
    rw [Bool.and_eq_true] at hFound
    exact (hPersists p hp hFound.1 hFound.2).2

end Detection

/-! ### The standard registry -/

theorem Roster.foldl_register_of_nodup (rs : List Rule) : ∀ L : Roster,
    ((L ++ rs).map Rule.id).Nodup → rs.foldl register L = L ++ rs := by
  induction rs with
  | nil => intro L _; rw [List.foldl_nil, List.append_nil]
  | cons r rs ih =>
    intro L hIds
    have hNew : (L.any fun s => s.id == r.id) = false := by
      rw [List.map_append, List.nodup_append] at hIds
      rw [List.any_eq_false]
      intro s hs
      have hne := hIds.2.2 s.id (List.mem_map_of_mem hs) r.id (by simp)
      simpa using hne
    rw [List.append_cons] at hIds ⊢
    rw [List.foldl_cons, register, hNew]
    exact ih _ hIds

namespace Registry

open Detection

theorem sound_standard : Registry.standard.Sound := (Sound.registerAll Rule.catalog Sound.empty).1

/-- The standard registry holds the **catalog** in its order. -/
theorem roster_standard : Registry.standard.roster = Rule.catalog := by
  rw [Registry.standard, (Sound.registerAll Rule.catalog Sound.empty).2]
  exact Roster.foldl_register_of_nodup Rule.catalog [] Rule.nodup_catalog

theorem mem_catalog_of_mem_rulesFor {l : Language} {categories : List Category} {r : Rule}
    (hr : r ∈ Registry.standard.rulesFor l categories) : r ∈ Rule.catalog := by
  rw [← roster_standard]
  exact sound_standard.mem_roster_of_mem_rulesFor hr

theorem detect_standard {root : Node} (ctx : Context) (categories : List Category)
    (hIds : root.DistinctIds) (hSpans : ∀ n ∈ root.preorder, n.span.isIntegral = true) :
    Registry.standard.detect (some root) ctx categories
      = .ok (twoPassMatches (Registry.standard.rulesFor ctx.language categories) root ctx) := by
  rw [detect_eq_scan]
  refine scan_eq_twoPass ctx (fun r hr => ?_) hIds hSpans
  exact Rule.catalog_seesOnlyAround r (mem_catalog_of_mem_rulesFor hr)

/-- **Two sources.**  Detection with the standard rules has a result for every source.  The matches
of all rules but the two that search the source are the same.  When the second source continues the
first one, `inefficient-object-access` keeps its matches and `memory-leaks` gains none; a match that
stays stays with its detail.  Whatever is found at a node with both sources is described in the same
words. -/
theorem detect_two_sources (root : Node) (ctx : Context) (categories : List Category) (s t : Text)
    (hIds : root.DistinctIds) (hSpans : ∀ n ∈ root.preorder, n.span.isIntegral = true) :
    ∃ ms ns,
      Registry.standard.detect (some root) (ctx.withSource s) categories = .ok ms ∧
      Registry.standard.detect (some root) (ctx.withSource t) categories = .ok ns ∧
      (ms.filter fun m => m.ruleId ∉ [Access.rule.id, Leak.rule.id])
        = (ns.filter fun m => m.ruleId ∉ [Access.rule.id, Leak.rule.id]) ∧
      (∀ more, t = s ++ more →
        (ms.filter (·.ruleId = Access.rule.id)).Sublist (ns.filter (·.ruleId = Access.rule.id)) ∧
          (ns.filter (·.ruleId = Leak.rule.id)).Sublist (ms.filter (·.ruleId = Leak.rule.id))) ∧
      ∀ n ∈ root.preorder, ∀ r ∈ Rule.catalog,
        finds r n (contextAt (ctx.withSource s) (.build root) n) = true →
        finds r n (contextAt (ctx.withSource t) (.build root) n) = true →
        detailOf r n (contextAt (ctx.withSource s) (.build root) n)
          = detailOf r n (contextAt (ctx.withSource t) (.build root) n) := by
  have hOthers : ∀ (s t : Text), ∀ r ∈ Registry.standard.rulesFor ctx.language categories,
      decide (r.id ∉ [Access.rule.id, Leak.rule.id]) = true → r.Persists s t := by
    intro s t r hr hId
    exact Rule.persists_of_ignoresSource (Rule.catalog_ignoresSource r
      (mem_catalog_of_mem_rulesFor hr) (of_decide_eq_true hId)) s t
  refine ⟨_, _, detect_standard (ctx.withSource s) categories hIds hSpans,
    detect_standard (ctx.withSource t) categories hIds hSpans, ?_, ?_, ?_⟩
  · let others : Text → Bool := fun id => decide (id ∉ [Access.rule.id, Leak.rule.id])
    exact (filter_twoPassMatches_sublist ctx others hIds (hOthers s t)).antisymm
      (filter_twoPassMatches_sublist ctx others hIds (hOthers t s))
  · rintro more rfl
    constructor
    · refine filter_twoPassMatches_sublist ctx (fun id => decide (id = Access.rule.id)) hIds
        (fun r hr hId => ?_)
      rw [Rule.eq_of_mem_catalog (mem_catalog_of_mem_rulesFor hr) (by simp [Rule.catalog])
        (of_decide_eq_true hId)]
      exact Access.persists s more
    · refine filter_twoPassMatches_sublist ctx (fun id => decide (id = Leak.rule.id)) hIds
        (fun r hr hId => ?_)
      rw [Rule.eq_of_mem_catalog (mem_catalog_of_mem_rulesFor hr) (by simp [Rule.catalog])
        (of_decide_eq_true hId)]
      exact Leak.persists s more
  · intro n hn r hr hs ht
    exact Rule.catalog_detailOf hr ctx (Index.build_knows hIds hn) hs ht

/-- The loop `for (;;) a.b`, whose body is a member access. -/
def accessLoop : Node :=
  let span : Ast.Span := ⟨.int 0, .int 12, ⟨.int 1, .int 0⟩, ⟨.int 1, .int 12⟩⟩
  let object := Node.build ⟨[3], 0⟩ (.known .identifier) span [(.name, .value "a")]
  let property := Node.build ⟨[4], 0⟩ (.known .identifier) span [(.name, .value "b")]
  let access := Node.build ⟨[2], 0⟩ (.known .memberExpression) span
    [(.object, .node object), (.property, .node property)]
  Node.build ⟨[1], 0⟩ (.known .forStatement) span [(.body, .node access)]

theorem detect_two_sources_accessLoop :
    accessLoop.DistinctIds ∧
      ∃ ms ns,
        Registry.standard.detect (some accessLoop) (evalContext.withSource "for (;;) a.b") []
          = .ok ms ∧
        Registry.standard.detect (some accessLoop)
          (evalContext.withSource (("for (;;) a.b" : Text) ++ (" + a.b" : Text))) [] = .ok ns ∧
        (ms.filter (·.ruleId = Access.rule.id)).Sublist (ns.filter (·.ruleId = Access.rule.id)) ∧
        (ns.filter (·.ruleId = Leak.rule.id)).Sublist (ms.filter (·.ruleId = Leak.rule.id)) := by
  have hIds : accessLoop.DistinctIds := by decide +kernel
  have hSpans : (accessLoop.preorder.all fun n => n.span.isIntegral) = true := by decide +kernel
  obtain ⟨ms, ns, hms, hns, -, hAppend, -⟩ := detect_two_sources accessLoop evalContext []
    "for (;;) a.b" (("for (;;) a.b" : Text) ++ (" + a.b" : Text)) hIds (List.all_eq_true.mp hSpans)
  obtain ⟨hAccess, hLeak⟩ := hAppend _ rfl
  exact ⟨hIds, ms, ns, hms, hns, hAccess, hLeak⟩

end Registry

end ScriptLint
