import ScriptLint.Proofs.Registry.OnePass

/-!
# Rules keep to themselves

All rules of a detection share one walk, one index and one list of matches, and they are chosen
from different sets when categories are asked for.  Nevertheless no rule has a say in the matches
of another, even if its test or its description always fails.

* `Detection.filter_reports`: leaving rules out of the trials leaves their matches out.
* `Sound.filter_id_rulesFor`: which rules are tried besides a given one depends on the others, but
  whether the given one is tried depends on it alone.
* `detect_isolated`: the matches of a rule are those of a registry with this rule alone, the
  matches for some categories are those of all categories restricted to them, and a rule that is
  switched off takes its own matches away and no others.
-/

namespace ScriptLint

open Ast (Node Index)

namespace Detection

/-! ### Matches of some rules -/

/-- What is found by some rules in a list of trials. -/
def findings (rules : List Rule) (ts : List (Node × Context)) : List Match :=
  ts.flatMap fun t => reports rules t.1 t.2

/-- Matches that are told by their rules: **leaving out** rules leaves out their matches. -/
theorem filter_reports {p : Match → Bool} {q : Rule → Bool}
    (h : ∀ r n ctx, p (report r n ctx) = q r) (rules : List Rule) (n : Node) (ctx : Context) :
    (reports rules n ctx).filter p = reports (rules.filter q) n ctx := by
  have hKeep : (p ∘ fun r => report r n ctx) = q := funext fun r => h r n ctx
  rw [reports, reports, List.filter_map, hKeep, List.filter_filter, List.filter_filter]
  simp only [Bool.and_comm]

theorem filter_findings {p : Match → Bool} {q : Rule → Bool}
    (h : ∀ r n ctx, p (report r n ctx) = q r) (rules : List Rule) (ts : List (Node × Context)) :
    (findings rules ts).filter p = findings (rules.filter q) ts := by
  rw [findings, List.filter_flatMap]
  exact List.flatMap_congr fun t _ => filter_reports h rules t.1 t.2

theorem filter_id_findings (id : Text) (rules : List Rule) (ts : List (Node × Context)) :
    (findings rules ts).filter (·.ruleId == id) = findings (rules.filter (·.id == id)) ts :=
  filter_findings (fun _ _ _ => rfl) rules ts

end Detection

/-! ### Which rules are tried -/

namespace Registry

open Detection

/-- In a tree with integers in its spans, the matches are the findings of the chosen rules. -/
theorem detect_eq_findings (g : Registry) {root : Node} (ctx : Context)
    (categories : List Category) (hSpans : ∀ n ∈ root.preorder, n.span.isIntegral = true) :
    g.detect (some root) ctx categories
      = .ok (findings (g.rulesFor ctx.language categories)
          (trials ctx .empty root.withParents)) := by
  rw [detect_eq_scan, scan_eq_trials]
  · rfl
  · intro e he
    refine hSpans e.1 ?_
    rw [← root.map_fst_withParents]
    exact List.mem_map.mpr ⟨e, he, rfl⟩

namespace Sound

variable {g : Registry}

/-- There is at most one rule of an identifier. -/
theorem filter_id_roster (h : g.Sound) (id : Text) :
    g.roster.filter (·.id == id) = (g.get? id).toList := by
  rw [h.get?_eq]
  have hIds := h.nodup_ids
  generalize g.roster = L at hIds
  induction L with
  | nil => rfl
  | cons r L ih =>
    rw [List.map_cons, List.nodup_cons] at hIds
    by_cases hr : r.id = id
    · have hRest : L.filter (·.id == id) = [] := by
        rw [List.filter_eq_nil_iff]
        intro s hs hid
        have hsid : s.id = r.id := (beq_iff_eq.mp hid).trans hr.symm
        exact hIds.1 (hsid ▸ List.mem_map.mpr ⟨s, hs, rfl⟩)
      rw [List.filter_cons_of_pos (by simpa using hr), List.find?_cons_of_pos (by simpa using hr),
        hRest]
      rfl
    · rw [List.filter_cons_of_neg (by simpa using hr), List.find?_cons_of_neg (by simpa using hr)]
      exact ih hIds.2

/-- Whether a rule is tried depends on **this rule alone**. -/
theorem filter_id_rulesFor (h : g.Sound) (l : Language) (cs : List Category) (id : Text) :
    (g.rulesFor l cs).filter (·.id == id) = (g.get? id).toList.filter (selects l cs) := by
  rw [h.rulesFor_eq, ← h.filter_id_roster, List.filter_filter, List.filter_filter]
  simp only [Bool.and_comm]

/-- The rules for some categories are among those for all. -/
theorem filter_category_rulesFor (h : g.Sound) (l : Language) {cs : List Category}
    (hcs : cs ≠ []) :
    (g.rulesFor l []).filter (fun r => cs.contains r.category) = g.rulesFor l cs := by
  rw [h.rulesFor_eq, h.rulesFor_eq, List.filter_filter]
  refine List.filter_congr fun r _ => ?_
  have hEmpty : cs.isEmpty = false := by simpa using hcs
  simp [selects, hEmpty, Bool.and_comm]

/-- A rule that has been switched off is not tried, and all others are tried as before. -/
theorem rulesFor_setEnabled_false (h : g.Sound) (l : Language) (cs : List Category) (id : Text) :
    (g.setEnabled id false).1.rulesFor l cs = (g.rulesFor l cs).filter (·.id != id) := by
  rw [(h.setEnabled id false).rulesFor_eq, h.roster_setEnabled, h.rulesFor_eq, Roster.switch,
    List.filter_filter]
  induction g.roster with
  | nil => rfl
  | cons r L ih =>
    by_cases hr : r.id = id
    · -- the rule in question is not enabled any more
      have hOff : selects l cs (r.switched false) = false := by simp [selects, Rule.switched]
      rw [List.map_cons, if_pos (by simpa using hr), List.filter_cons_of_neg (by simp [hOff]),
        List.filter_cons_of_neg (by simp [hr]), ih]
    · have hKeep : (r.id != id) = true := by simpa using hr
      rw [List.map_cons, if_neg (by simpa using hr), List.filter_cons, List.filter_cons, ih,
        hKeep, Bool.true_and]

end Sound

/-! ### Detection -/

/-- The registry that holds one rule. -/
def alone (r : Rule) : Registry := Registry.empty.register r

theorem sound_alone (r : Rule) : (alone r).Sound := Sound.empty.register r

theorem roster_alone (r : Rule) : (alone r).roster = [r] := Sound.empty.roster_register r

/-- A registry with one rule tries no other. -/
theorem rulesFor_alone (r : Rule) (l : Language) (cs : List Category) :
    (alone r).rulesFor l cs = [r].filter (Sound.selects l cs) := by
  rw [(sound_alone r).rulesFor_eq, roster_alone]

/-- **Rules do not interfere.**  Whatever calls have made the registry, whatever its rules do, and
whatever tree with integers in its spans is looked at, the detection has a result.

* The matches of a rule are the result of a registry that holds this rule alone.  Hence they are
  the same in every other registry with this rule, whatever has become of the other rules.
* The matches for some categories are those for all categories that are in one of them.
* Switching off a rule takes away its matches and nothing else. -/
theorem detect_isolated (calls : List Call) (root : Node) (ctx : Context)
    (hSpans : ∀ n ∈ root.preorder, n.span.isIntegral = true) (categories : List Category) :
    let g := (Registry.empty.run calls).1
    ∃ ms, g.detect (some root) ctx categories = .ok ms ∧
      (∀ r ∈ g.all,
        (alone r).detect (some root) ctx categories = .ok (ms.filter (·.ruleId == r.id))) ∧
      (∀ (calls' : List Call) (id : Text),
        let g' := (Registry.empty.run calls').1
        g'.get? id = g.get? id →
          ∃ ms', g'.detect (some root) ctx categories = .ok ms' ∧
            ms'.filter (·.ruleId == id) = ms.filter (·.ruleId == id)) ∧
      (∃ every, g.detect (some root) ctx [] = .ok every ∧
        (categories ≠ [] → ms = every.filter fun m => categories.contains m.category)) ∧
      ∀ id, (g.setEnabled id false).1.detect (some root) ctx categories
        = .ok (ms.filter (·.ruleId != id)) := by
  intro g
  have hSound : g.Sound := (Sound.run calls Sound.empty).1
  refine ⟨_, g.detect_eq_findings ctx categories hSpans, ?_, ?_, ?_, ?_⟩
  · intro r hr
    rw [hSound.all_eq] at hr
    have hGet : g.get? r.id = some r := hSound.lookup_eq_some_iff.mpr ⟨hr, rfl⟩
    rw [detect_eq_findings _ ctx categories hSpans, filter_id_findings,
      hSound.filter_id_rulesFor, hGet, rulesFor_alone]
    rfl
  · intro calls' id g' hGet
    have hSound' : g'.Sound := (Sound.run calls' Sound.empty).1
    refine ⟨_, g'.detect_eq_findings ctx categories hSpans, ?_⟩
    rw [filter_id_findings, filter_id_findings, hSound.filter_id_rulesFor,
      hSound'.filter_id_rulesFor, hGet]
  · refine ⟨_, g.detect_eq_findings ctx [] hSpans, fun hcs => ?_⟩
    rw [filter_findings (q := fun r => categories.contains r.category) (fun _ _ _ => rfl),
      hSound.filter_category_rulesFor ctx.language hcs]
  · intro id
    rw [detect_eq_findings _ ctx categories hSpans,
      filter_findings (q := fun r => r.id != id) (fun _ _ _ => rfl),
      hSound.rulesFor_setEnabled_false]

/-- A rule whose test always fails. -/
def failing : Rule :=
  .standard "failing" "Failing" "Fails on every node" .style .info
    ⟨fun _ _ => .error .mismatch, fun _ _ => .error .mismatch⟩

theorem detect_isolated_failing :
    (∀ n ∈ evalLoop.preorder, n.span.isIntegral = true) ∧
      ∃ ms, (Registry.empty.run [.registerAll Rule.catalog, .register failing]).1.detect
          (some evalLoop) evalContext [] = .ok ms ∧
        (alone failing).detect (some evalLoop) evalContext []
          = .ok (ms.filter (·.ruleId == failing.id)) := by
  have hSpans : (evalLoop.preorder.all fun n => n.span.isIntegral) = true := by decide +kernel
  have hSpans := List.all_eq_true.mp hSpans
  obtain ⟨ms, hDetect, hAlone, -⟩ :=
    detect_isolated [.registerAll Rule.catalog, .register failing] evalLoop evalContext hSpans []
  refine ⟨hSpans, ms, hDetect, hAlone failing ?_⟩
  -- the rule that has been registered last is one of the rules
  obtain ⟨hSound, -⟩ := Sound.run [.registerAll Rule.catalog] Sound.empty
  have hAll := (hSound.register failing).all_eq
  rw [hSound.roster_register] at hAll
  show failing ∈ ((Registry.empty.run [.registerAll Rule.catalog]).1.register failing).all
  rw [hAll, Roster.register]
  split
  · rename_i hAny
    obtain ⟨s, hs, hid⟩ := List.any_eq_true.mp hAny
    exact List.mem_map.mpr ⟨s, hs, if_pos (beq_iff_eq.mp hid)⟩
  · exact List.mem_append_right _ (List.mem_singleton_self _)

end Registry

end ScriptLint
