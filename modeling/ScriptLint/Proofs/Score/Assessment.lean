import Mathlib.Algebra.BigOperators.Group.List.Basic
import Mathlib.Data.List.Dedup
import ScriptLint.Proofs.Json.Member
import ScriptLint.Proofs.Score.Total
import ScriptLint.Score.Assessment

/-!
# What an assessment depends on

An assessment counts matches by severity and by category, and scores them.  All of it depends on how
many matches there are of each category and severity, and on nothing else.

* `IsTally`: what the counts of a list have to be.  `isTally_tally` says that they are.
* `Breakdown.read_toJson`: scores in bounds pass the check of a breakdown.
* `Assessment.Same`: two assessments are the same, but for the order in which counts are listed.
  `Assessment.same_of_pairs` says which lists of matches have the same one.
* `Assessment.ofMatches_by_counts`: the assessment of a list of matches from its counts.
-/

namespace ScriptLint

/-! ### Tallies -/

theorem nodup_eraseDups {α : Type} [BEq α] [LawfulBEq α] : ∀ l : List α, l.eraseDups.Nodup
  | [] => by simp
  | a :: l => by
    rw [List.eraseDups_cons, List.nodup_cons, List.mem_eraseDups, List.mem_filter]
    refine ⟨?_, nodup_eraseDups (l.filter fun b => !b == a)⟩
    rintro ⟨-, hne⟩
    simp at hne
termination_by l => l.length
decreasing_by exact Nat.lt_succ_of_le (List.length_filter_le _ _)

section Tally

variable {α : Type} [DecidableEq α]

/-- A tally has an entry for what occurs, and says how often. -/
theorem lookup_tally (items : List α) (a : α) :
    (tally items).lookup a = if a ∈ items then some (items.count a) else none := by
  by_cases ha : a ∈ items
  · rw [if_pos ha, tally, List.lookup_graph _ (List.mem_eraseDups.mpr ha)]
  · rw [if_neg ha, List.lookup_eq_none_iff]
    intro e he
    obtain ⟨b, hb, rfl⟩ := List.mem_map.mp he
    rw [bne_iff_ne]
    rintro rfl
    exact ha (List.mem_eraseDups.mp hb)

theorem lookup_tally_getD (items : List α) (a : α) :
    ((tally items).lookup a).getD 0 = items.count a := by
  rw [lookup_tally]
  by_cases ha : a ∈ items
  · rw [if_pos ha, Option.getD_some]
  · rw [if_neg ha, Option.getD_none, List.count_eq_zero_of_not_mem ha]

/-- The counts of a list: **each item once**, with the number of its occurrences, which is not zero;
together they are as many as the list is long. -/
structure IsTally (items : List α) (counts : List (α × Nat)) : Prop where
  distinct : (counts.map (·.1)).Nodup
  count : ∀ a, (counts.lookup a).getD 0 = items.count a
  positive : ∀ e ∈ counts, e.2 ≠ 0
  sum : (counts.map (·.2)).sum = items.length

theorem isTally_tally (items : List α) : IsTally items (tally items) where
  distinct := by
    rw [tally, List.map_map]
    exact (List.map_id' _).symm ▸ nodup_eraseDups items
  count := lookup_tally_getD items
  positive := by
    intro e he
    obtain ⟨a, ha, rfl⟩ := List.mem_map.mp he
    exact (List.count_pos_iff.mpr (List.mem_eraseDups.mp ha)).ne'
  sum := by
    have hPerm : items.eraseDups.Perm items.dedup := by
      rw [List.perm_ext_iff_of_nodup (nodup_eraseDups items) items.nodup_dedup]
      intro a
      rw [List.mem_eraseDups, List.mem_dedup]
    rw [tally, List.map_map, ← List.sum_map_count_dedup_eq_length items]
    exact (hPerm.map _).sum_eq

/-- The order of the items does not matter to what a tally says. -/
theorem lookup_tally_congr {items items' : List α} (h : items.Perm items') (a : α) :
    (tally items).lookup a = (tally items').lookup a := by
  rw [lookup_tally, lookup_tally, h.count_eq a]
  simp only [h.mem_iff]

end Tally

/-! ### The check of a breakdown -/

theorem Schema.integerWithin_int {low high n : Int} (hBounds : low ≤ n ∧ n ≤ high) :
    Schema.integerWithin low high n = .ok n := by
  show Checked.ofCoercion (if n < low then _ else if high < n then _ else _) = _
  rw [if_neg (by omega), if_neg (by omega)]
  rfl

/-- A member that is an integer in bounds is read. -/
theorem Schema.required_integerWithin {members : List (String × Json)} {name : String}
    {low high n : Int} (h : members.lookup name = some (.int n)) (hBounds : low ≤ n ∧ n ≤ high) :
    Schema.required name (Schema.integerWithin low high)
      (members.map fun e => (Text.ofString e.1, e.2)) = .ok n := by
  rw [Schema.required, Entries.get?_ofString, h]
  show (Schema.integerWithin low high n).below _ = _
  rw [Schema.integerWithin_int hBounds]
  rfl

/-- Scores **in bounds** pass the check of a breakdown. -/
theorem Breakdown.read_toJson {b : Breakdown} (hScores : ∀ c, 0 ≤ b.get c ∧ b.get c ≤ Score.base)
    (hTotal : 0 ≤ b.total ∧ b.total ≤ Score.base) :
    ∃ entries, b.toJson = .obj entries ∧ Breakdown.read entries = .ok b := by
  refine ⟨_, rfl, ?_⟩
  unfold Breakdown.read
  dsimp only
  rw [Schema.required_integerWithin rfl (hScores .performance),
    Schema.required_integerWithin rfl (hScores .security),
    Schema.required_integerWithin rfl (hScores .maintainability),
    Schema.required_integerWithin rfl (hScores .style), Schema.required_integerWithin rfl hTotal]
  rfl

/-! ### Assessments -/

theorem Score.ofMatches_congr {ms ms' : List Match}
    (h : (ms.map Match.pair).Perm (ms'.map Match.pair)) :
    Score.ofMatches ms = Score.ofMatches ms' := by
  have hScores : Score.ofCategory ms = Score.ofCategory ms' := by
    funext c
    rw [Score.ofCategory_eq, Score.ofCategory_eq, Score.balance_congr h]
  unfold Score.ofMatches Breakdown.ofMatches
  rw [hScores]

namespace Assessment

theorem criticalIssues_ofMatches (ms : List Match) :
    (ofMatches ms).criticalIssues = ms.countP fun m => m.severity == .critical := by
  show ((tally (ms.map Match.severity)).lookup .critical).getD 0 = _
  rw [lookup_tally_getD, List.count_eq_countP, List.countP_map]
  rfl

/-- Two assessments are the **same**, but for the order in which their counts are listed. -/
structure Same (a b : Assessment) : Prop where
  score : a.score = b.score
  severityCounts : ∀ s, a.severityCounts.lookup s = b.severityCounts.lookup s
  categoryCounts : ∀ c, a.categoryCounts.lookup c = b.categoryCounts.lookup c
  totalIssues : a.totalIssues = b.totalIssues
  criticalIssues : a.criticalIssues = b.criticalIssues
  recommendations : a.recommendations = b.recommendations

/-- Lists with as many matches of **each category and severity** have the same assessment. -/
theorem same_of_pairs {ms ms' : List Match} (h : (ms.map Match.pair).Perm (ms'.map Match.pair)) :
    (ofMatches ms).Same (ofMatches ms') := by
  have hScore := Score.ofMatches_congr h
  have hSeverities : (ms.map Match.severity).Perm (ms'.map Match.severity) := by
    have hSecond := h.map Prod.snd
    rwa [List.map_map, List.map_map] at hSecond
  have hCategories : (ms.map Match.category).Perm (ms'.map Match.category) := by
    have hFirst := h.map Prod.fst
    rwa [List.map_map, List.map_map] at hFirst
  have hLength : ms.length = ms'.length := by
    have hPairs := h.length_eq
    rwa [List.length_map, List.length_map] at hPairs
  have hCritical : (ofMatches ms).criticalIssues = (ofMatches ms').criticalIssues :=
    congrArg (Option.getD · 0) (lookup_tally_congr hSeverities .critical)
  refine ⟨hScore, lookup_tally_congr hSeverities, lookup_tally_congr hCategories, hLength,
    hCritical, ?_⟩
  show ScriptLint.recommendations (Score.ofMatches ms).breakdown
      (urgentAdviceFor (ofMatches ms).criticalIssues)
    = ScriptLint.recommendations (Score.ofMatches ms').breakdown
      (urgentAdviceFor (ofMatches ms').criticalIssues)
  rw [hScore, hCritical]

/-- **An assessment from counts.**  The assessment of any list of matches

* passes the checks of its scores;
* has for each category the score that follows from how many matches it has of each severity;
* counts the matches by severity and by category, without empty counts, and each of the two adds up
  to the number of matches;
* counts the critical matches;
* is the same for every list with as many matches of each category and severity, so for every
  permutation. -/
theorem ofMatches_by_counts (ms : List Match) :
    let a := ofMatches ms
    let count (c : Category) (s : Severity) : Int := (ms.map Match.pair).count (c, s)
    (∃ entries, a.score.breakdown.toJson = .obj entries ∧
      Breakdown.read entries = .ok a.score.breakdown) ∧
    Schema.integerWithin 0 Score.base a.score.value = .ok a.score.value ∧
    (∀ c, a.score.breakdown.get c = max 0 (min 100 (100 - 15 * count c .critical
      - 8 * count c .warning - 3 * count c .info + 2 * count c .good))) ∧
    IsTally (ms.map Match.severity) a.severityCounts ∧
    (a.severityCounts.map (·.2)).sum = a.totalIssues ∧
    IsTally (ms.map Match.category) a.categoryCounts ∧
    (a.categoryCounts.map (·.2)).sum = a.totalIssues ∧
    a.totalIssues = ms.length ∧
    a.criticalIssues = ms.countP (fun m => m.severity == .critical) ∧
    ∀ ms', (ms'.map Match.pair).Perm (ms.map Match.pair) → (ofMatches ms').Same a := by
  intro a count
  have hTotal : 0 ≤ a.score.value ∧ a.score.value ≤ Score.base := by
    show 0 ≤ (Breakdown.ofMatches ms).total ∧ (Breakdown.ofMatches ms).total ≤ Score.base
    rw [Score.total_eq]
    exact Score.roundHalfUp_bounds (Score.inBounds_ofCategory ms)
  have hSeverities := isTally_tally (ms.map Match.severity)
  have hCategories := isTally_tally (ms.map Match.category)
  have hCategory : ∀ c, a.score.breakdown.get c = Score.ofCategory ms c :=
    congrFun (Breakdown.get_ofMatches ms)
  refine ⟨?_, Schema.integerWithin_int hTotal, ?_, hSeverities, ?_, hCategories, ?_, rfl,
    criticalIssues_ofMatches ms, fun ms' hPairs => same_of_pairs hPairs⟩
  · refine Breakdown.read_toJson (fun c => ?_) hTotal
    rw [hCategory]
    exact Score.ofCategory_bounds ms c
  · intro c
    rw [hCategory]
    exact Score.ofCategory_eq_counts ms c
  · exact hSeverities.sum.trans (List.length_map _)
  · exact hCategories.sum.trans (List.length_map _)

/-- Two matches in either order, and under other names, have the same assessment. -/
theorem ofMatches_by_counts_swapped :
    let first := plainMatch .critical .style
    let second := plainMatch .good .security
    (ofMatches [{ second with ruleId := "s" }, first]).Same (ofMatches [first, second]) := by
  intro first second
  obtain ⟨-, -, -, -, -, -, -, -, -, hSame⟩ := ofMatches_by_counts [first, second]
  exact hSame _ (List.Perm.swap _ _ _)

end Assessment

end ScriptLint
