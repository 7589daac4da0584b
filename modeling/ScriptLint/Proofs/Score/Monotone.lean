import ScriptLint.Proofs.Score.Total

/-!
# One more match

A match with a negative delta never raises a score, and one with a positive delta never lowers it:
every stage from the sum of the deltas to the label is monotone, the rounded ones included.

* `Label.rank`: the labels in order.  `Label.rank_ofTotal` says that the rank of a total is the
  number of thresholds that it reaches.
* `Score.AtMost`: one score is in no respect above another.
* `Score.atMost_of_balance_le`: lists whose deltas add up to less have at most the score.
* `Score.ofMatches_insert`: what one more match does to a score.
-/

namespace ScriptLint

/-! ### Labels -/

namespace Label

/-- The **rank** of a label; the worst one has rank zero. -/
def rank : Label → Nat
  | excellent => 5
  | veryGood => 4
  | good => 3
  | fair => 2
  | poor => 1
  | critical => 0

/-- The rank of a total is the **number of thresholds** that it reaches. -/
theorem rank_ofTotal (total : Int) :
    (ofTotal total).rank = thresholds.countP fun t => t.1 ≤ total := by
  have hCases : 90 ≤ total ∨ (80 ≤ total ∧ total < 90) ∨ (70 ≤ total ∧ total < 80) ∨
      (60 ≤ total ∧ total < 70) ∨ (40 ≤ total ∧ total < 60) ∨ total < 40 := by omega
  unfold ofTotal firstReached thresholds
  simp only [List.find?_cons, List.find?_nil, List.countP_cons, List.countP_nil]
  rcases hCases with h | h | h | h | h | h <;>
    simp (disch := omega) only [decide_eq_true, decide_eq_false] <;> rfl

theorem rank_ofTotal_mono {m n : Int} (h : m ≤ n) : (ofTotal m).rank ≤ (ofTotal n).rank := by
  rw [rank_ofTotal, rank_ofTotal]
  refine List.countP_mono_left fun t _ hReached => ?_
  rw [decide_eq_true_eq] at hReached ⊢
  exact hReached.trans h

end Label

namespace Score

/-! ### Comparing scores -/

/-- A score is in no respect **above** another one. -/
structure AtMost (s t : Score) : Prop where
  category : ∀ c, s.breakdown.get c ≤ t.breakdown.get c
  total : s.breakdown.total ≤ t.breakdown.total
  value : s.value ≤ t.value
  rank : s.label.rank ≤ t.label.rank

/-- Lists whose deltas **add up to less** have at most the score. -/
theorem atMost_of_balance_le {ms ms' : List Match} (h : ∀ c, balance ms c ≤ balance ms' c) :
    (ofMatches ms).AtMost (ofMatches ms') := by
  have hCategory : ∀ c, ofCategory ms c ≤ ofCategory ms' c := by
    intro c
    rw [ofCategory_eq, ofCategory_eq]
    exact clamp_mono (Int.add_le_add_left (h c) base)
  have hSum := weighted_mono (inBounds_ofCategory ms) (inBounds_ofCategory ms') hCategory
  have hTotal : (Breakdown.ofMatches ms).total ≤ (Breakdown.ofMatches ms').total := by
    rw [total_eq, total_eq]
    exact roundHalfUp_mono (weighted_within (inBounds_ofCategory ms))
      (weighted_within (inBounds_ofCategory ms')) (by norm_num) hSum
  refine ⟨?_, hTotal, hTotal, Label.rank_ofTotal_mono hTotal⟩
  intro c
  show (Breakdown.ofMatches ms).get c ≤ (Breakdown.ofMatches ms').get c
  rw [Breakdown.get_ofMatches, Breakdown.get_ofMatches]
  exact hCategory c

/-! ### Deltas -/

theorem share_nonpos {m : Match} (h : m.severity ∈ [.critical, .warning, .info]) (c : Category) :
    share c m.pair ≤ 0 := by
  unfold share Match.pair
  by_cases hc : c = m.category
  · rw [if_pos hc]
    show m.severity.delta ≤ 0
    revert h
    cases m.severity <;> decide
  · rw [if_neg hc]

theorem share_nonneg {m : Match} (h : m.severity = .good) (c : Category) : 0 ≤ share c m.pair := by
  unfold share Match.pair
  by_cases hc : c = m.category
  · rw [if_pos hc, h]
    show 0 ≤ Severity.good.delta
    decide
  · rw [if_neg hc]

/-- **One more match**, at any place of a list.  If it is critical, a warning or an information, no
score of a category is higher than before, nor the total, nor the label; if it is a good one, none is
lower.  The scores of other categories stay as they are. -/
theorem ofMatches_insert (before after : List Match) (m : Match) :
    (m.severity ∈ [.critical, .warning, .info] →
      (ofMatches (before ++ m :: after)).AtMost (ofMatches (before ++ after))) ∧
    (m.severity = .good →
      (ofMatches (before ++ after)).AtMost (ofMatches (before ++ m :: after))) ∧
    ∀ c, c ≠ m.category →
      (ofMatches (before ++ m :: after)).breakdown.get c
        = (ofMatches (before ++ after)).breakdown.get c := by
  refine ⟨fun hBad => ?_, fun hGood => ?_, fun c hc => ?_⟩
  · refine atMost_of_balance_le fun c => ?_
    have hShare := share_nonpos hBad c
    rw [balance_insert]
    omega
  · refine atMost_of_balance_le fun c => ?_
    have hShare := share_nonneg hGood c
    rw [balance_insert]
    omega
  · have hShare : share c m.pair = 0 := if_neg hc
    show (Breakdown.ofMatches _).get c = (Breakdown.ofMatches _).get c
    rw [Breakdown.get_ofMatches, Breakdown.get_ofMatches, ofCategory_eq, ofCategory_eq,
      balance_insert, hShare, add_zero]

/-- More matches in a category whose score is used up: the score of another category is not
touched. -/
theorem ofMatches_insert_spent :
    let spent := List.replicate 7 (plainMatch .critical .style)
    (ofMatches (spent ++ plainMatch .critical .style :: spent)).AtMost
      (ofMatches (spent ++ spent)) ∧
    (ofMatches (spent ++ spent)).AtMost
      (ofMatches (spent ++ plainMatch .good .style :: spent)) ∧
    (ofMatches (spent ++ plainMatch .good .style :: spent)).breakdown.get .security
      = (ofMatches (spent ++ spent)).breakdown.get .security := by
  intro spent
  obtain ⟨hBad, -, -⟩ := ofMatches_insert spent spent (plainMatch .critical .style)
  obtain ⟨-, hGood, hOther⟩ := ofMatches_insert spent spent (plainMatch .good .style)
  exact ⟨hBad (by decide), hGood rfl, hOther .security (by decide)⟩

end Score

end ScriptLint
