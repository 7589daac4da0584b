import Mathlib.Algebra.BigOperators.Group.List.Basic
import Mathlib.Algebra.Order.Ring.Int
import Mathlib.Data.List.Perm.Basic
import ScriptLint.Score.Basic

/-!
# The score of a category

The matches move a score one after the other, and only the sum of the moves is kept in bounds.  So a
score depends on the sum of the deltas of its category and on nothing else.

* `Score.balance`: what the matches of a category add up to.
* `Score.ofCategory_eq`: the score is the sum, kept in bounds.
* `Score.balance_insert`: one more match, wherever it stands, adds its delta to its category.
* `Score.ofCategory_eq_counts`: the score from the number of matches of each severity.
-/

namespace ScriptLint

/-- What the score of a match depends on. -/
def Match.pair (m : Match) : Category × Severity := (m.category, m.severity)

namespace Score

/-! ### Bounds -/

theorem clamp_nonneg (n : Int) : 0 ≤ clamp n := le_max_left 0 _

theorem clamp_le (n : Int) : clamp n ≤ base := max_le (by decide) (min_le_left base n)

theorem clamp_mono {m n : Int} (h : m ≤ n) : clamp m ≤ clamp n :=
  max_le_max le_rfl (min_le_min le_rfl h)

theorem clamp_of_bounds {n : Int} (hLow : 0 ≤ n) (hHigh : n ≤ base) : clamp n = n := by
  rw [clamp, min_eq_right hHigh, max_eq_right hLow]

/-! ### Sums of deltas -/

/-- What a match of the given category and severity adds to the score of a category. -/
def share (c : Category) (p : Category × Severity) : Int := if c = p.1 then p.2.delta else 0

/-- What the matches of a category **add up** to. -/
def balance (ms : List Match) (c : Category) : Int := (ms.map fun m => share c m.pair).sum

theorem step_eq (scores : Category → Int) (m : Match) (c : Category) :
    step scores m c = scores c + share c m.pair := by
  unfold step share Match.pair
  by_cases hc : c = m.category
  · rw [if_pos hc, if_pos hc]
  · rw [if_neg hc, if_neg hc, add_zero]

/-- The matches move the scores by the sum of their deltas, wherever these begin. -/
theorem foldl_step (ms : List Match) (scores : Category → Int) (c : Category) :
    ms.foldl step scores c = scores c + balance ms c := by
  induction ms generalizing scores with
  | nil => exact (add_zero _).symm
  | cons m ms ih =>
    rw [List.foldl_cons, ih, step_eq, balance, balance, List.map_cons, List.sum_cons, add_assoc]

/-- The score of a category is the **sum** of its deltas, kept in bounds at the end. -/
theorem ofCategory_eq (ms : List Match) (c : Category) :
    ofCategory ms c = clamp (base + balance ms c) := by
  rw [ofCategory, foldl_step]

/-- **One more match** adds its delta to its category, wherever it stands. -/
theorem balance_insert (before after : List Match) (m : Match) (c : Category) :
    balance (before ++ m :: after) c = balance (before ++ after) c + share c m.pair := by
  unfold balance
  rw [List.map_append, List.map_cons, List.map_append, List.sum_append, List.sum_cons,
    List.sum_append]
  omega

/-- The order of the matches does not matter, nor anything in them but categories and severities. -/
theorem balance_congr {ms ms' : List Match} (h : (ms.map Match.pair).Perm (ms'.map Match.pair))
    (c : Category) : balance ms c = balance ms' c := by
  have hShares := (h.map (share c)).sum_eq
  rw [List.map_map, List.map_map] at hShares
  exact hShares

/-- The sum from the **number** of matches of each severity. -/
theorem balance_eq_counts (ms : List Match) (c : Category) :
    balance ms c = -15 * (ms.map Match.pair).count (c, .critical)
      - 8 * (ms.map Match.pair).count (c, .warning) - 3 * (ms.map Match.pair).count (c, .info)
      + 2 * (ms.map Match.pair).count (c, .good) := by
  induction ms with
  | nil => rfl
  | cons m ms ih =>
    have hCons : balance (m :: ms) c = share c m.pair + balance ms c := by
      rw [balance, List.map_cons, List.sum_cons]
      rfl
    rw [hCons, ih]
    simp only [List.map_cons, List.count_cons]
    generalize m.pair = p
    obtain ⟨d, severity⟩ := p
    by_cases hc : c = d
    · subst hc
      cases severity <;> simp [share, Severity.delta] <;> omega
    · have hShare : share c (d, severity) = 0 := if_neg hc
      have hOther : ∀ s : Severity, ((d, severity) == (c, s)) = false := by
        intro s
        rw [beq_eq_false_iff_ne]
        rintro ⟨⟩
        exact hc rfl
      simp [hShare, hOther]

/-- The **score** from the number of matches of each severity. -/
theorem ofCategory_eq_counts (ms : List Match) (c : Category) :
    ofCategory ms c = max 0 (min 100 ((100 : Int)
      - 15 * (ms.map Match.pair).count (c, .critical)
      - 8 * (ms.map Match.pair).count (c, .warning) - 3 * (ms.map Match.pair).count (c, .info)
      + 2 * (ms.map Match.pair).count (c, .good))) := by
  rw [ofCategory_eq, balance_eq_counts, clamp, base]
  refine congrArg (fun n : Int => max 0 (min 100 n)) ?_
  omega

/-- The scores of the categories are in bounds. -/
theorem ofCategory_bounds (ms : List Match) (c : Category) :
    0 ≤ ofCategory ms c ∧ ofCategory ms c ≤ base :=
  ⟨clamp_nonneg _, clamp_le _⟩

end Score

theorem Breakdown.get_ofMatches (ms : List Match) :
    (Breakdown.ofMatches ms).get = Score.ofCategory ms := by
  funext c
  cases c <;> rfl

end ScriptLint
