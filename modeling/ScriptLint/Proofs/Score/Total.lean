import ScriptLint.Proofs.Number.Arithmetic
import ScriptLint.Proofs.Score.Category

/-!
# The total

The total is added up in binary numbers, and most weights are none: each product and each sum is
rounded.  The sum is still so near to the exact one that only a sum halfway between two integers can
be rounded to the wrong one.

* `Score.weighted_within`: the binary sum is a finite number.
* `Score.weighted_mono`: it does not fall when no score falls.
* `Score.abs_weighted_sub_le`: it is near to the exact sum.
* `Score.roundHalfUp_weighted`: when it is rounded as the exact sum would be, and when it is one
  less.
* `Breakdown.total_ofMatches`: the same for the total of a list of matches.
-/

namespace ScriptLint

namespace Score

open Binary64 (Within)

/-- All scores are in bounds. -/
def InBounds (scores : Category → Int) : Prop := ∀ c, 0 ≤ scores c ∧ scores c ≤ base

/-- The score of a category times its weight. -/
def term (scores : Category → Int) (c : Category) : Binary64 :=
  (Binary64.ofInt (scores c)).mul (binaryWeight c)

theorem weighted_eq (scores : Category → Int) :
    weighted scores = (((term scores .performance).add (term scores .security)).add
      (term scores .maintainability)).add (term scores .style) := rfl

/-- The exact weighted sum, in **hundredths**. -/
def hundredths (scores : Category → Int) : Int :=
  35 * scores .performance + 30 * scores .security + 25 * scores .maintainability
    + 10 * scores .style

/-! ### Weights and terms -/

theorem binaryWeight_within (c : Category) :
    (binaryWeight c).Within 1 ∧ Nearest ((weight c : ℚ) / 100) (binaryWeight c).toRat := by
  refine Within.ofFraction (weight c) (by norm_num : 100 ≠ 0) (by norm_num) ?_
  cases c <;> norm_num [weight]

theorem term_within {scores : Category → Int} (h : InBounds scores) (c : Category) :
    (term scores c).Within 100 ∧
      Nearest (scores c * (binaryWeight c).toRat) (term scores c).toRat := by
  obtain ⟨hScore, hValue⟩ := Within.ofInt (n := 100) (h c).1 (by norm_num) (h c).2
  have hTerm := hScore.mul (binaryWeight_within c).1 (by norm_num)
  rw [hValue] at hTerm
  exact hTerm

theorem term_mono {scores scores' : Category → Int} (h : InBounds scores) (h' : InBounds scores')
    {c : Category} (hc : scores c ≤ scores' c) : (term scores c).toRat ≤ (term scores' c).toRat := by
  refine (term_within h c).2.mono (term_within h' c).2 ?_
  refine mul_le_mul_of_nonneg_right ?_ (binaryWeight_within c).1.nonneg
  exact_mod_cast hc

theorem abs_binaryWeight_sub_le (c : Category) :
    |(binaryWeight c).toRat - weight c / 100| ≤ 2 ^ (-45 : ℤ) := by
  refine (binaryWeight_within c).2.abs_sub_le_of_small ?_
  cases c <;> norm_num [weight]

/-- A term is near to the exact product: the weight is moved by its rounding, and the product by
another one. -/
theorem abs_term_sub_le {scores : Category → Int} (h : InBounds scores) (c : Category) :
    |(term scores c).toRat - scores c * (weight c / 100)| ≤ 101 * 2 ^ (-45 : ℤ) := by
  obtain ⟨hLow, hHigh⟩ := h c
  have hScoreLow : (0 : ℚ) ≤ scores c := by exact_mod_cast hLow
  have hScoreHigh : (scores c : ℚ) ≤ 100 := by exact_mod_cast hHigh
  have hWeight := abs_binaryWeight_sub_le c
  have hWeightHigh : (binaryWeight c).toRat ≤ 1 := by exact_mod_cast (binaryWeight_within c).1.le
  have hSmall : (scores c : ℚ) * (binaryWeight c).toRat < 512 := by
    calc (scores c : ℚ) * (binaryWeight c).toRat ≤ 100 * 1 :=
          mul_le_mul hScoreHigh hWeightHigh (binaryWeight_within c).1.nonneg (by norm_num)
      _ < 512 := by norm_num
  have hRounded := (term_within h c).2.abs_sub_le_of_small hSmall
  have hMoved : |(scores c : ℚ) * (binaryWeight c).toRat - scores c * (weight c / 100)|
      ≤ 100 * 2 ^ (-45 : ℤ) := by
    rw [← mul_sub, abs_mul, abs_of_nonneg hScoreLow]
    exact mul_le_mul hScoreHigh hWeight (abs_nonneg _) (by norm_num)
  calc |(term scores c).toRat - scores c * (weight c / 100)|
      ≤ |(term scores c).toRat - scores c * (binaryWeight c).toRat|
        + |(scores c : ℚ) * (binaryWeight c).toRat - scores c * (weight c / 100)| :=
        abs_sub_le _ _ _
    _ ≤ 2 ^ (-45 : ℤ) + 100 * 2 ^ (-45 : ℤ) := add_le_add hRounded hMoved
    _ = 101 * 2 ^ (-45 : ℤ) := by ring

/-! ### Sums -/

section Sums

variable {scores scores' : Category → Int}

theorem two_terms_within (h : InBounds scores) :
    ((term scores .performance).add (term scores .security)).Within 200 :=
  ((term_within h .performance).1.add (term_within h .security).1 (by norm_num)).1

theorem three_terms_within (h : InBounds scores) :
    (((term scores .performance).add (term scores .security)).add
      (term scores .maintainability)).Within 300 :=
  ((two_terms_within h).add (term_within h .maintainability).1 (by norm_num)).1

theorem weighted_within (h : InBounds scores) : (weighted scores).Within 400 :=
  ((three_terms_within h).add (term_within h .style).1 (by norm_num)).1

/-- The binary sum is **monotone**: it does not fall when no score falls. -/
theorem weighted_mono (h : InBounds scores) (h' : InBounds scores')
    (hLe : ∀ c, scores c ≤ scores' c) : (weighted scores).toRat ≤ (weighted scores').toRat := by
  have hTerm := fun c => term_mono h h' (hLe c)
  have hTwo := (term_within h .performance).1.add_mono (term_within h .security).1
    (term_within h' .performance).1 (term_within h' .security).1 (by norm_num) (hTerm _) (hTerm _)
  have hThree := (two_terms_within h).add_mono (term_within h .maintainability).1
    (two_terms_within h') (term_within h' .maintainability).1 (by norm_num) hTwo (hTerm _)
  exact (three_terms_within h).add_mono (term_within h .style).1
    (three_terms_within h') (term_within h' .style).1 (by norm_num) hThree (hTerm _)

/-- The binary sum is **near** to the exact one. -/
theorem abs_weighted_sub_le (h : InBounds scores) :
    |(weighted scores).toRat - hundredths scores / 100| ≤ 1 / 1000000 := by
  have hTerm := abs_term_sub_le h
  have hTwo := (term_within h .performance).1.abs_add_sub_le (term_within h .security).1
    (by norm_num) (hTerm _) (hTerm _)
  have hThree := (two_terms_within h).abs_add_sub_le (term_within h .maintainability).1
    (by norm_num) hTwo (hTerm _)
  have hFour := (three_terms_within h).abs_add_sub_le (term_within h .style).1
    (by norm_num) hThree (hTerm _)
  have hExact : (hundredths scores : ℚ) / 100
      = scores .performance * ((weight .performance : ℕ) / 100)
        + scores .security * ((weight .security : ℕ) / 100)
        + scores .maintainability * ((weight .maintainability : ℕ) / 100)
        + scores .style * ((weight .style : ℕ) / 100) := by
    simp only [hundredths, weight]
    push_cast
    ring
  rw [hExact, weighted_eq]
  refine hFour.trans ?_
  norm_num

end Sums

/-! ### Halves -/

theorem half_within : half.Within 1 ∧ half.toRat = 1 / 2 := by
  obtain ⟨hWithin, hNearest⟩ := Within.ofFraction (n := 1) 1 two_ne_zero (by norm_num) (by norm_num)
  refine ⟨hWithin, (hNearest.eq_of_digits (k := 1) (f := -1) ?_ ?_ ?_).trans ?_⟩ <;> norm_num

theorem roundHalfUp_eq {x : Binary64} {n : ℕ} (hx : x.Within n) (hn : n + 1 < 2 ^ 53) :
    roundHalfUp x = ⌊(x.add half).toRat⌋ := by
  rw [roundHalfUp, (hx.add half_within.1 hn).1.floor?_eq, Option.getD_some]

theorem roundHalfUp_mono {x y : Binary64} {n : ℕ} (hx : x.Within n) (hy : y.Within n)
    (hn : n + 1 < 2 ^ 53) (h : x.toRat ≤ y.toRat) : roundHalfUp x ≤ roundHalfUp y := by
  rw [roundHalfUp_eq hx hn, roundHalfUp_eq hy hn]
  exact Int.floor_mono (hx.add_mono half_within.1 hy half_within.1 hn h le_rfl)

/-- Adding one half is **exact** for a number that is little below a half: the sum is below the next
integer, and so it has no more digits than the number. -/
theorem toRat_add_half {x : Binary64} (hx : x.Within 400) {k : ℕ} (hk : 1 ≤ k)
    (hLow : k < x.toRat) (hHigh : x.toRat < k + 1 / 2) :
    (x.add half).toRat = x.toRat + 1 / 2 := by
  obtain ⟨m, e, hValue⟩ := hx.finite
  have hRat := Binary64.toRat_of_value hValue
  have hNext : (k : ℚ) + 1 ≤ 2 ^ (53 + e) :=
    add_one_le_two_zpow hk (hLow.trans (Binary64.toRat_lt_of_value hValue))
  -- one half is a whole number of units
  have hUnits : 52 + e < 9 := by
    refine Binary64.place_lt_of_value hValue (by norm_num) (hx.le.trans_lt ?_)
    norm_num
  obtain ⟨d, hd⟩ := Int.eq_ofNat_of_zero_le (show 0 ≤ -1 - e by omega)
  have hSum : x.toRat + 1 / 2 = ((m + 2 ^ d : ℕ) : ℚ) * 2 ^ e := by
    have hHalf : (2 : ℚ) ^ (-1 : ℤ) = 2 ^ d * 2 ^ e := by
      rw [show (-1 : ℤ) = d + e by omega, two_zpow_add, zpow_natCast]
    rw [hRat, Nat.cast_add, add_mul, Nat.cast_pow, Nat.cast_ofNat, ← hHalf]
    norm_num
  have hFew : ((m + 2 ^ d : ℕ) : ℚ) * 2 ^ e < 2 ^ (53 : ℤ) * 2 ^ e := by
    rw [← hSum, ← two_zpow_add]
    linarith
  have hNearest := (hx.add half_within.1 (by norm_num)).2
  rw [half_within.2] at hNearest
  refine hNearest.eq_of_digits (k := m + 2 ^ d) ?_ (Binary64.digits_of_value hValue).2.1 hSum
  exact_mod_cast lt_of_mul_lt_mul_right hFew (two_zpow_pos e).le

/-- The sum of one half is exact: only three ways lead to it. -/
theorem weighted_of_fifty {scores : Category → Int} (h : InBounds scores)
    (hFifty : hundredths scores = 50) : weighted scores = half := by
  have hp := (h .performance).1
  have hs := (h .security).1
  have hm := (h .maintainability).1
  have hy := (h .style).1
  unfold hundredths at hFifty
  rw [weighted_eq]
  unfold term
  generalize scores .performance = p at *
  generalize scores .security = s at *
  generalize scores .maintainability = m at *
  generalize scores .style = y at *
  have hpZero : p = 0 := by omega
  have hsSmall : s = 0 ∨ s = 1 := by omega
  have hmSmall : m = 0 ∨ m = 1 ∨ m = 2 := by omega
  have hCases : (s = 0 ∧ m = 2 ∧ y = 0) ∨ (s = 0 ∧ m = 0 ∧ y = 5) ∨ (s = 1 ∧ m = 0 ∧ y = 2) := by
    rcases hsSmall with rfl | rfl <;> rcases hmSmall with rfl | rfl | rfl <;> omega
  subst hpZero
  rcases hCases with ⟨rfl, rfl, rfl⟩ | ⟨rfl, rfl, rfl⟩ | ⟨rfl, rfl, rfl⟩ <;> decide +kernel

/-! ### Rounding the sum -/

section Rounding

variable {scores : Category → Int}

theorem hundredths_bounds (h : InBounds scores) :
    0 ≤ hundredths scores ∧ hundredths scores ≤ 10000 := by
  have hp := h .performance
  have hs := h .security
  have hm := h .maintainability
  have hy := h .style
  unfold base at hp hs hm hy
  unfold hundredths
  omega

theorem abs_add_half_sub_le (h : InBounds scores) :
    |((weighted scores).add half).toRat - (hundredths scores / 100 + 1 / 2)| ≤ 1 / 1000 := by
  have hHalf : |half.toRat - 1 / 2| ≤ 0 := by rw [half_within.2, sub_self, abs_zero]
  refine ((weighted_within h).abs_add_sub_le half_within.1 (by norm_num) (abs_weighted_sub_le h)
    hHalf).trans ?_
  norm_num

/-- Away from a half the sum is rounded as the **exact** one. -/
theorem roundHalfUp_of_not_half (h : InBounds scores) (hTie : hundredths scores % 100 ≠ 50) :
    roundHalfUp (weighted scores) = (hundredths scores + 50) / 100 := by
  have hNear := abs_le.mp (abs_add_half_sub_le h)
  rw [roundHalfUp_eq (weighted_within h) (by norm_num), Int.floor_eq_iff]
  generalize hundredths scores = w at *
  generalize ((weighted scores).add half).toRat = v at *
  -- the sum is at least one hundredth away from both integers around it
  have hSplit : (w : ℚ) + 50 = 100 * ((w + 50) / 100 : ℤ) + ((w + 50) % 100 : ℤ) := by
    exact_mod_cast (Int.mul_ediv_add_emod (w + 50) 100).symm
  have hLow : (1 : ℚ) ≤ ((w + 50) % 100 : ℤ) := by
    exact_mod_cast (by omega : 1 ≤ (w + 50) % 100)
  have hHigh : (((w + 50) % 100 : ℤ) : ℚ) ≤ 99 := by
    exact_mod_cast (by omega : (w + 50) % 100 ≤ 99)
  constructor <;> linarith

/-- At a half the sum is rounded upward, unless it has **fallen below** the half. -/
theorem roundHalfUp_of_half (h : InBounds scores) {k : ℕ}
    (hTie : hundredths scores = 100 * k + 50) :
    roundHalfUp (weighted scores)
      = if (weighted scores).toRat < hundredths scores / 100 then (k : Int) else k + 1 := by
  have hHalf : (hundredths scores : ℚ) / 100 = k + 1 / 2 := by
    rw [hTie]
    push_cast
    ring
  have hNear := abs_le.mp (abs_weighted_sub_le h)
  have hNearSum := abs_le.mp (abs_add_half_sub_le h)
  have hx := weighted_within h
  rw [hHalf] at hNear hNearSum ⊢
  rw [roundHalfUp_eq hx (by norm_num)]
  by_cases hBelow : (weighted scores).toRat < k + 1 / 2
  · -- a half itself is never missed, so the integer below is positive
    have hk : 1 ≤ k := by
      by_contra hZero
      have hFifty : hundredths scores = 50 := by omega
      rw [weighted_of_fifty h hFifty, half_within.2, show k = 0 by omega] at hBelow
      norm_num at hBelow
    have hExact := toRat_add_half hx hk (by linarith) hBelow
    rw [if_pos hBelow, hExact, Int.floor_eq_iff]
    push_cast
    constructor <;> linarith
  · have hUp : ((k + 1 : ℕ) : ℚ) ≤ ((weighted scores).add half).toRat := by
      have hTop := (hundredths_bounds h).2
      refine (nearest_natCast (by omega)).mono (hx.add half_within.1 (by norm_num)).2 ?_
      rw [half_within.2]
      push_cast
      linarith
    push_cast at hUp
    rw [if_neg hBelow, Int.floor_eq_iff]
    push_cast
    constructor <;> linarith

/-- The sum is rounded as the **exact** one, or to one less if it is a half and has fallen below. -/
theorem roundHalfUp_weighted (h : InBounds scores) :
    roundHalfUp (weighted scores) = (hundredths scores + 50) / 100 -
      if hundredths scores % 100 = 50 ∧ (weighted scores).toRat < hundredths scores / 100
        then 1 else 0 := by
  by_cases hTie : hundredths scores % 100 = 50
  · obtain ⟨k, hk⟩ := Int.eq_ofNat_of_zero_le
      (Int.ediv_nonneg (hundredths_bounds h).1 (by norm_num : (0 : Int) ≤ 100))
    have hHundredths : hundredths scores = 100 * k + 50 := by omega
    rw [roundHalfUp_of_half h hHundredths]
    by_cases hBelow : (weighted scores).toRat < hundredths scores / 100
    · rw [if_pos hBelow, if_pos ⟨hTie, hBelow⟩]
      omega
    · rw [if_neg hBelow, if_neg fun hBoth => hBelow hBoth.2]
      omega
  · rw [roundHalfUp_of_not_half h hTie, if_neg fun hBoth => hTie hBoth.1, sub_zero]

/-- The rounded sum is in bounds by itself. -/
theorem roundHalfUp_bounds (h : InBounds scores) :
    0 ≤ roundHalfUp (weighted scores) ∧ roundHalfUp (weighted scores) ≤ base := by
  have hBounds := hundredths_bounds h
  have hRound := roundHalfUp_weighted h
  unfold base
  split at hRound <;> omega

end Rounding

theorem inBounds_ofCategory (ms : List Match) : InBounds (ofCategory ms) := ofCategory_bounds ms

theorem total_eq (ms : List Match) :
    (Breakdown.ofMatches ms).total = roundHalfUp (weighted (ofCategory ms)) := by
  obtain ⟨hLow, hHigh⟩ := roundHalfUp_bounds (inBounds_ofCategory ms)
  exact clamp_of_bounds hLow hHigh

end Score

/-! ### The total of a list of matches -/

/-- **When the total is the exact one.**  The total of a list of matches is the weighted sum of the
four scores, rounded to the nearest integer with halves upward, with one exception: where the exact
sum ends in a half and the sum of the binary numbers has fallen below it, the total is one less. -/
theorem Breakdown.total_ofMatches (ms : List Match) :
    let b := Breakdown.ofMatches ms
    let hundredths := 35 * b.performance + 30 * b.security + 25 * b.maintainability + 10 * b.style
    b.total = (hundredths + 50) / 100 -
      if hundredths % 100 = 50 ∧ (Score.weighted b.get).toRat < hundredths / 100
        then 1 else 0 := by
  intro b hundredths
  have hGet : b.get = Score.ofCategory ms := Breakdown.get_ofMatches ms
  rw [hGet]
  exact (Score.total_eq ms).trans (Score.roundHalfUp_weighted (Score.inBounds_ofCategory ms))

/-- A match of a given severity and category. -/
def plainMatch (severity : Severity) (category : Category) : Match :=
  ⟨"r", severity, category, ⟨1, 0, 1, 0, 0, 0⟩, "a.js", 1, 0, none⟩

/-- Matches that leave the scores 92, 85, 100 and 68. -/
def halfMatches : List Match :=
  [plainMatch .warning .performance, plainMatch .critical .security, plainMatch .warning .style,
    plainMatch .warning .style, plainMatch .warning .style, plainMatch .warning .style]

/-- The exact sum of these scores is 89.5, and the total is 89. -/
theorem total_halfMatches :
    let b := Breakdown.ofMatches halfMatches
    b.total = 89 ∧
      (35 * b.performance + 30 * b.security + 25 * b.maintainability + 10 * b.style + 50) / 100
        = 90 := by
  decide +kernel

end ScriptLint
