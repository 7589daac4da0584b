import Mathlib.Algebra.Order.Field.Power
import Mathlib.Algebra.Order.Field.Rat
import Mathlib.Tactic.Linarith
import Mathlib.Tactic.NormNum
import Mathlib.Tactic.Positivity
import Mathlib.Tactic.Ring

/-!
# The nearest binary number

What it means that a binary number is nearest to a quantity, said without computing it: the quantity
is measured in units of its last place, and the measure is rounded to the nearest integer, a half
going to the even one.

* `NearestInt`: the integer nearest to a fraction.
* `LastPlace`: the place of the last of fifty-three binary digits, which is never below
  `2 ^ (-1074)`.
* `Nearest`: the binary number nearest to a quantity that is not negative.  Rounding is **monotone**
  (`Nearest.mono`), so it has one result (`Nearest.unique`); it keeps what has few digits
  (`Nearest.eq_of_digits`), and moves a quantity by at most half a unit of the last place
  (`Nearest.abs_sub_le`).
-/

namespace ScriptLint

/-! ### Integers -/

/-- `k` is the integer **nearest** to `x`; of two that are equally near, it is the even one. -/
structure NearestInt (x : ℚ) (k : ℕ) : Prop where
  near : |x - k| ≤ 1 / 2
  even : |x - k| = 1 / 2 → k % 2 = 0

theorem nearestInt_natCast (k : ℕ) : NearestInt k k := by
  constructor
  · rw [sub_self, abs_zero]
    norm_num
  · intro hHalf
    rw [sub_self, abs_zero] at hHalf
    norm_num at hHalf

/-- Rounding to an integer is **monotone**. -/
theorem NearestInt.mono {x y : ℚ} {k l : ℕ} (hx : NearestInt x k) (hy : NearestInt y l)
    (h : x ≤ y) : k ≤ l := by
  by_contra hLess
  have hStep : (l : ℚ) + 1 ≤ k := by exact_mod_cast Nat.lt_of_not_le hLess
  have hxNear := abs_le.mp hx.near
  have hyNear := abs_le.mp hy.near
  -- then both are the number halfway between two integers, and both of these would be even
  have hxHalf : x - k = -(1 / 2) := by linarith
  have hyHalf : y - l = 1 / 2 := by linarith
  have hk : k % 2 = 0 := hx.even (by rw [hxHalf, abs_neg, abs_of_pos one_half_pos])
  have hl : l % 2 = 0 := hy.even (by rw [hyHalf, abs_of_pos one_half_pos])
  have hNext : k = l + 1 := by
    have hCast : (k : ℚ) = l + 1 := by linarith
    exact_mod_cast hCast
  omega

theorem NearestInt.unique {x : ℚ} {k l : ℕ} (hk : NearestInt x k) (hl : NearestInt x l) : k = l :=
  le_antisymm (hk.mono hl le_rfl) (hl.mono hk le_rfl)

/-! ### The last place -/

theorem two_zpow_pos (e : ℤ) : (0 : ℚ) < 2 ^ e := by positivity

theorem two_zpow_add (e f : ℤ) : (2 : ℚ) ^ (e + f) = 2 ^ e * 2 ^ f := zpow_add₀ two_ne_zero e f

theorem two_zpow_le {e f : ℤ} : (2 : ℚ) ^ e ≤ 2 ^ f ↔ e ≤ f := zpow_le_zpow_iff_right₀ one_lt_two

theorem two_zpow_lt {e f : ℤ} : (2 : ℚ) ^ e < 2 ^ f ↔ e < f := zpow_lt_zpow_iff_right₀ one_lt_two

/-- A power of two above a positive integer is not below the **next** one. -/
theorem add_one_le_two_zpow {k : ℕ} (hk : 1 ≤ k) {j : ℤ} (h : (k : ℚ) < 2 ^ j) :
    (k : ℚ) + 1 ≤ 2 ^ j := by
  have hPositive : 0 < j := by
    have hOne : (1 : ℚ) ≤ k := by exact_mod_cast hk
    refine two_zpow_lt.mp ?_
    rw [zpow_zero]
    exact hOne.trans_lt h
  obtain ⟨i, rfl⟩ := Int.eq_ofNat_of_zero_le hPositive.le
  rw [zpow_natCast] at h ⊢
  exact_mod_cast h

/-- `2 ^ e` is the unit of the **last place** of a quantity: in this unit it has fifty-three binary
digits before the point, or fewer if the unit is the smallest one. -/
structure LastPlace (q : ℚ) (e : ℤ) : Prop where
  low : -1074 ≤ e
  lt : q < 2 ^ (e + 53)
  le : e = -1074 ∨ (2 : ℚ) ^ (e + 52) ≤ q

namespace LastPlace

variable {p q : ℚ} {e f : ℤ}

/-- With fifty-three digits in units of `2 ^ e` the last place is this one, unless it is too low. -/
theorem of_digits (hLow : (2 : ℚ) ^ (e + 52) ≤ q) (hHigh : q < 2 ^ (e + 53)) :
    LastPlace q (max e (-1074)) := by
  refine ⟨le_max_right _ _, hHigh.trans_le (two_zpow_le.mpr (by omega)), ?_⟩
  rcases le_total e (-1074) with hSmall | hLarge
  · exact .inl (max_eq_right hSmall)
  · rw [max_eq_left hLarge]
    exact .inr hLow

theorem mono (hp : LastPlace p e) (hq : LastPlace q f) (h : p ≤ q) : e ≤ f := by
  rcases hp.le with hLow | hHigh
  · rw [hLow]
    exact hq.low
  · have hPowers : (2 : ℚ) ^ (e + 52) < 2 ^ (f + 53) := hHigh.trans_lt (h.trans_lt hq.lt)
    have hLess := two_zpow_lt.mp hPowers
    omega

/-- A quantity below `2 ^ j` has no more than fifty-three digits below that. -/
theorem le_of_lt (h : LastPlace q e) {j : ℤ} (hj : -1021 ≤ j) (hq : q < 2 ^ j) : e ≤ j - 53 := by
  rcases h.le with hLow | hHigh
  · omega
  · have hLess := two_zpow_lt.mp (hHigh.trans_lt hq)
    omega

theorem div_lt (h : LastPlace q e) : q / 2 ^ e < ((2 ^ 53 : ℕ) : ℚ) := by
  rw [div_lt_iff₀ (two_zpow_pos e)]
  have hLt := h.lt
  rw [two_zpow_add, mul_comm] at hLt
  exact_mod_cast hLt

theorem le_div (h : LastPlace q e) (hLow : e ≠ -1074) : ((2 ^ 52 : ℕ) : ℚ) ≤ q / 2 ^ e := by
  rw [le_div_iff₀ (two_zpow_pos e)]
  have hLe := h.le.resolve_left hLow
  rw [two_zpow_add, mul_comm] at hLe
  exact_mod_cast hLe

/-- A rounded number of units has at most fifty-three digits, or is the next power of two. -/
theorem nearestInt_le (h : LastPlace q e) {k : ℕ} (hk : NearestInt (q / 2 ^ e) k) : k ≤ 2 ^ 53 :=
  hk.mono (nearestInt_natCast _) h.div_lt.le

theorem le_nearestInt (h : LastPlace q e) (hLow : e ≠ -1074) {k : ℕ}
    (hk : NearestInt (q / 2 ^ e) k) : 2 ^ 52 ≤ k :=
  (nearestInt_natCast _).mono hk (h.le_div hLow)

end LastPlace

/-! ### Binary numbers -/

/-- `r` is the binary number **nearest** to the quantity `q`: the number of units of the last place
is rounded to an integer. -/
def Nearest (q r : ℚ) : Prop :=
  ∃ (e : ℤ) (k : ℕ), LastPlace q e ∧ NearestInt (q / 2 ^ e) k ∧ r = k * 2 ^ e

theorem nearest_zero : Nearest 0 0 := by
  refine ⟨-1074, 0, ⟨le_rfl, two_zpow_pos _, .inl rfl⟩, ?_, by simp⟩
  simpa using nearestInt_natCast 0

namespace Nearest

variable {p q r s : ℚ}

/-- Rounding is **monotone**. -/
theorem mono (hp : Nearest p r) (hq : Nearest q s) (h : p ≤ q) : r ≤ s := by
  obtain ⟨e, k, hPlace, hk, rfl⟩ := hp
  obtain ⟨f, l, hPlace', hl, rfl⟩ := hq
  by_cases hEq : e = f
  · -- in the same units the numbers of units are compared
    subst hEq
    have hDiv : p / 2 ^ e ≤ q / 2 ^ e := div_le_div_of_nonneg_right h (two_zpow_pos e).le
    have hkl : (k : ℚ) ≤ l := by exact_mod_cast hk.mono hl hDiv
    exact mul_le_mul_of_nonneg_right hkl (two_zpow_pos e).le
  · -- otherwise a power of two lies between the results
    have hLess : e < f := lt_of_le_of_ne (hPlace.mono hPlace' h) hEq
    have hLow := hPlace.low
    have hkTop : (k : ℚ) ≤ 2 ^ (53 : ℤ) := by exact_mod_cast hPlace.nearestInt_le hk
    have hlBottom : (2 : ℚ) ^ (52 : ℤ) ≤ l := by
      exact_mod_cast hPlace'.le_nearestInt (by omega) hl
    calc (k : ℚ) * 2 ^ e ≤ 2 ^ (53 : ℤ) * 2 ^ e :=
          mul_le_mul_of_nonneg_right hkTop (two_zpow_pos e).le
      _ = 2 ^ (53 + e) := (two_zpow_add _ _).symm
      _ ≤ 2 ^ (52 + f) := two_zpow_le.mpr (by omega)
      _ = 2 ^ (52 : ℤ) * 2 ^ f := two_zpow_add _ _
      _ ≤ l * 2 ^ f := mul_le_mul_of_nonneg_right hlBottom (two_zpow_pos f).le

theorem unique (hr : Nearest q r) (hs : Nearest q s) : r = s :=
  le_antisymm (hr.mono hs le_rfl) (hs.mono hr le_rfl)

/-- A quantity below `2 ^ j` is moved by at most **half a unit** of its fifty-third digit. -/
theorem abs_sub_le (h : Nearest q r) {j : ℤ} (hj : -1021 ≤ j) (hq : q < 2 ^ j) :
    |r - q| ≤ 2 ^ (j - 54) := by
  obtain ⟨e, k, hPlace, hk, rfl⟩ := h
  have hUnit : (k : ℚ) * 2 ^ e - q = -((q / 2 ^ e - k) * 2 ^ e) := by
    rw [sub_mul, div_mul_cancel₀ q (two_zpow_pos e).ne']
    ring
  have hSplit : (2 : ℚ) ^ (j - 53) = 2 * 2 ^ (j - 54) := by
    rw [show j - 53 = 1 + (j - 54) by ring, two_zpow_add, zpow_one]
  calc |(k : ℚ) * 2 ^ e - q| = |q / 2 ^ e - k| * 2 ^ e := by
        rw [hUnit, abs_neg, abs_mul, abs_of_pos (two_zpow_pos e)]
    _ ≤ 1 / 2 * 2 ^ e := mul_le_mul_of_nonneg_right hk.near (two_zpow_pos e).le
    _ ≤ 1 / 2 * 2 ^ (j - 53) :=
        mul_le_mul_of_nonneg_left (two_zpow_le.mpr (hPlace.le_of_lt hj hq)) one_half_pos.le
    _ = 2 ^ (j - 54) := by rw [hSplit]; ring

/-- What is below `512` is moved by at most `2 ^ (-45)`. -/
theorem abs_sub_le_of_small (h : Nearest q r) (hq : q < 512) : |r - q| ≤ 2 ^ (-45 : ℤ) := by
  have hPower : (512 : ℚ) = 2 ^ (9 : ℤ) := by norm_num
  rw [hPower] at hq
  have hMoved := h.abs_sub_le (by norm_num) hq
  rwa [show (9 : ℤ) - 54 = -45 by norm_num] at hMoved

/-- A quantity with few digits is its **own** nearest number: fifty-three digits, in whatever
units. -/
theorem eq_of_digits (h : Nearest q r) {k : ℕ} {f : ℤ} (hk : k < 2 ^ 53) (hf : -1074 ≤ f)
    (hq : q = k * 2 ^ f) : r = q := by
  obtain ⟨e, l, hPlace, hl, rfl⟩ := h
  -- the last place is not above the units, so the quantity is a whole number of its places
  have hPlaces : e ≤ f := by
    rcases hPlace.le with hLow | hHigh
    · omega
    · have hTop : q < 2 ^ (53 + f) := by
        rw [hq, two_zpow_add]
        refine mul_lt_mul_of_pos_right ?_ (two_zpow_pos f)
        exact_mod_cast hk
      have hLess := two_zpow_lt.mp (hHigh.trans_lt hTop)
      omega
  obtain ⟨d, hd⟩ := Int.eq_ofNat_of_zero_le (sub_nonneg.mpr hPlaces)
  have hWhole : q / 2 ^ e = ((k * 2 ^ d : ℕ) : ℚ) := by
    rw [div_eq_iff (two_zpow_pos e).ne', hq, show f = d + e by omega, two_zpow_add, zpow_natCast]
    push_cast
    ring
  have hEq : l = k * 2 ^ d := by
    rw [hWhole] at hl
    exact hl.unique (nearestInt_natCast _)
  rw [hEq, ← hWhole, div_mul_cancel₀ q (two_zpow_pos e).ne']

end Nearest

end ScriptLint
