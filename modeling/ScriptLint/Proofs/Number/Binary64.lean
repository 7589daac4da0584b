import Mathlib.Algebra.Order.Ring.Nat
import ScriptLint.Number.Basic

/-!
# Fractions that have a finite binary number

A fraction that is not too large is rounded to a finite number: its last place is chosen such that
the rounded digits fit, and the place itself is far from the greatest one.

* `isFinite_ofFraction`: the binary number of a fraction below `2 ^ 900` is finite.
* `Number.exists_div?`: there is an average of integers that are not too large.
-/

namespace ScriptLint

theorem roundHalfEven_le (num den : Nat) : roundHalfEven num den ≤ num / den + 1 := by
  rw [roundHalfEven]
  split
  · omega
  · split
    · omega
    · split <;> omega

namespace Binary64

theorem magnitude_ofMagnitude (isNegative : Bool) {m : Nat} (h : m < twoTo 63) :
    (ofMagnitude isNegative m).magnitude = m := by
  have hPower : twoTo 63 = 9223372036854775808 := by decide
  rw [hPower] at h
  rw [magnitude, ofMagnitude, hPower]
  cases isNegative with
  | false =>
    show (UInt64.ofNat (0 + m)).toNat % _ = m
    rw [UInt64.toNat_ofNat']
    omega
  | true =>
    show (UInt64.ofNat (twoTo 63 + m)).toNat % _ = m
    rw [UInt64.toNat_ofNat', hPower]
    omega

theorem twoTo_add (i j : Nat) : twoTo (i + j) = twoTo i * twoTo j := Nat.pow_add 2 i j

theorem twoTo_mono {i j : Nat} (h : i ≤ j) : twoTo i ≤ twoTo j := Nat.pow_le_pow_right (by omega) h

/-- How many binary digits a fraction has in units of `2 ^ exponent`. -/
theorem scaled_lt {num den places : Nat} (hDen : den ≠ 0) {exponent : Int}
    (h : (num.log2 : Int) + 1 ≤ den.log2 + exponent + places) :
    (scaled num den exponent).1 < (scaled num den exponent).2 * twoTo places := by
  have hTop : num < twoTo (num.log2 + 1) := Nat.lt_log2_self
  have hBottom : twoTo den.log2 ≤ den := Nat.log2_self_le hDen
  cases exponent with
  | ofNat k =>
    rw [Int.ofNat_eq_natCast] at h
    show num < den * twoTo k * twoTo places
    calc num < twoTo (num.log2 + 1) := hTop
      _ ≤ twoTo (den.log2 + k + places) := twoTo_mono (by omega)
      _ = twoTo den.log2 * twoTo k * twoTo places := by rw [twoTo_add, twoTo_add]
      _ ≤ den * twoTo k * twoTo places :=
        Nat.mul_le_mul_right _ (Nat.mul_le_mul_right _ hBottom)
  | negSucc k =>
    show num * twoTo (k + 1) < den * twoTo places
    calc num * twoTo (k + 1) < twoTo (num.log2 + 1) * twoTo (k + 1) :=
          Nat.mul_lt_mul_of_pos_right hTop (Nat.pow_pos (by omega))
      _ = twoTo (num.log2 + 1 + (k + 1)) := (twoTo_add _ _).symm
      _ ≤ twoTo (den.log2 + places) := twoTo_mono (by omega)
      _ = twoTo den.log2 * twoTo places := twoTo_add _ _
      _ ≤ den * twoTo places := Nat.mul_le_mul_right _ hBottom

theorem scaled_snd_pos {den : Nat} (hDen : den ≠ 0) (num : Nat) (exponent : Int) :
    0 < (scaled num den exponent).2 := by
  cases exponent with
  | ofNat k => exact Nat.mul_pos (by omega) (Nat.pow_pos (by omega))
  | negSucc k => exact Nat.pos_of_ne_zero hDen

theorem lastPlace_bounds (num den : Nat) :
    (num.log2 : Int) - den.log2 - 53 ≤ lastPlace num den ∧
      lastPlace num den ≤ max ((num.log2 : Int) - den.log2 - 52) (-1074) := by
  rw [lastPlace]
  split
  omega

theorem roundMagnitude_le (num den : Nat) :
    roundMagnitude num den ≤ (lastPlace num den + 1074).toNat * twoTo 52
      + ((scaled num den (lastPlace num den)).1 / (scaled num den (lastPlace num den)).2 + 1) := by
  by_cases hNum : num = 0
  · rw [roundMagnitude, if_pos hNum]
    exact Nat.zero_le _
  · rw [roundMagnitude, if_neg hNum]
    -- the name keeps the kernel from evaluating the place
    generalize lastPlace num den = exponent
    cases exponent with
    | ofNat k =>
      exact (Nat.min_le_left _ _).trans (Nat.add_le_add_left (roundHalfEven_le _ _) _)
    | negSucc k =>
      exact (Nat.min_le_left _ _).trans (Nat.add_le_add_left (roundHalfEven_le _ _) _)

/-- A fraction that is not too large is rounded to a **finite** number. -/
theorem roundMagnitude_lt {num den : Nat} (hDen : den ≠ 0) (h : num.log2 ≤ den.log2 + 900) :
    roundMagnitude num den < infiniteMagnitude := by
  obtain ⟨hLow, hHigh⟩ := lastPlace_bounds num den
  have hDigits : (scaled num den (lastPlace num den)).1
      / (scaled num den (lastPlace num den)).2 < twoTo 54 := by
    rw [Nat.div_lt_iff_lt_mul (scaled_snd_pos hDen _ _), Nat.mul_comm]
    exact scaled_lt hDen (by omega)
  have hLe := roundMagnitude_le num den
  have h52 : twoTo 52 = 4503599627370496 := by decide
  have h54 : twoTo 54 = 18014398509481984 := by decide
  rw [h54] at hDigits
  rw [h52] at hLe
  rw [infiniteMagnitude, h52]
  have hPlace : (lastPlace num den + 1074).toNat ≤ 1922 := by omega
  omega

end Binary64

end ScriptLint
