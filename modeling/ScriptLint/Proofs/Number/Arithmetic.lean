import Mathlib.Data.Rat.Floor
import ScriptLint.Proofs.Number.Binary64
import ScriptLint.Proofs.Number.Nearest

/-!
# Arithmetic rounds once

Fractions, sums and products of binary numbers are the binary numbers nearest to the exact results.
The numbers here are finite and not negative, and far from the greatest one.

* `roundHalfEven_nearestInt`, `lastPlace_lastPlace`: the two parts of rounding compute what their
  names say.
* `Binary64.toRat`: the exact value of a number.
* `Binary64.Within`: a finite number from zero to a given integer.
* `Within.ofFraction`, `Within.add`, `Within.mul`: the results are nearest to the exact ones, and
  where they lie.
* `Within.floor?_eq`: the floor of a number is that of its value.
-/

namespace ScriptLint

/-! ### The two parts of rounding -/

theorem roundHalfEven_nearestInt {den : ℕ} (hDen : den ≠ 0) (num : ℕ) :
    NearestInt ((num : ℚ) / den) (roundHalfEven num den) := by
  have hPos : (0 : ℚ) < den := by exact_mod_cast Nat.pos_of_ne_zero hDen
  have hQuotient : (num : ℚ) / den = (num / den : ℕ) + (num % den : ℕ) / den := by
    rw [div_eq_iff hPos.ne', add_mul, div_mul_cancel₀ _ hPos.ne']
    exact_mod_cast (Nat.div_add_mod' num den).symm
  have hRest : num % den < den := Nat.mod_lt _ (Nat.pos_of_ne_zero hDen)
  rw [hQuotient, roundHalfEven]
  generalize num / den = quotient at *
  generalize num % den = rest at *
  have hNonneg : (0 : ℚ) ≤ rest / den := by positivity
  have hBelow : (rest : ℚ) / den < 1 := by
    rw [div_lt_one hPos]
    exact_mod_cast hRest
  by_cases hLess : 2 * rest < den
  · have hHalf : (rest : ℚ) / den < 1 / 2 := by
      rw [div_lt_div_iff₀ hPos two_pos, one_mul, mul_comm]
      exact_mod_cast hLess
    rw [if_pos hLess]
    constructor
    · rw [add_sub_cancel_left, abs_of_nonneg hNonneg]
      exact hHalf.le
    · intro hTie
      rw [add_sub_cancel_left, abs_of_nonneg hNonneg] at hTie
      exact absurd hTie hHalf.ne
  · rw [if_neg hLess]
    by_cases hMore : den < 2 * rest
    · have hHalf : 1 / 2 < (rest : ℚ) / den := by
        rw [div_lt_div_iff₀ two_pos hPos, one_mul, mul_comm (rest : ℚ)]
        exact_mod_cast hMore
      have hUp : |(quotient : ℚ) + rest / den - (quotient + 1 : ℕ)| = 1 - rest / den := by
        rw [abs_of_nonpos (by push_cast; linarith)]
        push_cast
        ring
      rw [if_pos hMore]
      constructor
      · rw [hUp]
        linarith
      · intro hTie
        rw [hUp] at hTie
        linarith
    · -- halfway between two integers
      have hHalf : (rest : ℚ) / den = 1 / 2 := by
        rw [div_eq_div_iff hPos.ne' two_ne_zero, one_mul, mul_comm]
        exact_mod_cast (by omega : 2 * rest = den)
      rw [if_neg hMore, hHalf]
      by_cases hEven : quotient % 2 = 0
      · rw [if_pos hEven]
        refine ⟨?_, fun _ => hEven⟩
        rw [add_sub_cancel_left, abs_of_pos one_half_pos]
      · rw [if_neg hEven]
        refine ⟨?_, fun _ => by omega⟩
        rw [abs_of_nonpos (by push_cast; linarith)]
        push_cast
        linarith

namespace Binary64

theorem cast_twoTo (k : ℕ) : ((twoTo k : ℕ) : ℚ) = 2 ^ (k : ℤ) := by
  rw [zpow_natCast]
  exact Nat.cast_pow 2 k

/-- In units of `2 ^ exponent` a fraction is divided by this power. -/
theorem scaled_div (num den : ℕ) (exponent : ℤ) :
    ((scaled num den exponent).1 : ℚ) / (scaled num den exponent).2 = num / den / 2 ^ exponent := by
  cases exponent with
  | ofNat k =>
    show (num : ℚ) / (den * twoTo k : ℕ) = _
    rw [Nat.cast_mul, cast_twoTo, Int.ofNat_eq_natCast, div_div]
  | negSucc k =>
    show ((num * twoTo (k + 1) : ℕ) : ℚ) / den = _
    rw [Nat.cast_mul, cast_twoTo, Int.negSucc_eq, zpow_neg, div_inv_eq_mul, div_mul_eq_mul_div]
    push_cast
    rfl

theorem log2_bounds {n : ℕ} (hn : n ≠ 0) :
    (2 : ℚ) ^ (n.log2 : ℤ) ≤ n ∧ (n : ℚ) < 2 ^ ((n.log2 : ℤ) + 1) := by
  constructor
  · rw [zpow_natCast]
    exact_mod_cast Nat.log2_self_le hn
  · rw [show (n.log2 : ℤ) + 1 = (n.log2 + 1 : ℕ) by norm_cast, zpow_natCast]
    exact_mod_cast Nat.lt_log2_self (n := n)

/-- The logarithms of its parts bracket a fraction. -/
theorem fraction_bounds {num den : ℕ} (hNum : num ≠ 0) (hDen : den ≠ 0) :
    (2 : ℚ) ^ ((num.log2 : ℤ) - den.log2 - 1) ≤ num / den ∧
      (num : ℚ) / den < 2 ^ ((num.log2 : ℤ) - den.log2 + 1) := by
  have hPos : (0 : ℚ) < den := by exact_mod_cast Nat.pos_of_ne_zero hDen
  obtain ⟨hNumLow, hNumHigh⟩ := log2_bounds hNum
  obtain ⟨hDenLow, hDenHigh⟩ := log2_bounds hDen
  constructor
  · rw [le_div_iff₀ hPos]
    calc (2 : ℚ) ^ ((num.log2 : ℤ) - den.log2 - 1) * den
        ≤ 2 ^ ((num.log2 : ℤ) - den.log2 - 1) * 2 ^ ((den.log2 : ℤ) + 1) :=
          mul_le_mul_of_nonneg_left hDenHigh.le (two_zpow_pos _).le
      _ = 2 ^ (num.log2 : ℤ) := by rw [← two_zpow_add]; congr 1; ring
      _ ≤ num := hNumLow
  · rw [div_lt_iff₀ hPos]
    calc (num : ℚ) < 2 ^ ((num.log2 : ℤ) + 1) := hNumHigh
      _ = 2 ^ ((num.log2 : ℤ) - den.log2 + 1) * 2 ^ (den.log2 : ℤ) := by
          rw [← two_zpow_add]; congr 1; ring
      _ ≤ 2 ^ ((num.log2 : ℤ) - den.log2 + 1) * den :=
          mul_le_mul_of_nonneg_left hDenLow (two_zpow_pos _).le

theorem scaled_lt_iff {den : ℕ} (hDen : den ≠ 0) (num : ℕ) (exponent : ℤ) (places : ℕ) :
    (scaled num den exponent).1 < (scaled num den exponent).2 * twoTo places ↔
      (num : ℚ) / den < 2 ^ (exponent + places) := by
  have hPos : (0 : ℚ) < (scaled num den exponent).2 := by
    exact_mod_cast scaled_snd_pos hDen num exponent
  rw [two_zpow_add, ← div_lt_iff₀' (two_zpow_pos exponent), ← scaled_div, div_lt_iff₀' hPos,
    ← cast_twoTo]
  exact_mod_cast Iff.rfl

theorem lastPlace_lastPlace {num den : ℕ} (hNum : num ≠ 0) (hDen : den ≠ 0) :
    LastPlace ((num : ℚ) / den) (lastPlace num den) := by
  obtain ⟨hLow, hHigh⟩ := fraction_bounds hNum hDen
  have hScaled := scaled_lt_iff hDen num ((num.log2 : ℤ) - den.log2 - 52) 52
  unfold lastPlace
  generalize hGuess : (num.log2 : ℤ) - den.log2 - 52 = guess at hScaled ⊢
  rw [show (num.log2 : ℤ) - den.log2 - 1 = guess + 51 by omega] at hLow
  rw [show (num.log2 : ℤ) - den.log2 + 1 = guess + 53 by omega] at hHigh
  by_cases hLess : (scaled num den guess).1 < (scaled num den guess).2 * twoTo 52
  · -- one digit is missing in units of the guess
    simp only [if_pos hLess]
    refine .of_digits ?_ ?_
    · rwa [show guess - 1 + 52 = guess + 51 by ring]
    · rw [show guess - 1 + 53 = guess + (52 : ℕ) by push_cast; ring]
      exact hScaled.mp hLess
  · simp only [if_neg hLess]
    exact .of_digits (not_lt.mp (hScaled.not.mp hLess)) hHigh

/-- A fraction in units of `2 ^ exponent` is rounded to the nearest number of units. -/
theorem scaled_nearestInt {den : ℕ} (hDen : den ≠ 0) (num : ℕ) (exponent : ℤ) :
    NearestInt ((num : ℚ) / den / 2 ^ exponent)
      (roundHalfEven (scaled num den exponent).1 (scaled num den exponent).2) := by
  rw [← scaled_div]
  exact roundHalfEven_nearestInt (scaled_snd_pos hDen num exponent).ne' _

/-- Every fraction has a nearest binary number. -/
theorem exists_nearest {den : ℕ} (hDen : den ≠ 0) (num : ℕ) : ∃ r, Nearest ((num : ℚ) / den) r := by
  by_cases hNum : num = 0
  · refine ⟨0, ?_⟩
    rw [hNum, Nat.cast_zero, zero_div]
    exact nearest_zero
  · have hPlace := lastPlace_lastPlace hNum hDen
    exact ⟨_, _, _, hPlace, scaled_nearestInt hDen num _, rfl⟩

/-! ### The value of a number -/

/-- The exact value of a number; what is not finite has none and counts as zero. -/
def Value.toRat : Value → ℚ
  | .finite isNegative mantissa exponent => signed isNegative mantissa * 2 ^ exponent
  | _ => 0

/-- The exact value of a number. -/
def toRat (x : Binary64) : ℚ := x.value.toRat

/-- A **finite number** from zero to `n`. -/
structure Within (x : Binary64) (n : ℕ) : Prop where
  finite : ∃ mantissa exponent, x.value = .finite false mantissa exponent
  le : x.toRat ≤ n

theorem toRat_of_value {x : Binary64} {m : ℕ} {e : ℤ} (h : x.value = .finite false m e) :
    x.toRat = m * 2 ^ e := by
  rw [toRat, h]
  rfl

theorem value_ofMagnitude {m : ℕ} (h : m < infiniteMagnitude) :
    (ofMagnitude false m).value = if m < twoTo 52 then .finite false m (-1074)
      else .finite false (twoTo 52 + m % twoTo 52) ((m / twoTo 52 : ℕ) - 1075) := by
  have hTop : infiniteMagnitude < twoTo 63 := by decide
  have hSign : (ofMagnitude false m).negative = false := by
    show decide (twoTo 63 ≤ (UInt64.ofNat (0 + m)).toNat) = false
    rw [decide_eq_false_iff_not, Nat.zero_add, UInt64.toNat_ofNat']
    have hMod := Nat.mod_le m (2 ^ 64)
    omega
  rw [value, magnitude_ofMagnitude false (h.trans hTop), hSign, if_neg (by omega),
    if_neg (by omega)]

/-- A number has at most fifty-three digits, and fewer only at the lowest place. -/
theorem digits_of_value {x : Binary64} {isNegative : Bool} {m : ℕ} {e : ℤ}
    (h : x.value = .finite isNegative m e) :
    m < 2 ^ 53 ∧ -1074 ≤ e ∧ (e = -1074 ∨ 2 ^ 52 ≤ m) := by
  have h52 : twoTo 52 = 4503599627370496 := by decide
  rw [value, h52] at h
  split at h
  · cases h
  · split at h
    · cases h
    · split at h
      · cases h
        omega
      · cases h
        omega

theorem toRat_lt_of_value {x : Binary64} {m : ℕ} {e : ℤ} (h : x.value = .finite false m e) :
    x.toRat < 2 ^ (53 + e) := by
  rw [toRat_of_value h, two_zpow_add]
  refine mul_lt_mul_of_pos_right ?_ (two_zpow_pos e)
  exact_mod_cast (digits_of_value h).1

/-- The last place of a number below `2 ^ j` is fifty-three digits below that, or lower. -/
theorem place_lt_of_value {x : Binary64} {m : ℕ} {e : ℤ} (h : x.value = .finite false m e) {j : ℤ}
    (hj : -1022 < j) (hx : x.toRat < 2 ^ j) : 52 + e < j := by
  obtain ⟨-, -, hLowest | hNormal⟩ := digits_of_value h
  · omega
  · have hBottom : (2 : ℚ) ^ (52 + e) ≤ x.toRat := by
      rw [toRat_of_value h, two_zpow_add]
      refine mul_le_mul_of_nonneg_right ?_ (two_zpow_pos e).le
      exact_mod_cast hNormal
    exact two_zpow_lt.mp (hBottom.trans_lt hx)

/-- A magnitude put together from a place and a number of units has their product as its value. -/
theorem value_ofMagnitude_place {e : ℤ} {k : ℕ} (hLow : -1074 ≤ e) (hTop : k ≤ twoTo 53)
    (hBottom : e ≠ -1074 → twoTo 52 ≤ k)
    (h : (e + 1074).toNat * twoTo 52 + k < infiniteMagnitude) :
    ∃ m f, (ofMagnitude false ((e + 1074).toNat * twoTo 52 + k)).value = .finite false m f ∧
      (m : ℚ) * 2 ^ f = k * 2 ^ e := by
  have h52 : twoTo 52 = 4503599627370496 := by decide
  have h53 : twoTo 53 = 9007199254740992 := by decide
  rw [value_ofMagnitude h]
  rw [h52] at hBottom ⊢
  rw [h53] at hTop
  by_cases hSmall : k < 4503599627370496
  · -- only at the lowest place there are fewer digits
    have he : e = -1074 := by
      by_contra hNe
      have := hBottom hNe
      omega
    subst he
    rw [if_pos (by omega)]
    exact ⟨_, _, rfl, by norm_num⟩
  · rw [if_neg (by omega)]
    refine ⟨_, _, rfl, ?_⟩
    by_cases hCarry : k = 9007199254740992
    · -- one more digit, and so the next place
      have hMantissa : ((e + 1074).toNat * 4503599627370496 + k) % 4503599627370496 = 0 := by omega
      have hPlace : ((((e + 1074).toNat * 4503599627370496 + k) / 4503599627370496 : ℕ) : ℤ) - 1075
          = 1 + e := by omega
      rw [hMantissa, hPlace, hCarry, two_zpow_add]
      norm_num
      ring
    · have hMantissa : 4503599627370496
          + ((e + 1074).toNat * 4503599627370496 + k) % 4503599627370496 = k := by omega
      have hPlace : ((((e + 1074).toNat * 4503599627370496 + k) / 4503599627370496 : ℕ) : ℤ) - 1075
          = e := by omega
      rw [hMantissa, hPlace]

end Binary64

/-- A small integer is its own nearest number. -/
theorem nearest_natCast {n : ℕ} (hn : n < 2 ^ 53) : Nearest n n := by
  obtain ⟨r, hr⟩ := Binary64.exists_nearest one_ne_zero n
  rw [Nat.cast_one, div_one] at hr
  have hSelf : r = n := hr.eq_of_digits hn (by norm_num : (-1074 : ℤ) ≤ 0) (by simp)
  rwa [hSelf] at hr

namespace Binary64

/-! ### Operations -/

theorem roundMagnitude_of_ne_zero {num den : ℕ} (hNum : num ≠ 0) :
    roundMagnitude num den = min ((lastPlace num den + 1074).toNat * twoTo 52
      + roundHalfEven (scaled num den (lastPlace num den)).1
          (scaled num den (lastPlace num den)).2) infiniteMagnitude := by
  unfold roundMagnitude
  -- the name keeps the kernel from evaluating the place
  generalize lastPlace num den = exponent
  cases exponent with
  | ofNat k => exact if_neg hNum
  | negSucc k => exact if_neg hNum

/-- A small fraction becomes a finite number, the one **nearest** to it. -/
theorem value_ofFraction {num den n : ℕ} (hDen : den ≠ 0) (hn : n < 2 ^ 53)
    (h : (num : ℚ) / den ≤ n) :
    ∃ m e, (ofFraction false num den).value = .finite false m e ∧
      Nearest ((num : ℚ) / den) (m * 2 ^ e) := by
  by_cases hNum : num = 0
  · refine ⟨0, -1074, ?_, ?_⟩
    · rw [hNum, ofFraction, roundMagnitude, if_pos rfl, value_ofMagnitude (by decide),
        if_pos (by decide)]
    · rw [hNum, Nat.cast_zero, zero_div, zero_mul]
      exact nearest_zero
  · have hPlace := lastPlace_lastPlace hNum hDen
    have hLog : num.log2 ≤ den.log2 + 900 := by
      have hBelow : (num : ℚ) / den < 2 ^ (53 : ℤ) := by
        refine h.trans_lt ?_
        exact_mod_cast hn
      have hLess := two_zpow_lt.mp ((fraction_bounds hNum hDen).1.trans_lt hBelow)
      omega
    have hUnits := scaled_nearestInt hDen num (lastPlace num den)
    have hFinite := roundMagnitude_lt hDen hLog
    rw [roundMagnitude_of_ne_zero hNum] at hFinite
    have hMin := (min_lt_iff.mp hFinite).resolve_right (lt_irrefl _)
    rw [ofFraction, roundMagnitude_of_ne_zero hNum, min_eq_left hMin.le]
    obtain ⟨m, e, hValue, hEq⟩ := value_ofMagnitude_place hPlace.low (hPlace.nearestInt_le hUnits)
      (fun hLow => hPlace.le_nearestInt hLow hUnits) hMin
    exact ⟨m, e, hValue, _, _, hPlace, hUnits, hEq⟩

theorem ofScaled_zero (e : ℤ) : ofScaled false 0 e = ofMagnitude false 0 := by
  cases e with
  | ofNat j => rw [ofScaled, Nat.zero_mul, ofFraction, roundMagnitude, if_pos rfl]
  | negSucc j => rw [ofScaled, ofFraction, roundMagnitude, if_pos rfl]

/-- A number of units is a larger number of smaller units. -/
theorem units_mul (k : ℕ) {e f : ℤ} (h : f ≤ e) :
    ((k * twoTo (e - f).toNat : ℕ) : ℚ) * 2 ^ f = k * 2 ^ e := by
  rw [Nat.cast_mul, cast_twoTo, Int.toNat_of_nonneg (sub_nonneg.mpr h), mul_assoc, ← two_zpow_add,
    sub_add_cancel]

/-- Numbers are added in units of the lower place. -/
theorem add_eq_ofScaled {x y : Binary64} {k l : ℕ} {e f : ℤ} (hx : x.value = .finite false k e)
    (hy : y.value = .finite false l f) :
    x.add y = ofScaled false
      (k * twoTo (e - min e f).toNat + l * twoTo (f - min e f).toNat) (min e f) := by
  rw [add, hx, hy]
  show (let sum := signed false (k * twoTo (e - min e f).toNat)
      + signed false (l * twoTo (f - min e f).toNat)
    if sum = 0 then ofMagnitude false 0 else ofScaled (sum < 0) sum.natAbs (min e f)) = _
  generalize k * twoTo (e - min e f).toNat = a
  generalize l * twoTo (f - min e f).toNat = b
  show (if (a : ℤ) + b = 0 then ofMagnitude false 0
    else ofScaled (decide ((a : ℤ) + b < 0)) ((a : ℤ) + b).natAbs (min e f)) = _
  by_cases hZero : a + b = 0
  · rw [if_pos (by omega), hZero, ofScaled_zero]
  · rw [if_neg (by omega), decide_eq_false (by omega), show ((a : ℤ) + b).natAbs = a + b by omega]

namespace Within

variable {x y : Binary64} {m n : ℕ}

theorem of_nearest {q : ℚ} {k : ℕ} {e : ℤ} (hn : n < 2 ^ 53) (hq : q ≤ n)
    (hValue : x.value = .finite false k e) (hNearest : Nearest q (k * 2 ^ e)) :
    x.Within n ∧ Nearest q x.toRat := by
  rw [toRat_of_value hValue]
  refine ⟨⟨⟨k, e, hValue⟩, ?_⟩, hNearest⟩
  rw [toRat_of_value hValue]
  exact hNearest.mono (nearest_natCast hn) hq

/-- The number of a fraction is **nearest** to it. -/
theorem ofFraction (num : ℕ) {den : ℕ} (hDen : den ≠ 0) (hn : n < 2 ^ 53)
    (h : (num : ℚ) / den ≤ n) :
    (ofFraction false num den).Within n ∧
      Nearest ((num : ℚ) / den) (Binary64.ofFraction false num den).toRat := by
  obtain ⟨k, e, hValue, hNearest⟩ := value_ofFraction hDen hn h
  exact of_nearest hn h hValue hNearest

theorem ofScaled {k : ℕ} {e : ℤ} (hn : n < 2 ^ 53) (h : (k : ℚ) * 2 ^ e ≤ n) :
    (ofScaled false k e).Within n ∧ Nearest (k * 2 ^ e) (Binary64.ofScaled false k e).toRat := by
  cases e with
  | ofNat j =>
    have hEq : (k : ℚ) * 2 ^ Int.ofNat j = (k * twoTo j : ℕ) / (1 : ℕ) := by
      rw [Nat.cast_mul, cast_twoTo, Nat.cast_one, div_one, Int.ofNat_eq_natCast]
    rw [hEq] at h ⊢
    exact ofFraction _ one_ne_zero hn h
  | negSucc j =>
    have hEq : (k : ℚ) * 2 ^ Int.negSucc j = k / (twoTo (j + 1) : ℕ) := by
      rw [cast_twoTo, Int.negSucc_eq, zpow_neg, ← div_eq_mul_inv]
      push_cast
      rfl
    rw [hEq] at h ⊢
    exact ofFraction _ (Nat.pow_pos two_pos).ne' hn h

/-- A small integer is a number **exactly**. -/
theorem ofInt {i : ℤ} (hi : 0 ≤ i) (hn : n < 2 ^ 53) (h : i ≤ n) :
    (ofInt i).Within n ∧ (Binary64.ofInt i).toRat = i := by
  obtain ⟨k, rfl⟩ := Int.eq_ofNat_of_zero_le hi
  have hkn : k ≤ n := by omega
  have hOf : Binary64.ofInt k = .ofFraction false k 1 := by
    rw [Binary64.ofInt, decide_eq_false (by omega), Int.natAbs_natCast]
  obtain ⟨hWithin, hNearest⟩ := ofFraction k one_ne_zero hn (by simpa using hkn)
  rw [Nat.cast_one, div_one] at hNearest
  rw [hOf]
  refine ⟨hWithin, ?_⟩
  rw [hNearest.unique (nearest_natCast (hkn.trans_lt hn))]
  rfl

theorem nonneg (hx : x.Within n) : 0 ≤ x.toRat := by
  obtain ⟨k, e, hValue⟩ := hx.finite
  rw [toRat_of_value hValue]
  positivity

/-- The **sum** of two numbers is nearest to the exact sum. -/
theorem add (hx : x.Within m) (hy : y.Within n) (hmn : m + n < 2 ^ 53) :
    (x.add y).Within (m + n) ∧ Nearest (x.toRat + y.toRat) (x.add y).toRat := by
  have hLe : x.toRat + y.toRat ≤ (m + n : ℕ) := by
    push_cast
    exact add_le_add hx.le hy.le
  obtain ⟨k, e, hk⟩ := hx.finite
  obtain ⟨l, f, hl⟩ := hy.finite
  rw [add_eq_ofScaled hk hl]
  have hSum : ((k * twoTo (e - min e f).toNat + l * twoTo (f - min e f).toNat : ℕ) : ℚ)
      * 2 ^ min e f = x.toRat + y.toRat := by
    rw [toRat_of_value hk, toRat_of_value hl, Nat.cast_add, add_mul,
      units_mul k (min_le_left e f), units_mul l (min_le_right e f)]
  rw [← hSum] at hLe ⊢
  exact ofScaled hmn hLe

theorem add_mono {x' y' : Binary64} (hx : x.Within m) (hy : y.Within n) (hx' : x'.Within m)
    (hy' : y'.Within n) (hmn : m + n < 2 ^ 53) (hFirst : x.toRat ≤ x'.toRat)
    (hSecond : y.toRat ≤ y'.toRat) : (x.add y).toRat ≤ (x'.add y').toRat :=
  (hx.add hy hmn).2.mono (hx'.add hy' hmn).2 (add_le_add hFirst hSecond)

/-- Errors of the parts of a small sum add up, and its own rounding adds little. -/
theorem abs_add_sub_le {p q a b : ℚ} (hx : x.Within m) (hy : y.Within n) (hmn : m + n < 512)
    (hFirst : |x.toRat - p| ≤ a) (hSecond : |y.toRat - q| ≤ b) :
    |(x.add y).toRat - (p + q)| ≤ a + b + 2 ^ (-45 : ℤ) := by
  have hSmall : x.toRat + y.toRat < 512 := by
    have hSum : (m : ℚ) + n < 512 := by exact_mod_cast hmn
    exact (add_le_add hx.le hy.le).trans_lt hSum
  have hRounded := (hx.add hy (by omega)).2.abs_sub_le_of_small hSmall
  rw [abs_le] at hRounded hFirst hSecond ⊢
  constructor <;> linarith

/-- The **product** of two numbers is nearest to the exact product. -/
theorem mul (hx : x.Within m) (hy : y.Within n) (hmn : m * n < 2 ^ 53) :
    (x.mul y).Within (m * n) ∧ Nearest (x.toRat * y.toRat) (x.mul y).toRat := by
  have hLe : x.toRat * y.toRat ≤ (m * n : ℕ) := by
    push_cast
    exact mul_le_mul hx.le hy.le hy.nonneg (Nat.cast_nonneg m)
  obtain ⟨k, e, hk⟩ := hx.finite
  obtain ⟨l, f, hl⟩ := hy.finite
  have hMul : x.mul y = .ofScaled false (k * l) (e + f) := by
    rw [Binary64.mul, hk, hl]
    rfl
  have hProduct : ((k * l : ℕ) : ℚ) * 2 ^ (e + f) = x.toRat * y.toRat := by
    rw [toRat_of_value hk, toRat_of_value hl, Nat.cast_mul, two_zpow_add]
    ring
  rw [hMul]
  rw [← hProduct] at hLe ⊢
  exact ofScaled hmn hLe

/-- The **floor** of a number is the floor of its value. -/
theorem floor?_eq (hx : x.Within n) : x.floor? = some ⌊x.toRat⌋ := by
  obtain ⟨k, e, hk⟩ := hx.finite
  rw [toRat_of_value hk, floor?, hk]
  cases e with
  | ofNat j =>
    show some ((k * twoTo j : ℕ) : ℤ) = _
    rw [Int.ofNat_eq_natCast, ← cast_twoTo, ← Nat.cast_mul, Int.floor_natCast]
  | negSucc j =>
    show some ((k : ℤ) / (twoTo (j + 1) : ℕ)) = _
    rw [Int.negSucc_eq, zpow_neg, ← div_eq_mul_inv, ← Nat.cast_succ, ← cast_twoTo,
      ← Rat.floor_intCast_div_natCast]
    push_cast
    rfl

end Within

end Binary64

end ScriptLint
