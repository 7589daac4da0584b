import Mathlib.Data.List.Forall2
import Mathlib.Data.Nat.Digits.Defs
import ScriptLint.Concrete.Convert
import ScriptLint.Proofs.Json.Scalar

/-!
# Integer literals keep their value

An integer may be written in base sixteen, eight or two behind a mark, with any number of leading
zeros and digits of either case, or in base ten as its usual numeral.  Underscores may stand
anywhere behind the mark, and the letter `n` may follow any number of times.  The reader drops the
underscores and strips the suffixes.  No digit is an underscore or an `n`, so mark and digits are
what is left, and these read back.

* `IsDigit`, `Writes`: digits and their value in a base, by the sum of their places.
* `Spells`: mark and digits of a number, without underscores and suffix.
* `LiteralOf`: the literals of a number.
* `unsigned?_of_spells`: mark and digits read back.
* `literal?_of_spells`: so they do among underscores and in front of suffixes.
* `numberValue_literalOf`: the value of a literal is the number that it is a literal of.
-/

namespace ScriptLint

namespace Numeral

/-! ### Writings of a number -/

/-- The code point is the **digit** of this value, in either case. -/
def IsDigit (d : Nat) (c : CodePoint) : Prop :=
  c = .ofChar (Nat.digitChar d) ∨ c = (CodePoint.ofChar (Nat.digitChar d)).upper

/-- The text consists of digits, at least of one, and has the value `v` in the base.  The list of
values begins with the last digit. -/
def Writes (base v : Nat) (t : Text) : Prop :=
  ∃ ds : List Nat, ds ≠ [] ∧ (∀ d ∈ ds, d < base) ∧ List.Forall₂ IsDigit ds t.reverse ∧
    Nat.ofDigits base ds = v

/-- The bases with a mark, and the letters that mark them. -/
def marks : List (Nat × Char) := [(16, 'x'), (16, 'X'), (8, 'o'), (8, 'O'), (2, 'b'), (2, 'B')]

/-- A mark and digits **spell** a number: digits in the base of the mark, or the usual numeral and
no mark. -/
inductive Spells (v : Nat) : Text → Text → Prop
  | marked {base : Nat} {letter : Char} {digits : Text} (hMark : (base, letter) ∈ marks)
      (hDigits : Writes base v digits) : Spells v [.ofChar '0', .ofChar letter] digits
  | usual (hLength : (Text.ofNat v).length ≤ maxDigits) : Spells v [] (Text.ofNat v)

/-- The text is a **literal** of the number: what comes after the mark is digits and then any number
of suffixes, with underscores anywhere. -/
inductive LiteralOf (v : Nat) : Text → Prop
  | mk {mark digits body : Text} (suffixes : Nat) (hSpells : Spells v mark digits)
      (hBody : body.filter (· ≠ .ofChar '_')
        = digits ++ List.replicate suffixes (.ofChar 'n')) : LiteralOf v (mark ++ body)

/-! ### Digits -/

theorem IsDigit.digitIn? {base d : Nat} {c : CodePoint} (h : IsDigit d c) (hd : d < base)
    (hBase : base ≤ 16) : c.digitIn? base = some d := by
  have hUpper : ∀ d < 16, ∀ base ≤ 16, d < base →
      (CodePoint.ofChar (Nat.digitChar d)).upper.digitIn? base = some d := by decide
  rcases h with rfl | rfl
  · exact digitIn?_digitChar hd hBase
  · exact hUpper d (by omega) base hBase hd

/-- A code point that may stand in a mark or among digits: an ASCII character from the digit zero
on, but neither an underscore nor the suffix. -/
def IsInner (c : CodePoint) : Prop :=
  48 ≤ c.val ∧ c.val < 0x80 ∧ c ≠ .ofChar '_' ∧ c ≠ .ofChar 'n'

instance (c : CodePoint) : Decidable (IsInner c) :=
  inferInstanceAs (Decidable (_ ∧ _))

theorem IsDigit.isInner {d : Nat} {c : CodePoint} (h : IsDigit d c) (hd : d < 16) : IsInner c := by
  have hBoth : ∀ d < 16, IsInner (.ofChar (Nat.digitChar d)) ∧
      IsInner (CodePoint.ofChar (Nat.digitChar d)).upper := by
    decide
  rcases h with rfl | rfl
  · exact (hBoth d hd).1
  · exact (hBoth d hd).2

theorem isInner_of_forall₂ {ds : List Nat} {t : Text} (h : List.Forall₂ IsDigit ds t)
    (hLess : ∀ d ∈ ds, d < 16) : ∀ c ∈ t, IsInner c := by
  induction h with
  | nil => simp
  | cons hDigit _ ih =>
    rw [List.forall_mem_cons] at hLess ⊢
    exact ⟨hDigit.isInner hLess.1, ih hLess.2⟩

/-- Digits have the value that is **the sum of their places**. -/
theorem natural?_reverse {base : Nat} (hBase : base ≤ 16) {ds : List Nat} {t : Text}
    (h : List.Forall₂ IsDigit ds t) (hNonempty : ds ≠ []) (hLess : ∀ d ∈ ds, d < base) :
    natural? base t.reverse = some (Nat.ofDigits base ds) := by
  induction h with
  | nil => contradiction
  | @cons d c ds t hDigit hRest ih =>
    rw [List.forall_mem_cons] at hLess
    have hLast := hDigit.digitIn? hLess.1 hBase
    rw [List.reverse_cons, Nat.ofDigits_cons]
    cases hRest with
    | nil => simpa using natural?_singleton hLast
    | cons =>
      rw [natural?_concat (ih (List.cons_ne_nil _ _) hLess.2) hLast, Nat.mul_comm, Nat.add_comm]

namespace Writes

variable {base v : Nat} {t : Text}

theorem natural? (h : Writes base v t) (hBase : base ≤ 16) : natural? base t = some v := by
  obtain ⟨ds, hNonempty, hLess, hDigits, rfl⟩ := h
  simpa using natural?_reverse hBase hDigits hNonempty hLess

theorem isInner (h : Writes base v t) (hBase : base ≤ 16) : ∀ c ∈ t, IsInner c := by
  obtain ⟨ds, -, hLess, hDigits, -⟩ := h
  have hAll := isInner_of_forall₂ hDigits fun d hd => Nat.lt_of_lt_of_le (hLess d hd) hBase
  exact fun c hc => hAll c (List.mem_reverse.mpr hc)

end Writes

/-! ### Mark and digits -/

namespace Spells

variable {v : Nat} {mark digits : Text}

theorem base_le {base : Nat} {letter : Char} (h : (base, letter) ∈ marks) : base ≤ 16 := by
  have hAll : ∀ m ∈ marks, m.1 ≤ 16 := by decide
  exact hAll _ h

/-- Mark and digits are neither underscores nor suffixes, and there is nothing to trim. -/
theorem isInner (h : Spells v mark digits) : ∀ c ∈ mark ++ digits, IsInner c := by
  cases h with
  | @marked base letter digits hMark hDigits =>
    have hLetters : ∀ m ∈ marks, ∀ c ∈ [CodePoint.ofChar '0', .ofChar m.2], IsInner c := by decide
    rw [List.forall_mem_append]
    exact ⟨hLetters _ hMark, hDigits.isInner (base_le hMark)⟩
  | usual hLength =>
    intro c hc
    have hVal := Json.val_of_mem_ofNat hc
    have hUnderscore : ¬ (CodePoint.ofChar '_').val ≤ 57 := by decide
    have hSuffix : ¬ (CodePoint.ofChar 'n').val ≤ 57 := by decide
    refine ⟨hVal.1, by omega, ?_, ?_⟩
    · rintro rfl
      exact hUnderscore hVal.2
    · rintro rfl
      exact hSuffix hVal.2

end Spells

/-- The usual numeral reads back if it has **few enough digits**. -/
theorem decimalNatural?_ofNat {n : Nat} (h : (Text.ofNat n).length ≤ maxDigits) :
    decimalNatural? (Text.ofNat n) = some n := by
  have hValue : natural? 10 (Text.ofNat n) = some n := natural?_toDigits (by omega) (by omega) n
  rw [decimalNatural?, if_neg (by omega), hValue]
  refine if_neg fun ⟨hHead, hn⟩ => ?_
  exact Json.head?_ofNat_ne_zero (by omega) hHead

theorem unsigned?_of_head {t : Text} (h : t.head? ≠ some (.ofChar '0')) :
    unsigned? t = decimalNatural? t := by
  match t with
  | [] => rfl
  | [c] => rfl
  | a :: b :: rest =>
    have ha : a ≠ .ofChar '0' := fun hEq => h (congrArg some hEq)
    rw [unsigned?, if_neg ha]

/-- Mark and digits **read back**. -/
theorem unsigned?_of_spells {v : Nat} {mark digits : Text} (h : Spells v mark digits) :
    unsigned? (mark ++ digits) = some v := by
  cases h with
  | @marked base letter digits hMark hDigits =>
    have hBases : ∀ m ∈ marks, baseOfMark? (.ofChar m.2) = some m.1 := by decide
    rw [List.cons_append, List.singleton_append, unsigned?, if_pos rfl, hBases _ hMark]
    exact hDigits.natural? (Spells.base_le hMark)
  | usual hLength =>
    rw [List.nil_append]
    by_cases hv : v = 0
    · rw [hv]
      decide
    · rw [unsigned?_of_head (Json.head?_ofNat_ne_zero (by omega))]
      exact decimalNatural?_ofNat hLength

/-! ### Trimming -/

theorem dropWhile_eq_self_of_all {p : CodePoint → Bool} {t : Text} (h : ∀ c ∈ t, p c = false) :
    t.dropWhile p = t := by
  cases t with
  | nil => rfl
  | cons c t => exact List.dropWhile_cons_of_neg (by simp [h c List.mem_cons_self])

/-- There is **nothing to trim** around mark and digits, and no sign. -/
theorem integer?_of_isInner {t : Text} (h : ∀ c ∈ t, IsInner c) :
    integer? t = (unsigned? t).map fun n => (n : Int) := by
  have hPlain : t.map plain = t := by
    refine (List.map_congr_left fun c hc => ?_).trans (List.map_id t)
    rw [plain, if_pos (h c hc).2.1]
    rfl
  have hMargin : ∀ c ∈ t, isMargin c = false := by
    intro c hc
    have hLow := (h c hc).1
    simp only [isMargin, Bool.or_eq_false_iff, Bool.and_eq_false_iff, decide_eq_false_iff_not,
      beq_eq_false_iff_ne]
    omega
  have hTrimmed : trimmed t = t := by
    rw [trimmed, hPlain, dropWhile_eq_self_of_all hMargin, dropWhile_eq_self_of_all,
      List.reverse_reverse]
    exact fun c hc => hMargin c (List.mem_reverse.mp hc)
  have hSign : sign t = (false, t) := by
    cases t with
    | nil => rfl
    | cons c t =>
      have hLow := (h c List.mem_cons_self).1
      have hMinus : c ≠ .ofChar '-' := by
        rintro rfl
        revert hLow
        decide
      have hPlus : c ≠ .ofChar '+' := by
        rintro rfl
        revert hLow
        decide
      rw [sign, if_neg hMinus, if_neg hPlus]
  rw [integer?, hTrimmed, hSign]
  rfl

/-! ### Underscores and suffixes -/

/-- The reader drops the underscores and strips the suffixes, and **nothing else**. -/
theorem literal?_of_spells {v : Nat} {mark digits body : Text} {suffixes : Nat}
    (h : Spells v mark digits)
    (hBody : body.filter (· ≠ .ofChar '_') = digits ++ List.replicate suffixes (.ofChar 'n')) :
    literal? (mark ++ body) = some (.int v) := by
  have hInner := h.isInner
  have hMark : mark.filter (· ≠ .ofChar '_') = mark := by
    refine List.filter_eq_self.mpr fun c hc => ?_
    simpa using (hInner c (List.mem_append_left _ hc)).2.2.1
  have hDigits : ∀ c ∈ (mark ++ digits).reverse, decide (c = .ofChar 'n') = false := by
    intro c hc
    exact decide_eq_false (hInner c (List.mem_reverse.mp hc)).2.2.2
  have hSuffix : ((mark ++ digits ++ List.replicate suffixes (CodePoint.ofChar 'n')).reverse
      |>.dropWhile (· = CodePoint.ofChar 'n')).reverse = mark ++ digits := by
    rw [List.reverse_append, List.reverse_replicate, List.dropWhile_append_of_pos (by simp),
      dropWhile_eq_self_of_all hDigits, List.reverse_reverse]
  rw [literal?, List.filter_append, hMark, hBody, ← List.append_assoc, hSuffix, number?,
    integer?_of_isInner hInner, unsigned?_of_spells h]
  rfl

end Numeral

open Numeral (Spells LiteralOf)

namespace Concrete.Builder

/-- **Integer literals keep their value.**  Whatever its base, its leading zeros, the case of its
digits, its underscores and its suffixes are, a literal of a natural number has this number as its
value. -/
theorem numberValue_literalOf (v : Nat) (raw : Text) (h : LiteralOf v raw) :
    numberValue raw = .int v := by
  cases h with
  | mk suffixes hSpells hBody =>
    rw [numberValue, Numeral.literal?_of_spells hSpells hBody]
    rfl

/-- A writing of 255 with all that a literal may have. -/
def ornateLiteral : Text := "0X_00f_F_nn_"

theorem numberValue_literalOf_ornateLiteral :
    LiteralOf 255 ornateLiteral ∧ numberValue ornateLiteral = .int 255 := by
  have hValues : List.Forall₂ Numeral.IsDigit [15, 15, 0, 0] ("00fF" : Text).reverse :=
    .cons (.inr (by decide)) (.cons (.inl rfl) (.cons (.inl rfl) (.cons (.inl rfl) .nil)))
  have hDigits : Numeral.Writes 16 255 "00fF" :=
    ⟨_, by decide, by decide, hValues, by decide⟩
  have hMark : (16, 'X') ∈ Numeral.marks := by decide
  have hLiteral : LiteralOf 255 (("0X" : Text) ++ ("_00f_F_nn_" : Text)) :=
    .mk 2 (.marked hMark hDigits) (by decide)
  exact ⟨hLiteral, numberValue_literalOf 255 ornateLiteral hLiteral⟩

end Concrete.Builder

end ScriptLint
