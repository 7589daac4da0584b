import Mathlib.Data.List.Find
import Mathlib.Data.List.TakeWhile
import ScriptLint.Json.Printer
import ScriptLint.Json.Reader
import ScriptLint.Proofs.Number.Numeral

/-!
# Scalars read back

A word or a number is read up to the first code point that cannot belong to it.  After a value there
stands a comma, a bracket, a brace or nothing, and none of these belongs to a scalar, so a scalar is
read inside a longer text as it is read alone.

* `Ends`: what may stand after a value.
* `readScalar_append`: a scalar is read as if nothing stood after it.
* `readScalar_ofInt`: an integer with few enough digits reads back.
* `isScalarPart_ofInt`, `isScalarPart_writeFloat`: what the written numbers consist of.
* `readScalar_suffix`: what is left over stands at the end of the text.
-/

namespace ScriptLint.Json

open Numeral (BeginsWithout)

/-- After a value there stands a comma, a closing bracket, a closing brace or nothing. -/
def Ends (rest : Text) : Prop := ∀ c ∈ rest.head?, c.val = 0x2C ∨ c.val = 0x5D ∨ c.val = 0x7D

theorem Ends.nil : Ends [] := fun _ h => nomatch h

/-! ### Reading up to the end -/

section Append

variable {rest : Text} (h : Ends rest)

include h

theorem Ends.beginsWithout {p : CodePoint → Bool}
    (hp : ∀ c : CodePoint, c.val = 0x2C ∨ c.val = 0x5D ∨ c.val = 0x7D → p c = false) :
    BeginsWithout p rest :=
  fun c hc => hp c (h c hc)

theorem digits_append (t : Text) :
    Numeral.digits (t ++ rest) = ((Numeral.digits t).1, (Numeral.digits t).2 ++ rest) := by
  refine Numeral.span_append (h.beginsWithout (fun c hc => ?_))
  rw [CodePoint.digit?, if_neg (by omega)]
  rfl

theorem sign_append (t : Text) :
    Numeral.sign (t ++ rest) = ((Numeral.sign t).1, (Numeral.sign t).2 ++ rest) := by
  cases t with
  | nil =>
    cases rest with
    | nil => rfl
    | cons c rest =>
      have hc := h c rfl
      have hMinus : c ≠ CodePoint.ofChar '-' := by
        rintro rfl
        revert hc
        decide
      have hPlus : c ≠ CodePoint.ofChar '+' := by
        rintro rfl
        revert hc
        decide
      show Numeral.sign (c :: rest) = (false, c :: rest)
      rw [Numeral.sign, if_neg hMinus, if_neg hPlus]
  | cons c t =>
    rw [List.cons_append, Numeral.sign, Numeral.sign]
    split
    · rfl
    · split <;> rfl

theorem readFraction_append (t : Text) :
    readFraction (t ++ rest) = ((readFraction t).1, (readFraction t).2 ++ rest) := by
  cases t with
  | nil =>
    cases rest with
    | nil => rfl
    | cons c rest =>
      have hc := h c rfl
      show readFraction (c :: rest) = ([], c :: rest)
      rw [readFraction, if_neg (by omega)]
  | cons c t =>
    rw [List.cons_append, readFraction, readFraction]
    split
    · simp only [digits_append h]
      split <;> rfl
    · rfl

theorem readExponent_append (t : Text) :
    readExponent (t ++ rest) = ((readExponent t).1, (readExponent t).2 ++ rest) := by
  cases t with
  | nil =>
    cases rest with
    | nil => rfl
    | cons c rest =>
      have hc := h c rfl
      have hLower : c.lower.val ≠ 0x65 := by
        rw [CodePoint.lower, dif_neg (by omega)]
        omega
      show readExponent (c :: rest) = (none, c :: rest)
      rw [readExponent, if_neg hLower]
  | cons c t =>
    rw [List.cons_append, readExponent, readExponent]
    split
    · simp only [sign_append h, digits_append h]
      split <;> rfl
    · rfl

/-- A number of which the digits before the point are known. -/
def readAfterWhole (isNegative : Bool) (whole rest : Text) : Except ReadError (Json × Text) :=
  if whole.isEmpty then .error .malformed
  else
    let (fraction, rest) := readFraction rest
    let (exponent, rest) := readExponent rest
    if fraction.isEmpty && exponent.isNone then
      if Numeral.maxDigits < whole.length then .error (.longInteger whole.length)
      else
        let n : Int := (Numeral.natural? 10 whole).getD 0
        .ok (.int (if isNegative then -n else n), rest)
    else
      let d := Numeral.decimal whole fraction (exponent.getD 0)
      .ok (.float (d.toBinary isNegative), rest)

omit h in
theorem readUnsigned_eq (isNegative : Bool) (t : Text) :
    readUnsigned isNegative t =
      if (Numeral.digits t).1.head? = some (CodePoint.ofChar '0') then
        readAfterWhole isNegative ((Numeral.digits t).1.take 1)
          ((Numeral.digits t).1.drop 1 ++ (Numeral.digits t).2)
      else readAfterWhole isNegative (Numeral.digits t).1 (Numeral.digits t).2 := by
  rw [readUnsigned]
  obtain ⟨run, after⟩ := Numeral.digits t
  by_cases hZero : run.head? = some (CodePoint.ofChar '0')
  · simp only [if_pos hZero]
    rfl
  · simp only [if_neg hZero]
    rfl

theorem readAfterWhole_append (isNegative : Bool) (whole t : Text) :
    readAfterWhole isNegative whole (t ++ rest)
      = (readAfterWhole isNegative whole t).map fun p => (p.1, p.2 ++ rest) := by
  rw [readAfterWhole, readAfterWhole]
  simp only [readFraction_append h, readExponent_append h]
  split
  · rfl
  · split
    · split <;> rfl
    · rfl

theorem readUnsigned_append (isNegative : Bool) (t : Text) :
    readUnsigned isNegative (t ++ rest)
      = (readUnsigned isNegative t).map fun p => (p.1, p.2 ++ rest) := by
  rw [readUnsigned_eq, readUnsigned_eq, digits_append h]
  split
  · rw [← List.append_assoc]
    exact readAfterWhole_append h isNegative _ _
  · exact readAfterWhole_append h isNegative _ _

/-- No word goes on with what ends a value. -/
theorem isPrefixOf_append_of_mem_words {w : Text × Json} (hw : w ∈ words) (t : Text) :
    w.1.isPrefixOf (t ++ rest) = w.1.isPrefixOf t := by
  have hWords : ∀ w ∈ words, ∀ c ∈ w.1, ¬ (c.val = 0x2C ∨ c.val = 0x5D ∨ c.val = 0x7D) := by
    decide
  rw [Bool.eq_iff_iff, List.isPrefixOf_iff_prefix, List.isPrefixOf_iff_prefix]
  constructor
  · intro hPrefix
    rcases List.prefix_or_prefix_of_prefix hPrefix (List.prefix_append t rest) with hShort | hLong
    · exact hShort
    · -- a word that reaches beyond the text would hold the first code point of the rest
      obtain ⟨u, hu⟩ := hLong
      rw [← hu, List.prefix_append_right_inj] at hPrefix
      cases u with
      | nil =>
        rw [List.append_nil] at hu
        subst hu
        exact List.prefix_rfl
      | cons c u =>
        obtain ⟨after, hAfter⟩ := hPrefix
        have hEnd := h c (by rw [← hAfter]; rfl)
        exact absurd hEnd (hWords w hw c (by rw [← hu]; simp))
  · intro hPrefix
    exact hPrefix.trans (List.prefix_append t rest)

/-- A scalar is read as if **nothing stood after it**. -/
theorem readScalar_append {t : Text} (ht : t ≠ []) :
    readScalar (t ++ rest) = (readScalar t).map fun p => (p.1, p.2 ++ rest) := by
  have hFind : (words.find? fun w => w.1.isPrefixOf (t ++ rest))
      = words.find? fun w => w.1.isPrefixOf t :=
    List.find?_congr fun w hw => isPrefixOf_append_of_mem_words h hw t
  rw [readScalar.eq_def, readScalar.eq_def, hFind]
  cases hWord : words.find? fun w => w.1.isPrefixOf t with
  | some w =>
    have hFound : w.1.isPrefixOf t = true :=
      List.find?_some (p := fun w : Text × Json => w.1.isPrefixOf t) hWord
    have hPrefix := List.isPrefixOf_iff_prefix.mp hFound
    simp only
    rw [List.drop_append_of_le_length hPrefix.length_le]
    rfl
  | none =>
    cases t with
    | nil => exact absurd rfl ht
    | cons c t =>
      simp only [List.cons_append]
      split
      · exact readUnsigned_append h true t
      · exact readUnsigned_append h false (c :: t)

end Append

/-! ### Integers -/

theorem head?_toDigits_ne_zero {n : Nat} (h : 0 < n) : (Nat.toDigits 10 n).head? ≠ some '0' := by
  induction n using Nat.strong_induction_on with
  | _ n ih =>
    have hSmall : ∀ d < 10, 0 < d → Nat.digitChar d ≠ '0' := by decide
    rw [Nat.toDigits_eq_if (by omega)]
    by_cases hn : n < 10
    · rw [if_pos hn, List.head?_cons]
      exact fun hHead => hSmall n hn h (Option.some.inj hHead)
    · rw [if_neg hn, List.head?_append, Option.or_of_isSome (by simp)]
      exact ih (n / 10) (by omega) (by omega)

theorem head?_ofNat_ne_zero {n : Nat} (h : 0 < n) :
    (Text.ofNat n).head? ≠ some (CodePoint.ofChar '0') := by
  rw [Text.ofNat, List.head?_map]
  intro hZero
  obtain ⟨c, hc, hEq⟩ := Option.map_eq_some_iff.mp hZero
  have hChar : c = '0' := Char.toNat_inj.mp (congrArg CodePoint.val hEq)
  rw [hChar] at hc
  exact head?_toDigits_ne_zero h hc

theorem val_ofChar_of_isDigit {c : Char} (h : c.isDigit = true) :
    48 ≤ (CodePoint.ofChar c).val ∧ (CodePoint.ofChar c).val ≤ 57 := by
  simp only [Char.isDigit, Bool.and_eq_true, decide_eq_true_eq, ge_iff_le] at h
  exact ⟨UInt32.le_iff_toNat_le.mp h.1, UInt32.le_iff_toNat_le.mp h.2⟩

/-- A decimal numeral consists of ASCII digits. -/
theorem val_of_mem_ofNat {n : Nat} {c : CodePoint} (hc : c ∈ Text.ofNat n) :
    48 ≤ c.val ∧ c.val ≤ 57 := by
  obtain ⟨d, hd, rfl⟩ := List.mem_map.mp hc
  exact val_ofChar_of_isDigit (Nat.isDigit_of_mem_toDigits (by omega) (by omega) hd)

theorem digits_ofNat (n : Nat) : Numeral.digits (Text.ofNat n) = (Text.ofNat n, []) := by
  have hDigits : ∀ c ∈ Text.ofNat n, c.digit?.isSome = true := by
    intro c hc
    rw [CodePoint.digit?, if_pos (val_of_mem_ofNat hc)]
    rfl
  rw [Numeral.digits, List.span_eq_takeWhile_dropWhile, List.takeWhile_eq_self_iff.mpr hDigits,
    List.dropWhile_eq_nil_iff.mpr hDigits]

theorem length_ofNat_le {n k : Nat} (hk : 0 < k) (h : n < tenTo k) :
    (Text.ofNat n).length ≤ k := by
  rw [Text.ofNat, List.length_map]
  exact Nat.toDigits_length 10 n k hk h

theorem readAfterWhole_nil (isNegative : Bool) {whole : Text} {n : Nat}
    (hValue : Numeral.natural? 10 whole = some n) (hLength : whole.length ≤ Numeral.maxDigits) :
    readAfterWhole isNegative whole []
      = .ok (.int (if isNegative then -(n : Int) else n), []) := by
  have hSome : whole.isEmpty = false := by
    cases whole with
    | nil => cases hValue
    | cons c whole => rfl
  rw [readAfterWhole, if_neg (by rw [hSome]; decide)]
  show (if Numeral.maxDigits < whole.length then Except.error _ else _) = _
  rw [if_neg (by omega), hValue]
  rfl

theorem readUnsigned_ofNat (isNegative : Bool) {n : Nat} (h : n < tenTo Numeral.maxDigits) :
    readUnsigned isNegative (Text.ofNat n)
      = .ok (.int (if isNegative then -(n : Int) else n), []) := by
  have hLength : (Text.ofNat n).length ≤ Numeral.maxDigits := length_ofNat_le (by decide) h
  have hValue : Numeral.natural? 10 (Text.ofNat n) = some n :=
    Numeral.natural?_toDigits (by omega) (by omega) n
  rw [readUnsigned_eq, digits_ofNat]
  by_cases hn : n = 0
  · subst hn
    exact readAfterWhole_nil isNegative hValue hLength
  · rw [if_neg (head?_ofNat_ne_zero (by omega))]
    exact readAfterWhole_nil isNegative hValue hLength

theorem find?_words_of_number {t : Text} (h : ∀ c ∈ t, c.val = 0x2D ∨ 48 ≤ c.val ∧ c.val ≤ 57) :
    (words.find? fun w => w.1.isPrefixOf t) = none := by
  have hWords : ∀ w ∈ words, ∃ c ∈ w.1, ¬ (c.val = 0x2D ∨ 48 ≤ c.val ∧ c.val ≤ 57) := by decide
  rw [List.find?_eq_none]
  intro w hw hPrefix
  obtain ⟨c, hc, hLetter⟩ := hWords w hw
  exact hLetter (h c ((List.isPrefixOf_iff_prefix.mp hPrefix).subset hc))

/-- An integer with **few enough digits** reads back. -/
theorem readScalar_ofInt {n : Int} (h : n.natAbs < tenTo Numeral.maxDigits) :
    readScalar (Text.ofInt n) = .ok (.int n, []) := by
  cases n with
  | ofNat n =>
    have hRead : readUnsigned false (Text.ofNat n) = .ok (.int n, []) := readUnsigned_ofNat false h
    have hNone := find?_words_of_number (t := Text.ofNat n) fun c hc => .inr (val_of_mem_ofNat hc)
    show readScalar (Text.ofNat n) = .ok (.int n, [])
    cases hText : Text.ofNat n with
    | nil =>
      rw [hText] at hRead
      cases hRead
    | cons c rest =>
      have hc : 48 ≤ c.val ∧ c.val ≤ 57 :=
        val_of_mem_ofNat (n := n) (by rw [hText]; exact List.mem_cons_self)
      rw [hText] at hRead hNone
      rw [readScalar, hNone]
      simp only
      rw [if_neg (by omega), hRead]
  | negSucc n =>
    have hRead : readUnsigned true (Text.ofNat (n + 1)) = .ok (.int (-(n + 1 : Nat)), []) :=
      readUnsigned_ofNat true h
    have hNone := find?_words_of_number (t := CodePoint.ofChar '-' :: Text.ofNat (n + 1)) (by
      intro c hc
      rcases List.mem_cons.mp hc with rfl | hc
      · exact .inl (by decide)
      · exact .inr (val_of_mem_ofNat hc))
    show readScalar (CodePoint.ofChar '-' :: Text.ofNat (n + 1)) = _
    rw [readScalar, hNone]
    simp only
    rw [if_pos (by decide), hRead]
    rfl

/-! ### Binary numbers -/

/-- The code points of written scalars: letters, digits, points and signs, but no gap, no quote and
no bracket. -/
def isScalarPart (c : CodePoint) : Bool :=
  c.val == 0x2B || (0x2D ≤ c.val && c.val ≤ 0x5A) || (0x61 ≤ c.val && c.val ≤ 0x7A)

theorem isScalarPart_of_digit {c : CodePoint} (h : 48 ≤ c.val ∧ c.val ≤ 57) :
    isScalarPart c = true := by
  simp only [isScalarPart, Bool.or_eq_true, Bool.and_eq_true, decide_eq_true_eq, beq_iff_eq]
  omega

theorem isScalarPart_ofInt {n : Int} {c : CodePoint} (hc : c ∈ Text.ofInt n) :
    isScalarPart c = true := by
  cases n with
  | ofNat n => exact isScalarPart_of_digit (val_of_mem_ofNat hc)
  | negSucc n =>
    rcases List.mem_cons.mp hc with rfl | hc
    · decide
    · exact isScalarPart_of_digit (val_of_mem_ofNat hc)

/-- The characters of a decimal numeral. -/
def isNumeralPart (c : Char) : Bool := c.isDigit || ['.', 'e', '+', '-'].contains c

theorem isNumeralPart_toDigits (n : Nat) : ∀ c ∈ Nat.toDigits 10 n, isNumeralPart c = true := by
  intro c hc
  rw [isNumeralPart, Nat.isDigit_of_mem_toDigits (by omega) (by omega) hc, Bool.true_or]

theorem isNumeralPart_zeros (k : Nat) : ∀ c ∈ List.replicate k '0', isNumeralPart c = true := by
  intro c hc
  rw [List.eq_of_mem_replicate hc]
  decide

theorem isNumeralPart_render (layout : Decimal.Layout) (d : Decimal) :
    ∀ c ∈ Decimal.render layout d, isNumeralPart c = true := by
  have hTake : ∀ n k, ∀ c ∈ (Nat.toDigits 10 n).take k, isNumeralPart c = true :=
    fun n k c hc => isNumeralPart_toDigits n c (List.mem_of_mem_take hc)
  have hDrop : ∀ n k, ∀ c ∈ (Nat.toDigits 10 n).drop k, isNumeralPart c = true :=
    fun n k c hc => isNumeralPart_toDigits n c (List.mem_of_mem_drop hc)
  have hMark : ∀ c ∈ ['.', 'e', '+', '-', '0'], isNumeralPart c = true :=
    List.all_eq_true.mp (by decide)
  rw [Decimal.render]
  split
  · split
    · simp only [List.forall_mem_append, List.forall_mem_cons]
      exact ⟨⟨isNumeralPart_toDigits _, isNumeralPart_zeros _⟩, hMark _ (by simp),
        hMark _ (by simp), by simp⟩
    · split
      · simp only [List.forall_mem_append, List.forall_mem_cons]
        exact ⟨hTake _ _, hMark _ (by simp), hDrop _ _⟩
      · simp only [List.forall_mem_append, List.forall_mem_cons]
        exact ⟨⟨hMark _ (by simp), hMark _ (by simp), isNumeralPart_zeros _⟩,
          isNumeralPart_toDigits _⟩
  · simp only [List.forall_mem_append, List.forall_mem_cons, Decimal.padded]
    refine ⟨⟨hTake _ _, ?_⟩, hMark _ (by simp), ?_, isNumeralPart_zeros _,
      isNumeralPart_toDigits _⟩
    · split
      · simp
      · rw [List.forall_mem_cons]
        exact ⟨hMark _ (by simp), hDrop _ _⟩
    · split
      · exact hMark _ (by simp)
      · exact hMark _ (by simp)

theorem isScalarPart_ofChar {c : Char} (h : isNumeralPart c = true) :
    isScalarPart (CodePoint.ofChar c) = true := by
  rw [isNumeralPart, Bool.or_eq_true] at h
  rcases h with h | h
  · exact isScalarPart_of_digit (val_ofChar_of_isDigit h)
  · have hMark : ∀ c ∈ ['.', 'e', '+', '-'], isScalarPart (CodePoint.ofChar c) = true :=
      List.all_eq_true.mp (by decide)
    exact hMark c (List.contains_iff_mem.mp h)

theorem isScalarPart_writeFloat (x : Binary64) : ∀ c ∈ writeFloat x, isScalarPart c = true := by
  -- not by a decision over all characters, of which there are too many
  have hWords : (["NaN", "Infinity", "-Infinity", "nan", "inf", "0.0"].all fun s =>
      s.toList.all fun c => isScalarPart (CodePoint.ofChar c)) = true := by decide +kernel
  have hChars : ∀ s ∈ ["NaN", "Infinity", "-Infinity", "nan", "inf", "0.0"],
      ∀ c ∈ s.toList, isScalarPart (CodePoint.ofChar c) = true := by
    intro s hs
    exact List.all_eq_true.mp (List.all_eq_true.mp hWords s hs)
  have hWord : ∀ s ∈ ["NaN", "Infinity", "-Infinity", "nan", "inf", "0.0"],
      ∀ c ∈ Text.ofString s, isScalarPart c = true := by
    intro s hs
    rw [Text.ofString, List.forall_mem_map]
    exact hChars s hs
  rw [writeFloat]
  split
  · exact hWord _ (by simp)
  · split
    · split
      · exact hWord _ (by simp)
      · exact hWord _ (by simp)
    · have hSign : ∀ c ∈ (if x.negative then ['-'] else []),
          isScalarPart (CodePoint.ofChar c) = true := by
        split <;> exact List.all_eq_true.mp (by decide)
      rw [Binary64.toText, List.forall_mem_map]
      split
      · exact hChars "nan" (by simp)
      · rw [List.forall_mem_append]
        exact ⟨hSign, hChars "inf" (by simp)⟩
      · rw [List.forall_mem_append]
        exact ⟨hSign, hChars "0.0" (by simp)⟩
      · rw [List.forall_mem_append]
        exact ⟨hSign, fun c hc => isScalarPart_ofChar (isNumeralPart_render _ _ c hc)⟩

/-! ### What is left over -/

theorem readFraction_suffix (t : Text) : (readFraction t).2 <:+ t := by
  cases t with
  | nil => exact List.suffix_rfl
  | cons c t =>
    rw [readFraction]
    split
    · simp only [Numeral.digits, List.span_eq_takeWhile_dropWhile]
      split
      · exact List.suffix_rfl
      · exact (List.dropWhile_suffix _).trans (List.suffix_cons c t)
    · exact List.suffix_rfl

theorem sign_suffix (t : Text) : (Numeral.sign t).2 <:+ t := by
  cases t with
  | nil => exact List.suffix_rfl
  | cons c t =>
    rw [Numeral.sign]
    split
    · exact List.suffix_cons c t
    · split
      · exact List.suffix_cons c t
      · exact List.suffix_rfl

theorem readExponent_suffix (t : Text) : (readExponent t).2 <:+ t := by
  cases t with
  | nil => exact List.suffix_rfl
  | cons c t =>
    rw [readExponent]
    split
    · simp only [Numeral.digits, List.span_eq_takeWhile_dropWhile]
      split
      · exact (List.dropWhile_suffix _).trans ((sign_suffix t).trans (List.suffix_cons c t))
      · exact List.suffix_rfl
    · exact List.suffix_rfl

theorem readAfterWhole_suffix {isNegative : Bool} {whole t rest : Text} {j : Json}
    (h : readAfterWhole isNegative whole t = .ok (j, rest)) : rest <:+ t := by
  have hLeft : (readExponent (readFraction t).2).2 <:+ t :=
    (readExponent_suffix _).trans (readFraction_suffix t)
  rw [readAfterWhole] at h
  split at h
  · cases h
  · simp only at h
    split at h
    · split at h
      · cases h
      · cases h
        exact hLeft
    · cases h
      exact hLeft

theorem readUnsigned_suffix {isNegative : Bool} {t rest : Text} {j : Json}
    (h : readUnsigned isNegative t = .ok (j, rest)) : rest <:+ t := by
  have hRun : (Numeral.digits t).1 ++ (Numeral.digits t).2 = t := by
    rw [Numeral.digits, List.span_eq_takeWhile_dropWhile]
    exact List.takeWhile_append_dropWhile
  have hTail : (Numeral.digits t).1.drop 1 ++ (Numeral.digits t).2 <:+ t := by
    refine ⟨(Numeral.digits t).1.take 1, ?_⟩
    rw [← List.append_assoc, List.take_append_drop, hRun]
  rw [readUnsigned_eq] at h
  split at h
  · exact (readAfterWhole_suffix h).trans hTail
  · exact (readAfterWhole_suffix h).trans ⟨_, hRun⟩

theorem readScalar_suffix {t rest : Text} {j : Json} (h : readScalar t = .ok (j, rest)) :
    rest <:+ t := by
  rw [readScalar.eq_def] at h
  split at h
  · cases h
    exact List.drop_suffix _ _
  · split at h
    · split at h
      · exact (readUnsigned_suffix h).trans (List.suffix_cons _ _)
      · exact readUnsigned_suffix h
    · cases h

end ScriptLint.Json
