import Mathlib.Data.List.Chain
import ScriptLint.Json.Printer
import ScriptLint.Json.Reader
import ScriptLint.Proofs.Number.Numeral
import ScriptLint.Proofs.Text.Encoding

/-!
# Quoted texts read back

* `Text.Unpaired`: no high surrogate stands right before a low one.
* `readQuoted_quoteOne`: the written form of a code point is read as that code point, unless it is a
  low surrogate after an escaped high one.
* `readQuoted_quote`: a quoted text is read as the text.
-/

namespace ScriptLint

/-- No high surrogate stands **right before** a low one. -/
def Text.Unpaired (t : Text) : Prop :=
  t.IsChain fun c d =>
    CodePoint.isHighSurrogate c.val = true → CodePoint.isLowSurrogate d.val = false

instance (t : Text) : Decidable t.Unpaired := inferInstanceAs (Decidable (List.IsChain _ t))

namespace Json

theorem unicodeEscape_eq {n : Nat} (h : n < 0x10000) :
    ∃ a b c d, unicodeEscape n = CodePoint.ofChar '\\' :: CodePoint.ofChar 'u' :: [a, b, c, d] ∧
      Numeral.natural? 16 [a, b, c, d] = some n := by
  have hLength : (Nat.toDigits 16 n).length ≤ 4 := Nat.toDigits_length 16 n 4 (by omega) h
  have hValue : Numeral.natural? 16 ((Nat.toDigits 16 n).map CodePoint.ofChar) = some n :=
    Numeral.natural?_toDigits (by omega) (by omega) n
  rw [← Numeral.natural?_replicate_zero (by omega) (by simp)
    (4 - ((Nat.toDigits 16 n).map CodePoint.ofChar).length)] at hValue
  obtain ⟨digits, hDigits⟩ : ∃ digits,
    List.replicate (4 - ((Nat.toDigits 16 n).map CodePoint.ofChar).length) (CodePoint.ofChar '0')
      ++ (Nat.toDigits 16 n).map CodePoint.ofChar = digits := ⟨_, rfl⟩
  have hFour : digits.length = 4 := by
    rw [← hDigits, List.length_append, List.length_replicate, List.length_map]
    omega
  rw [hDigits] at hValue
  match digits, hFour with
  | [a, b, c, d], _ =>
    refine ⟨a, b, c, d, ?_, hValue⟩
    rw [unicodeEscape, List.append_assoc, hDigits]
    rfl

theorem readQuoted_unicodeEscape {n : Nat} (h : n < 0x10000) (acc : Text) (high : Bool)
    (rest : Text) :
    readQuoted acc high (unicodeEscape n ++ rest)
      = readQuoted (pushEscaped acc high n).1 (pushEscaped acc high n).2 rest := by
  obtain ⟨a, b, c, d, hEscape, hValue⟩ := unicodeEscape_eq h
  rw [hEscape]
  show readQuoted acc high
    (CodePoint.ofChar '\\' :: CodePoint.ofChar 'u' :: a :: b :: c :: d :: rest) = _
  rw [readQuoted, if_neg (by decide), if_neg (by decide), if_pos (by decide)]
  simp only [hValue]
  rw [if_pos (by decide)]

/-- An escaped number that does not complete a pair stands for itself. -/
theorem pushEscaped_of_not_pair {acc : Text} {high : Bool} {n : Nat}
    (h : high = true → CodePoint.isLowSurrogate n = false) :
    pushEscaped acc high n = (.ofNat n :: acc, CodePoint.isHighSurrogate n) := by
  cases acc with
  | nil => rfl
  | cons c acc =>
    rw [pushEscaped, if_neg]
    rw [Bool.and_eq_true]
    rintro ⟨hHigh, hLow⟩
    rw [h hHigh] at hLow
    cases hLow

theorem readQuoted_letter {e c : CodePoint} (h : escape? e = some c) (acc : Text) (high : Bool)
    (rest : Text) :
    readQuoted acc high (CodePoint.ofChar '\\' :: e :: rest) = readQuoted (c :: acc) false rest := by
  have hLetter : e.val ≠ 0x75 := by
    intro he
    rw [escape?, he] at h
    cases h
  rw [readQuoted.eq_def]
  simp only [h, if_neg hLetter]
  rw [if_neg (by decide), if_neg (by decide), if_pos (by decide)]

/-- One of the seven code points with an escape of one letter. -/
theorem readQuoted_short {c e : CodePoint} (hEscape : quoteOne c = [CodePoint.ofChar '\\', e])
    (he : escape? e = some c) (hSmall : c.val < 0x80) (acc : Text) (high : Bool) (rest : Text) :
    readQuoted acc high (quoteOne c ++ rest)
      = readQuoted (c :: acc) (CodePoint.isHighSurrogate c.val) rest := by
  have hHigh : CodePoint.isHighSurrogate c.val = false := by
    rw [CodePoint.isHighSurrogate, Bool.and_eq_false_iff]
    left
    exact decide_eq_false (by omega)
  rw [hEscape, hHigh]
  exact readQuoted_letter he acc high rest

theorem readQuoted_plain {c : CodePoint} (hLow : 0x20 ≤ c.val) (hHigh : c.val < 0x7F)
    (hQuote : c.val ≠ 0x22) (hSlash : c.val ≠ 0x5C) (acc : Text) (high : Bool) (rest : Text) :
    readQuoted acc high (c :: rest)
      = readQuoted (c :: acc) (CodePoint.isHighSurrogate c.val) rest := by
  have hSurrogate : CodePoint.isHighSurrogate c.val = false := by
    rw [CodePoint.isHighSurrogate, Bool.and_eq_false_iff]
    left
    exact decide_eq_false (by omega)
  rw [readQuoted.eq_def, hSurrogate]
  simp only [if_neg hQuote, if_neg hSlash, if_neg (Nat.not_lt.mpr hLow)]

/-- A code point above `U+FFFF` is put together from its two surrogates. -/
theorem ofSurrogates_split {n : Nat} (hLow : 0x10000 ≤ n) (hHigh : n < 0x110000) :
    CodePoint.ofSurrogates (0xD800 + (n - 0x10000) / 0x400) (0xDC00 + (n - 0x10000) % 0x400)
      = ⟨n, hHigh⟩ := by
  have hSum : 0x10000 + (0xD800 + (n - 0x10000) / 0x400 - 0xD800) * 0x400
      + (0xDC00 + (n - 0x10000) % 0x400 - 0xDC00) = n := by omega
  rw [CodePoint.ofSurrogates, hSum, CodePoint.ofNat, dif_pos hHigh]

/-- The written form of a code point is **read as that code point**, unless it is a low surrogate
and an escaped high one stands before it. -/
theorem readQuoted_quoteOne (c : CodePoint) (acc : Text) (high : Bool) (rest : Text)
    (h : high = true → CodePoint.isLowSurrogate c.val = false) :
    readQuoted acc high (quoteOne c ++ rest)
      = readQuoted (c :: acc) (CodePoint.isHighSurrogate c.val) rest := by
  by_cases hShort : c.val ∈ [0x22, 0x5C, 0x0A, 0x0D, 0x09, 0x0C, 0x08]
  · obtain ⟨n, hn⟩ := c
    simp only [List.mem_cons, List.not_mem_nil, or_false] at hShort
    rcases hShort with rfl | rfl | rfl | rfl | rfl | rfl | rfl
    all_goals exact readQuoted_short rfl rfl (by simp) acc high rest
  · simp only [List.mem_cons, List.not_mem_nil, or_false, not_or] at hShort
    obtain ⟨hQuote, hSlash, -⟩ := id hShort
    have hLong : quoteOne c =
        if 0x20 ≤ c.val ∧ c.val < 0x7F then [c]
        else if c.val < 0x10000 then unicodeEscape c.val
        else unicodeEscape (0xD800 + (c.val - 0x10000) / 0x400)
          ++ unicodeEscape (0xDC00 + (c.val - 0x10000) % 0x400) := by
      rw [quoteOne]
      split <;> simp_all
    rw [hLong]
    by_cases hPlain : 0x20 ≤ c.val ∧ c.val < 0x7F
    · rw [if_pos hPlain]
      exact readQuoted_plain hPlain.1 hPlain.2 hQuote hSlash acc high rest
    rw [if_neg hPlain]
    by_cases hBasic : c.val < 0x10000
    · rw [if_pos hBasic, readQuoted_unicodeEscape hBasic, pushEscaped_of_not_pair h,
        CodePoint.ofNat_val]
    · -- the first escape is a high surrogate, and the second one completes it
      have hTop := c.isLt
      have hFirst : CodePoint.isHighSurrogate (0xD800 + (c.val - 0x10000) / 0x400) = true ∧
          CodePoint.isLowSurrogate (0xD800 + (c.val - 0x10000) / 0x400) = false := by
        simp only [CodePoint.isHighSurrogate, CodePoint.isLowSurrogate, Bool.and_eq_true,
          Bool.and_eq_false_iff, decide_eq_true_eq, decide_eq_false_iff_not]
        omega
      have hSecond : CodePoint.isLowSurrogate (0xDC00 + (c.val - 0x10000) % 0x400) = true := by
        simp only [CodePoint.isLowSurrogate, Bool.and_eq_true, decide_eq_true_eq]
        omega
      have hNone : CodePoint.isHighSurrogate c.val = false := by
        simp only [CodePoint.isHighSurrogate, Bool.and_eq_false_iff, decide_eq_false_iff_not]
        omega
      have hVal : (CodePoint.ofNat (0xD800 + (c.val - 0x10000) / 0x400)).val
          = 0xD800 + (c.val - 0x10000) / 0x400 := by
        rw [CodePoint.ofNat, dif_pos (by omega)]
      rw [if_neg hBasic, List.append_assoc, readQuoted_unicodeEscape (by omega),
        pushEscaped_of_not_pair (fun _ => hFirst.2), readQuoted_unicodeEscape (by omega),
        pushEscaped, if_pos (by rw [hFirst.1, hSecond]; rfl), hVal,
        ofSurrogates_split (Nat.not_lt.mp hBasic) hTop, hNone]

/-- The body of a quoted text, after a text that has been read already. -/
theorem readQuoted_flatMap (rest : Text) : ∀ (t acc : Text) (high : Bool),
    (∀ c ∈ t.head?, high = true → CodePoint.isLowSurrogate c.val = false) → t.Unpaired →
    readQuoted acc high (t.flatMap quoteOne ++ CodePoint.ofChar '"' :: rest)
      = .ok (acc.reverse ++ t, rest) := by
  intro t
  induction t with
  | nil =>
    intro acc high _ _
    rw [List.flatMap_nil, List.nil_append, readQuoted.eq_def, List.append_nil]
    exact if_pos (by decide)
  | cons c t ih =>
    intro acc high hHead hUnpaired
    have hNext : ∀ d ∈ t.head?, CodePoint.isHighSurrogate c.val = true →
        CodePoint.isLowSurrogate d.val = false := by
      intro d hd
      cases t with
      | nil => cases hd
      | cons e t =>
        cases hd
        exact (List.isChain_cons_cons.mp hUnpaired).1
    rw [List.flatMap_cons, List.append_assoc, readQuoted_quoteOne c _ _ _ (hHead c rfl),
      ih _ _ hNext hUnpaired.tail, List.reverse_cons, List.append_assoc, List.singleton_append]

/-- A quoted text is **read as the text**. -/
theorem readQuoted_quote {t : Text} (h : t.Unpaired) (rest : Text) :
    ∃ body, quote t ++ rest = CodePoint.ofChar '"' :: body ∧
      readQuoted [] false body = .ok (t, rest) := by
  refine ⟨t.flatMap quoteOne ++ CodePoint.ofChar '"' :: rest, ?_, ?_⟩
  · rw [quote, List.append_assoc]
    rfl
  · exact readQuoted_flatMap rest t [] false (fun _ _ hFalse => nomatch hFalse) h

end Json

end ScriptLint
