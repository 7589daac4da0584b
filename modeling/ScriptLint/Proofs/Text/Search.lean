import Mathlib.Data.List.TakeDrop
import Mathlib.Data.List.TakeWhile
import ScriptLint.Rule.Access

/-!
# Searching in a text that grows

What is found in a text is still found when more text is appended to it.  For a single occurrence
that is plain.  For the number of **disjoint** occurrences it needs an argument, because an
occurrence that begins in the old text and ends in the new one may take the place of others: but
then the old text ends inside of it, and nothing of the old text was counted from there on.

* `Text.tally`: how often something is recognized from left to right, where a recognizer gives the
  length of what stands at the beginning of a text.  `count` and `Access.callCount` are tallies.
* `Text.Steady`: the recognizer keeps its verdicts when text is appended, unless the text has
  nothing to recognize from there on.
* `Steady.tally_le`: the tally of a steady recognizer does not fall.
-/

namespace ScriptLint.Text

theorem occursIn_append {needle t : Text} (more : Text) (h : occursIn needle t = true) :
    occursIn needle (t ++ more) = true := by
  induction t with
  | nil =>
    have hNeedle : needle = [] := List.isEmpty_iff.mp h
    cases more with
    | nil => exact h
    | cons c more =>
      rw [List.nil_append, occursIn, hNeedle]
      rfl
  | cons c t ih =>
    rw [occursIn, Bool.or_eq_true] at h
    rw [List.cons_append, occursIn, Bool.or_eq_true]
    rcases h with h | h
    · left
      rw [List.isPrefixOf_iff_prefix] at h ⊢
      exact h.trans (List.prefix_append (c :: t) more)
    · exact .inr (ih h)

/-- The needle stands at its last place. -/
theorem isPrefix_drop_of_lastIndex? {needle : Text} : ∀ {t : Text} {i : Nat},
    lastIndex? needle t = some i → i ≤ t.length ∧ needle <+: t.drop i := by
  intro t
  induction t with
  | nil =>
    intro i h
    rw [lastIndex?, Option.ite_none_right_eq_some, List.isEmpty_iff, Option.some.injEq] at h
    obtain ⟨rfl, rfl⟩ := h
    exact ⟨Nat.le_refl 0, List.nil_prefix⟩
  | cons c t ih =>
    intro i h
    rw [lastIndex?] at h
    split at h
    · rename_i j hj
      obtain ⟨hLength, hPrefix⟩ := ih hj
      cases h
      rw [List.length_cons]
      exact ⟨by omega, hPrefix⟩
    · rw [Option.ite_none_right_eq_some, Option.some.injEq] at h
      obtain ⟨hPrefix, rfl⟩ := h
      exact ⟨Nat.zero_le _, List.isPrefixOf_iff_prefix.mp hPrefix⟩

/-! ### Tallies -/

/-- How often something is recognized, from left to right, where one goes on after its end. -/
def tally (recognize : Text → Option Nat) : Text → Nat
  | [] => 0
  | c :: rest =>
    match recognize (c :: rest) with
    | some length => 1 + tally recognize (rest.drop (length - 1))
    | none => tally recognize rest
termination_by t => t.length
decreasing_by all_goals simp only [List.length_drop, List.length_cons]; omega

/-- What is recognized lies in the text and is recognized as well when text is appended.  What is
recognized only then reaches beyond the text, and **nothing** is recognized later in the text. -/
structure Steady (recognize : Text → Option Nat) : Prop where
  stays : ∀ {t length} (more), recognize t = some length →
    length ≤ t.length ∧ recognize (t ++ more) = some length
  late : ∀ {t u length} (more), recognize t = none → recognize (t ++ more) = some length →
    u <:+ t → recognize u = none

theorem tally_eq_zero {recognize : Text → Option Nat} : ∀ t : Text,
    (∀ u, u <:+ t → recognize u = none) → tally recognize t = 0 := by
  intro t
  induction t with
  | nil => intro _; rw [tally]
  | cons c t ih =>
    intro h
    rw [tally, h _ List.suffix_rfl]
    exact ih (fun u hu => h u (hu.trans (List.suffix_cons c t)))

theorem Steady.tally_le {recognize : Text → Option Nat} (h : Steady recognize) (t more : Text) :
    tally recognize t ≤ tally recognize (t ++ more) := by
  fun_induction tally recognize t with
  | case1 => exact Nat.zero_le _
  | case2 c t length hr ih =>
    -- what stands here stands here in both texts, and both go on at the same place
    obtain ⟨hLength, hMore⟩ := h.stays more hr
    rw [List.length_cons] at hLength
    have hDrop : (t ++ more).drop (length - 1) = t.drop (length - 1) ++ more :=
      List.drop_append_of_le_length (by omega)
    rw [List.cons_append] at hMore ⊢
    simp only [tally, hMore, hDrop]
    exact Nat.add_le_add_left ih 1
  | case3 c t hr ih =>
    cases hm : recognize (c :: t ++ more) with
    | some length =>
      have hZero : tally recognize t = 0 :=
        tally_eq_zero t (fun u hu => h.late more hr hm (hu.trans (List.suffix_cons c t)))
      rw [hZero]
      exact Nat.zero_le _
    | none =>
      rw [List.cons_append] at hm ⊢
      rw [tally, hm]
      exact ih

/-! ### Occurrences of a needle -/

/-- Recognizes the needle. -/
def needleLength? (needle t : Text) : Option Nat :=
  if needle.isPrefixOf t then some needle.length else none

/-- A text that begins with the needle only when more is appended is shorter than the needle. -/
theorem length_lt_of_late {needle t more : Text} (h : ¬ needle <+: t)
    (hm : needle <+: t ++ more) : t.length < needle.length := by
  refine Nat.lt_of_not_le (fun hLength => ?_)
  exact h (List.prefix_of_prefix_length_le hm (List.prefix_append t more) hLength)

theorem steady_needleLength? (needle : Text) : Steady (needleLength? needle) where
  stays := by
    intro t length more h
    simp only [needleLength?, List.isPrefixOf_iff_prefix, Option.ite_none_right_eq_some,
      Option.some.injEq] at h ⊢
    obtain ⟨hPrefix, rfl⟩ := h
    exact ⟨hPrefix.length_le, hPrefix.trans (List.prefix_append t more), rfl⟩
  late := by
    intro t u length more h hm hu
    simp only [needleLength?, List.isPrefixOf_iff_prefix, Option.ite_none_right_eq_some,
      ite_eq_right_iff, reduceCtorEq, imp_false] at h hm ⊢
    have hShort := length_lt_of_late h hm.1
    intro hn
    have hNeedle := hn.length_le
    have hTail := hu.length_le
    omega

theorem count_eq_tally {needle : Text} (h : needle ≠ []) (t : Text) :
    count needle t = tally (needleLength? needle) t := by
  fun_induction count needle t with
  | case1 hEmpty => exact absurd (List.isEmpty_iff.mp hEmpty) h
  | case2 => rw [tally]
  | case3 c t hp ih => rw [tally, needleLength?, if_pos hp, ih]
  | case4 c t hp ih => rw [tally, needleLength?, if_neg hp, ih]

theorem count_le_append {needle : Text} (h : needle ≠ []) (t more : Text) :
    count needle t ≤ count needle (t ++ more) := by
  rw [count_eq_tally h, count_eq_tally h]
  exact (steady_needleLength? needle).tally_le t more

end ScriptLint.Text

namespace ScriptLint.Access

open Text (Steady tally)

/-! ### Calls of a path -/

theorem callCount_eq_tally (path t : Text) : callCount path t = tally (callLength? path) t := by
  fun_induction callCount path t with
  | case1 => rw [tally]
  | case2 c t length hr ih => rw [tally, hr, ih]
  | case3 c t hr ih => rw [tally, hr, ih]

/-- A call is the path, blanks and a parenthesis. -/
theorem callLength?_eq_some_iff {path t : Text} {length : Nat} :
    callLength? path t = some length ↔
      ∃ gap rest, t = path ++ (gap ++ CodePoint.ofChar '(' :: rest) ∧
        (∀ c ∈ gap, c.isBlank = true) ∧ length = path.length + gap.length + 1 := by
  constructor
  · intro h
    rw [callLength?] at h
    split at h
    · cases h
    rename_i hPath
    simp only [Bool.not_eq_true, Bool.not_eq_false', List.isPrefixOf_iff_prefix] at hPath
    obtain ⟨after, rfl⟩ := hPath
    simp only [List.drop_left, List.span_eq_takeWhile_dropWhile, Option.ite_none_right_eq_some,
      Option.some.injEq] at h
    obtain ⟨hHead, hLength⟩ := h
    obtain ⟨rest, hRest⟩ := List.head?_eq_some_iff.mp hHead
    refine ⟨after.takeWhile CodePoint.isBlank, rest, ?_, ?_, hLength.symm⟩
    · rw [← hRest, List.takeWhile_append_dropWhile]
    · exact fun c hc => List.mem_takeWhile_imp hc
  · rintro ⟨gap, rest, rfl, hGap, rfl⟩
    have hParen : (CodePoint.ofChar '(').isBlank = false := by decide
    have hPath : path.isPrefixOf (path ++ (gap ++ CodePoint.ofChar '(' :: rest)) = true :=
      List.isPrefixOf_iff_prefix.mpr (List.prefix_append _ _)
    have hTake : (gap ++ CodePoint.ofChar '(' :: rest).takeWhile CodePoint.isBlank = gap := by
      rw [List.takeWhile_append_of_pos hGap, List.takeWhile_cons_of_neg (by simp [hParen]),
        List.append_nil]
    have hDrop : (gap ++ CodePoint.ofChar '(' :: rest).dropWhile CodePoint.isBlank
        = CodePoint.ofChar '(' :: rest := by
      rw [List.dropWhile_append_of_pos hGap, List.dropWhile_cons_of_neg (by simp [hParen])]
    rw [callLength?, hPath]
    simp only [List.drop_left, List.span_eq_takeWhile_dropWhile, hTake, hDrop]
    rfl

theorem steady_callLength? (path : Text) : Steady (callLength? path) where
  stays := by
    intro t length more h
    obtain ⟨gap, rest, rfl, hGap, rfl⟩ := callLength?_eq_some_iff.mp h
    refine ⟨?_, callLength?_eq_some_iff.mpr ⟨gap, rest ++ more, ?_, hGap, rfl⟩⟩
    · simp only [List.length_append, List.length_cons]
      omega
    · simp only [List.append_assoc, List.cons_append]
  late := by
    intro t u length more h hm hu
    obtain ⟨gap, rest, hText, hGap, rfl⟩ := callLength?_eq_some_iff.mp hm
    -- the parenthesis of the call that appears is not in the old text
    have hShort : t.length ≤ path.length + gap.length := by
      refine Nat.le_of_not_lt (fun hLong => ?_)
      have hWhole : path ++ (gap ++ [CodePoint.ofChar '(']) <+: t ++ more :=
        ⟨rest, by rw [hText]; simp⟩
      have hPrefix : path ++ (gap ++ [CodePoint.ofChar '(']) <+: t := by
        refine List.prefix_of_prefix_length_le hWhole (List.prefix_append t more) ?_
        simp only [List.length_append, List.length_cons, List.length_nil]
        omega
      obtain ⟨after, rfl⟩ := hPrefix
      rw [List.append_assoc, List.append_assoc, List.singleton_append] at h
      rw [callLength?_eq_some_iff.mpr ⟨gap, after, rfl, hGap, rfl⟩] at h
      cases h
    cases hCall : callLength? path u with
    | none => rfl
    | some k =>
      -- a call in the old text has its parenthesis where the new call has blanks
      obtain ⟨gap', rest', rfl, -, -⟩ := callLength?_eq_some_iff.mp hCall
      obtain ⟨ahead, rfl⟩ := hu
      simp only [List.length_append, List.length_cons] at hShort
      have hHere : (ahead ++ (path ++ (gap' ++ CodePoint.ofChar '(' :: rest')) ++ more)[
          ahead.length + path.length + gap'.length]? = some (CodePoint.ofChar '(') := by
        simp [List.getElem?_append, Nat.add_assoc, List.getElem?_cons_zero]
      rw [hText, List.getElem?_append_right (by omega), List.getElem?_append_left (by omega)]
        at hHere
      have hBlank := hGap _ (List.mem_of_getElem? hHere)
      exact absurd hBlank (by decide)

theorem callCount_le_append (path t more : Text) :
    callCount path t ≤ callCount path (t ++ more) := by
  rw [callCount_eq_tally, callCount_eq_tally]
  exact (steady_callLength? path).tally_le t more

end ScriptLint.Access
