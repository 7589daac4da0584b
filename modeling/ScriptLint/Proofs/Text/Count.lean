import Mathlib.Data.List.Infix
import Mathlib.Order.Bounds.Basic
import ScriptLint.Text.Search

/-!
# The count of disjoint occurrences is greatest

A needle is counted from left to right, and one goes on behind the end of an occurrence.  Nothing is
lost that way: the first occurrence ends before the end of any other, so it may take the place of
the first one in any choice of disjoint occurrences.  So the count is the **greatest** number of
disjoint occurrences, and it does not matter in which order they are looked for.

* `Occurs`: places at which a needle occurs, each behind the end of the one before.
* `isGreatest_count`: there are such places, as many as the count says, and never more.
* `count_le_of_prefix`: the beginning of a needle occurs at least as often as the needle.
* `two_le_count_iff`: what it means to occur twice.
-/

namespace ScriptLint.Text

/-- The needle stands at all the places, and each place is behind the **end** of the occurrences at
the places before. -/
structure Occurs (needle t : Text) (places : List Nat) : Prop where
  stands : ∀ i ∈ places, needle <+: t.drop i
  apart : places.Pairwise fun i j => i + needle.length ≤ j

namespace Occurs

variable {needle t : Text} {places : List Nat}

theorem nil : Occurs needle t [] := ⟨by simp, .nil⟩

/-- Places behind a beginning of the text are places in the rest of it. -/
theorem drop {k : Nat} (h : Occurs needle t places) (hBehind : ∀ i ∈ places, k ≤ i) :
    Occurs needle (t.drop k) (places.map (· - k)) where
  stands := by
    intro j hj
    obtain ⟨i, hi, rfl⟩ := List.mem_map.mp hj
    rw [List.drop_drop, Nat.add_sub_of_le (hBehind i hi)]
    exact h.stands i hi
  apart := by
    rw [List.pairwise_map]
    refine h.apart.imp_of_mem fun {i j} hi hj hij => ?_
    have hFirst := hBehind i hi
    omega

theorem of_drop {k : Nat} (h : Occurs needle (t.drop k) places) :
    Occurs needle t (places.map (k + ·)) where
  stands := by
    intro j hj
    obtain ⟨i, hi, rfl⟩ := List.mem_map.mp hj
    rw [← List.drop_drop]
    exact h.stands i hi
  apart := by
    rw [List.pairwise_map]
    exact h.apart.imp fun hij => by omega

/-- An occurrence at the beginning comes before all that is found behind its end. -/
theorem cons (hHere : needle <+: t) (h : Occurs needle (t.drop needle.length) places) :
    Occurs needle t (0 :: places.map (needle.length + ·)) where
  stands := List.forall_mem_cons.mpr ⟨hHere, h.of_drop.stands⟩
  apart := by
    refine List.pairwise_cons.mpr ⟨fun j hj => ?_, h.of_drop.apart⟩
    obtain ⟨i, -, rfl⟩ := List.mem_map.mp hj
    omega

theorem eq_nil (hNeedle : needle ≠ []) (h : Occurs needle [] places) : places = [] := by
  refine List.eq_nil_iff_forall_not_mem.mpr fun i hi => hNeedle ?_
  have hStands := h.stands i hi
  rwa [List.drop_nil, List.prefix_nil] at hStands

/-- There are **never more** disjoint occurrences than the count says. -/
theorem length_le_count (hNeedle : needle ≠ []) (h : Occurs needle t places) :
    places.length ≤ count needle t := by
  have hLength : 0 < needle.length := List.length_pos_of_ne_nil hNeedle
  fun_induction count needle t generalizing places with
  | case1 hEmpty => exact absurd (List.isEmpty_iff.mp hEmpty) hNeedle
  | case2 => simp [h.eq_nil hNeedle]
  | case3 c rest hHere ih =>
    cases places with
    | nil => exact Nat.zero_le _
    | cons i places =>
      -- whatever the first place is, the others are behind the first occurrence in the text
      obtain ⟨hFirst, hApart⟩ := List.pairwise_cons.mp h.apart
      have hOthers : Occurs needle (c :: rest) places :=
        ⟨fun j hj => h.stands j (List.mem_cons_of_mem i hj), hApart⟩
      have hRest := ih (List.drop_cons hLength ▸ hOthers.drop fun j hj =>
        Nat.le_trans (Nat.le_add_left _ i) (hFirst j hj))
      rw [List.length_map] at hRest
      rw [List.length_cons]
      omega
  | case4 c rest hHere ih =>
    have hBehind : ∀ i ∈ places, 1 ≤ i := by
      intro i hi
      refine Nat.one_le_iff_ne_zero.mpr fun hZero => hHere ?_
      rw [List.isPrefixOf_iff_prefix]
      simpa [hZero] using h.stands i hi
    simpa using ih (h.drop hBehind)

/-- Where a needle occurs, there occurs its beginning. -/
theorem of_prefix {first : Text} (hFirst : first <+: needle) (h : Occurs needle t places) :
    Occurs first t places where
  stands := fun i hi => hFirst.trans (h.stands i hi)
  apart := by
    have hLength := hFirst.length_le
    exact h.apart.imp fun hij => by omega

end Occurs

variable {needle : Text}

/-- There are disjoint occurrences, **as many** as the count says. -/
theorem exists_occurs_count (hNeedle : needle ≠ []) (t : Text) :
    ∃ places, Occurs needle t places ∧ places.length = count needle t := by
  have hLength : 0 < needle.length := List.length_pos_of_ne_nil hNeedle
  fun_induction count needle t with
  | case1 hEmpty => exact absurd (List.isEmpty_iff.mp hEmpty) hNeedle
  | case2 => exact ⟨[], .nil, rfl⟩
  | case3 c rest hHere ih =>
    obtain ⟨places, hOccurs, hCount⟩ := ih
    refine ⟨_, .cons (List.isPrefixOf_iff_prefix.mp hHere) (List.drop_cons hLength ▸ hOccurs), ?_⟩
    rw [List.length_cons, List.length_map, hCount, Nat.add_comm]
  | case4 c rest hHere ih =>
    obtain ⟨places, hOccurs, hCount⟩ := ih
    have hRest : Occurs needle ((c :: rest).drop 1) places := hOccurs
    exact ⟨_, hRest.of_drop, (List.length_map _).trans hCount⟩

/-- The count is the **greatest** number of disjoint occurrences. -/
theorem isGreatest_count (hNeedle : needle ≠ []) (t : Text) :
    IsGreatest {k | ∃ places, Occurs needle t places ∧ places.length = k} (count needle t) := by
  refine ⟨exists_occurs_count hNeedle t, ?_⟩
  rintro k ⟨places, hOccurs, rfl⟩
  exact hOccurs.length_le_count hNeedle

/-- The beginning of a needle occurs **at least as often** as the needle. -/
theorem count_le_of_prefix {first : Text} (hFirst : first ≠ []) (h : first <+: needle) (t : Text) :
    count needle t ≤ count first t := by
  have hNeedle : needle ≠ [] := by
    rintro rfl
    exact hFirst (List.prefix_nil.mp h)
  obtain ⟨places, hOccurs, hCount⟩ := (isGreatest_count hNeedle t).1
  exact (isGreatest_count hFirst t).2 ⟨places, hOccurs.of_prefix h, hCount⟩

/-- To occur twice means to occur again behind the end of an occurrence. -/
theorem two_le_count_iff (hNeedle : needle ≠ []) (t : Text) :
    2 ≤ count needle t ↔
      ∃ i j, i + needle.length ≤ j ∧ needle <+: t.drop i ∧ needle <+: t.drop j := by
  constructor
  · intro h
    obtain ⟨places, hOccurs, hCount⟩ := (isGreatest_count hNeedle t).1
    match places with
    | [] | [_] =>
      simp only [List.length_nil, List.length_cons] at hCount
      omega
    | i :: j :: places =>
      have hApart := (List.pairwise_cons.mp hOccurs.apart).1 j List.mem_cons_self
      exact ⟨i, j, hApart, hOccurs.stands i (by simp), hOccurs.stands j (by simp)⟩
  · rintro ⟨i, j, hApart, hFirst, hSecond⟩
    have hOccurs : Occurs needle t [i, j] := ⟨by simp [hFirst, hSecond], by simpa using hApart⟩
    exact (isGreatest_count hNeedle t).2 ⟨[i, j], hOccurs, rfl⟩

end ScriptLint.Text
