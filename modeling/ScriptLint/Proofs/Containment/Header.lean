import Mathlib.Data.List.TakeWhile
import ScriptLint.Proofs.Containment.Block
import ScriptLint.Proofs.Text.Encoding

/-!
# Headers of named functions

The search for named functions reads a text once from left to right and goes on behind every header
that it finds.  Nothing is lost by that: no header begins inside another one.  So the places found
are all places at which a header stands, and the last one is the greatest.

* `Header`: a header, from the word `function` to the parenthesis.
* `HeaderAt`: a header **stands** at a place of a text.
* `Header.length_le`: headers do not overlap.
* `mem_headers_iff`: the places found are the places at which a header stands.
* `HeaderAt.split`: no header goes across a code point that cannot be in one.
-/

namespace ScriptLint

theorem CodePoint.isWord_of_isBlank {c : CodePoint} (h : c.isBlank = true) : c.isWord = false := by
  have hAll : ∀ r ∈ CodePoint.blankRanges, ∀ k : Fin (r.2 - r.1 + 1),
      (CodePoint.ofNat (r.1 + k)).isWord = false := by decide +kernel
  obtain ⟨r, hr, hRange⟩ := List.any_eq_true.mp h
  simp only [Bool.and_eq_true, decide_eq_true_eq] at hRange
  have hc := hAll r hr ⟨c.val - r.1, by omega⟩
  have hVal : r.1 + (c.val - r.1) = c.val := by omega
  rwa [hVal, c.ofNat_val] at hc

theorem CodePoint.isBlank_of_isWord {c : CodePoint} (h : c.isWord = true) : c.isBlank = false := by
  rw [Bool.eq_false_iff]
  intro hBlank
  rw [CodePoint.isWord_of_isBlank hBlank] at h
  cases h

namespace Containment

/-! ### Headers -/

/-- The parenthesis that ends a header. -/
def parenthesis : CodePoint := CodePoint.ofChar '('

theorem parenthesis_not_word : parenthesis.isWord = false := by decide

theorem parenthesis_not_blank : parenthesis.isBlank = false := by decide

theorem functionWord_word : ∀ c ∈ functionWord, c.isWord = true := by decide

/-- What stands between the word `function` and the parenthesis of a **header**: blanks, a name, and
blanks again. -/
structure Header where
  gap : Text
  name : Text
  space : Text
  gap_ne_nil : gap ≠ []
  name_ne_nil : name ≠ []
  gap_blank : ∀ c ∈ gap, c.isBlank = true
  name_word : ∀ c ∈ name, c.isWord = true
  space_blank : ∀ c ∈ space, c.isBlank = true

namespace Header

/-- The text of a header behind its name. -/
def ending (h : Header) : Text := h.space ++ [parenthesis]

/-- The text of a header. -/
def text (h : Header) : Text := functionWord ++ (h.gap ++ (h.name ++ h.ending))

theorem length_text (h : Header) :
    h.text.length = functionWord.length + h.gap.length + h.name.length + h.space.length + 1 := by
  simp only [text, ending, List.length_append, List.length_singleton]
  omega

theorem getLast?_text (h : Header) : h.text.getLast? = some parenthesis := by
  rw [text, ending, ← List.append_assoc, ← List.append_assoc, ← List.append_assoc,
    List.getLast?_append, List.getLast?_singleton, Option.some_or]

/-- A header begins with a word character. -/
theorem exists_cons (h : Header) : ∃ c t, h.text = c :: t ∧ c.isWord = true := by
  exact ⟨CodePoint.ofChar 'f', _, rfl, by decide⟩

/-- What can be in a header. -/
theorem mem_text {h : Header} {c : CodePoint} (hc : c ∈ h.text) :
    c.isWord = true ∨ c.isBlank = true ∨ c = parenthesis := by
  simp only [text, ending, List.mem_append, List.mem_singleton] at hc
  rcases hc with hc | hc | hc | hc | hc
  · exact .inl (functionWord_word c hc)
  · exact .inr (.inl (h.gap_blank c hc))
  · exact .inl (h.name_word c hc)
  · exact .inr (.inl (h.space_blank c hc))
  · exact .inr (.inr hc)

/-- Behind its name a header has no word character. -/
theorem not_word_of_mem_ending {h : Header} {c : CodePoint} (hc : c ∈ h.ending) :
    c.isWord = false := by
  rw [ending, List.mem_append, List.mem_singleton] at hc
  rcases hc with hc | rfl
  · exact CodePoint.isWord_of_isBlank (h.space_blank c hc)
  · exact parenthesis_not_word

end Header

/-! ### Recognition -/

/-- The words and blanks at the beginning of a text end where another code point comes. -/
theorem span_of_all {p : CodePoint → Bool} {t u : Text} (ht : ∀ c ∈ t, p c = true)
    (hu : ∀ c ∈ u.head?, p c = false) : (t ++ u).takeWhile p = t ∧ (t ++ u).dropWhile p = u := by
  rw [List.takeWhile_append_of_pos ht, List.dropWhile_append_of_pos ht]
  cases u with
  | nil => simp
  | cons c u =>
    have hc : p c = false := hu c rfl
    simp [hc]

theorem mem_of_mem_head?_append {c : CodePoint} {t u : Text} (ht : t ≠ [])
    (hc : c ∈ (t ++ u).head?) : c ∈ t := by
  cases t with
  | nil => exact absurd rfl ht
  | cons d t =>
    cases hc
    exact List.mem_cons_self

namespace Header

/-! The parts of a header end where the next one begins, whatever follows it. -/

variable (h : Header) (u : Text)

theorem ending_append : h.ending ++ u = h.space ++ parenthesis :: u := by simp [ending]

theorem span_functionWord :
    (functionWord ++ (h.gap ++ u)).takeWhile CodePoint.isWord = functionWord ∧
      (functionWord ++ (h.gap ++ u)).dropWhile CodePoint.isWord = h.gap ++ u := by
  apply span_of_all functionWord_word
  intro c hc
  have hBlank := h.gap_blank c (mem_of_mem_head?_append h.gap_ne_nil hc)
  exact CodePoint.isWord_of_isBlank hBlank

theorem span_gap :
    (h.gap ++ (h.name ++ u)).takeWhile CodePoint.isBlank = h.gap ∧
      (h.gap ++ (h.name ++ u)).dropWhile CodePoint.isBlank = h.name ++ u := by
  apply span_of_all h.gap_blank
  intro c hc
  have hWord := h.name_word c (mem_of_mem_head?_append h.name_ne_nil hc)
  exact CodePoint.isBlank_of_isWord hWord

theorem span_name :
    (h.name ++ (h.ending ++ u)).takeWhile CodePoint.isWord = h.name ∧
      (h.name ++ (h.ending ++ u)).dropWhile CodePoint.isWord = h.ending ++ u := by
  apply span_of_all h.name_word
  intro c hc
  exact not_word_of_mem_ending (mem_of_mem_head?_append (by simp [ending]) hc)

theorem span_space :
    (h.ending ++ u).takeWhile CodePoint.isBlank = h.space ∧
      (h.ending ++ u).dropWhile CodePoint.isBlank = parenthesis :: u := by
  rw [ending_append]
  apply span_of_all h.space_blank
  intro c hc
  cases hc
  exact parenthesis_not_blank

end Header

theorem headerLength?_of_header {previous : Option CodePoint} {h : Header} {rest : Text}
    (hPrevious : previous.any CodePoint.isWord = false) :
    headerLength? previous (h.text ++ rest) = some h.text.length := by
  have hPrefix : functionWord.isPrefixOf (h.text ++ rest) = true := by
    rw [List.isPrefixOf_iff_prefix, Header.text, List.append_assoc]
    exact List.prefix_append _ _
  have hDrop : (h.text ++ rest).drop functionWord.length
      = h.gap ++ (h.name ++ (h.ending ++ rest)) := by
    rw [Header.text, List.append_assoc, List.drop_left]
    simp only [List.append_assoc]
  have hGapEmpty : h.gap.isEmpty = false := List.isEmpty_eq_false_iff.mpr h.gap_ne_nil
  have hNameEmpty : h.name.isEmpty = false := List.isEmpty_eq_false_iff.mpr h.name_ne_nil
  rw [headerLength?, hPrevious, hPrefix, hDrop, h.length_text]
  simp only [List.span_eq_takeWhile_dropWhile, h.span_gap, h.span_name, h.span_space, hGapEmpty,
    hNameEmpty]
  rfl

/-- **What is recognized is a header**, unless a word character comes before it. -/
theorem headerLength?_eq_some_iff {previous : Option CodePoint} {t : Text} {n : Nat} :
    headerLength? previous t = some n ↔
      previous.any CodePoint.isWord = false ∧
        ∃ (h : Header) (rest : Text), t = h.text ++ rest ∧ n = h.text.length := by
  constructor
  · intro hSome
    rw [headerLength?] at hSome
    split at hSome
    · cases hSome
    rename_i hBegin
    rw [Bool.or_eq_true, Bool.not_eq_true', not_or, Bool.not_eq_true, Bool.not_eq_false,
      List.isPrefixOf_iff_prefix] at hBegin
    obtain ⟨hPrevious, after, rfl⟩ := hBegin
    simp only [List.drop_left, List.span_eq_takeWhile_dropWhile] at hSome
    split at hSome
    · cases hSome
    rename_i hParts
    simp only [Bool.or_eq_true, List.isEmpty_iff, decide_eq_true_eq, not_or, not_not] at hParts
    obtain ⟨⟨hGap, hName⟩, hHead⟩ := hParts
    obtain ⟨rest, hRest⟩ := List.head?_eq_some_iff.mp hHead
    have hAll : ∀ (p : CodePoint → Bool) (u : Text), ∀ c ∈ u.takeWhile p, p c = true :=
      fun p u c hc => List.mem_takeWhile_imp hc
    refine ⟨hPrevious, ⟨_, _, _, hGap, hName, hAll _ _, hAll _ _,
      hAll CodePoint.isBlank ((after.dropWhile CodePoint.isBlank).dropWhile CodePoint.isWord)⟩,
      rest, ?_, ?_⟩
    · have hParenthesis : parenthesis :: rest = _ := hRest.symm
      simp only [Header.text, Header.ending, List.append_assoc, List.singleton_append, hParenthesis,
        List.takeWhile_append_dropWhile]
    · rw [Header.length_text]
      exact (Option.some.inj hSome).symm
  · rintro ⟨hPrevious, h, rest, rfl, rfl⟩
    exact headerLength?_of_header hPrevious

/-! ### Where headers stand -/

/-- A header **stands** at the place `k` of a text whose first code point comes after `previous`. -/
def HeaderAt (previous : Option CodePoint) (t : Text) (k : Nat) : Prop :=
  ∃ (a : Text) (h : Header) (rest : Text),
    t = a ++ (h.text ++ rest) ∧ a.length = k ∧ (a.getLast?.or previous).any CodePoint.isWord = false

theorem headerAt_zero_iff {previous : Option CodePoint} {t : Text} :
    HeaderAt previous t 0 ↔ ∃ n, headerLength? previous t = some n := by
  constructor
  · rintro ⟨a, h, rest, rfl, hLength, hPrevious⟩
    obtain rfl := List.length_eq_zero_iff.mp hLength
    exact ⟨_, headerLength?_of_header hPrevious⟩
  · rintro ⟨n, hn⟩
    obtain ⟨hPrevious, h, rest, rfl, -⟩ := headerLength?_eq_some_iff.mp hn
    exact ⟨[], h, rest, rfl, rfl, hPrevious⟩

/-- The places behind the beginning of a text are places of what is left. -/
theorem headerAt_append_iff {previous : Option CodePoint} {t u : Text} {j : Nat} :
    HeaderAt previous (t ++ u) (t.length + j) ↔ HeaderAt (t.getLast?.or previous) u j := by
  have hLast : ∀ a : Text,
      ((t ++ a).getLast?.or previous) = a.getLast?.or (t.getLast?.or previous) := by
    intro a
    rw [List.getLast?_append, Option.or_assoc]
  constructor
  · rintro ⟨a, h, rest, hText, hLength, hPrevious⟩
    have hPrefix : t <+: a := by
      apply List.prefix_of_prefix_length_le (List.prefix_append t u)
      · rw [hText]
        exact List.prefix_append _ _
      · omega
    obtain ⟨b, rfl⟩ := hPrefix
    rw [List.length_append, Nat.add_left_cancel_iff] at hLength
    rw [List.append_assoc, List.append_cancel_left_eq] at hText
    rw [hLast] at hPrevious
    exact ⟨b, h, rest, hText, hLength, hPrevious⟩
  · rintro ⟨a, h, rest, rfl, rfl, hPrevious⟩
    refine ⟨t ++ a, h, rest, (List.append_assoc _ _ _).symm, List.length_append, ?_⟩
    rw [hLast]
    exact hPrevious

/-- What comes before a text matters only if it is a word character. -/
theorem headerAt_previous_iff {previous : Option CodePoint} {t : Text} {k : Nat}
    (h : previous.any CodePoint.isWord = false) : HeaderAt previous t k ↔ HeaderAt none t k := by
  have hLast : ∀ a : Text, (a.getLast?.or previous).any CodePoint.isWord
      = (a.getLast?.or none).any CodePoint.isWord := by
    intro a
    cases a.getLast? with
    | none => exact h
    | some c => rfl
  unfold HeaderAt
  simp only [hLast]

/-! ### Headers do not overlap -/

section Overlap

variable {a u v w : Text}

/-- A place that follows no word character is not inside a word. -/
theorem beyond_word (hWord : ∀ c ∈ w, c.isWord = true) (h : w ++ u = a ++ v) (hNil : a ≠ [])
    (hLast : a.getLast?.any CodePoint.isWord = false) : ∃ b, a = w ++ b ∧ u = b ++ v := by
  rcases List.append_eq_append_iff.mp h with ⟨b, ha, hu⟩ | ⟨b, hw, hv⟩
  · exact ⟨b, ha, hu⟩
  · exfalso
    have hIn : a.getLast hNil ∈ w := by
      rw [hw]
      exact List.mem_append_left _ (List.getLast_mem hNil)
    rw [List.getLast?_eq_some_getLast hNil, Option.any_some, hWord _ hIn] at hLast
    cases hLast

/-- A place where a word begins is not inside a text without word characters. -/
theorem beyond_gap (hGap : ∀ c ∈ w, c.isWord = false) (h : w ++ u = a ++ v)
    (hHead : ∃ c t, v = c :: t ∧ c.isWord = true) : ∃ b, a = w ++ b ∧ u = b ++ v := by
  rcases List.append_eq_append_iff.mp h with ⟨b, ha, hu⟩ | ⟨b, hw, hv⟩
  · exact ⟨b, ha, hu⟩
  · cases b with
    | nil => exact ⟨[], by simpa using hw.symm, hv.symm⟩
    | cons c b =>
      exfalso
      obtain ⟨d, t, rfl, hd⟩ := hHead
      rw [List.cons_append, List.cons.injEq] at hv
      have hc := hGap c (by rw [hw]; simp)
      rw [← hv.1, hd] at hc
      cases hc

end Overlap

/-- The name of a header does not begin another header: a blank would have to follow the word
`function`, and then a name, but the parenthesis comes first. -/
theorem Header.no_header_at_name {h h' : Header} {rest rest' : Text} :
    h.name ++ (h.ending ++ rest) ≠ h'.text ++ rest' := by
  intro hText
  rw [Header.text] at hText
  simp only [List.append_assoc] at hText
  -- behind the name, and then behind the blanks, both texts go on in the same way
  have hName := (h.span_name rest).2
  rw [hText, (h'.span_functionWord _).2] at hName
  have hSpace := (h.span_space rest).2
  rw [← hName, (h'.span_gap _).2] at hSpace
  -- so the parenthesis would be in the second name
  have hIn : parenthesis ∈ h'.name := by
    apply mem_of_mem_head?_append (u := h'.ending ++ rest') h'.name_ne_nil
    rw [hSpace]
    rfl
  have hParenthesis := h'.name_word parenthesis hIn
  rw [parenthesis_not_word] at hParenthesis
  cases hParenthesis

/-- **Headers do not overlap**: the next header begins behind the parenthesis of this one. -/
theorem Header.length_le {h : Header} {previous : Option CodePoint} {rest : Text} {k : Nat}
    (hAt : HeaderAt previous (h.text ++ rest) k) (hk : k ≠ 0) : h.text.length ≤ k := by
  obtain ⟨a, h', rest', hText, rfl, hPrevious⟩ := hAt
  have hNil : a ≠ [] := fun ha => hk (by rw [ha]; rfl)
  have hLast : a.getLast?.any CodePoint.isWord = false := by
    rw [List.getLast?_eq_some_getLast hNil] at hPrevious ⊢
    exact hPrevious
  have hHead : ∃ c t, h'.text ++ rest' = c :: t ∧ c.isWord = true := by
    obtain ⟨c, t, ht, hc⟩ := h'.exists_cons
    exact ⟨c, t ++ rest', by rw [ht]; rfl, hc⟩
  rw [Header.text, List.append_assoc, List.append_assoc, List.append_assoc] at hText
  obtain ⟨b, rfl, hGap⟩ := beyond_word functionWord_word hText hNil hLast
  have hBlank : ∀ c ∈ h.gap, c.isWord = false :=
    fun c hc => CodePoint.isWord_of_isBlank (h.gap_blank c hc)
  obtain ⟨b, rfl, hName⟩ := beyond_gap hBlank hGap hHead
  have hb : b ≠ [] := by
    rintro rfl
    exact Header.no_header_at_name hName
  have hLast : b.getLast?.any CodePoint.isWord = false := by
    rw [← List.append_assoc, List.getLast?_append] at hLast
    rw [List.getLast?_eq_some_getLast hb] at hLast ⊢
    exact hLast
  obtain ⟨b, rfl, hEnding⟩ := beyond_word h.name_word hName hb hLast
  obtain ⟨b, rfl, -⟩ := beyond_gap (fun c hc => Header.not_word_of_mem_ending hc) hEnding hHead
  simp only [Header.text, List.length_append]
  omega

/-! ### The places that are found -/

/-- **The places found are the places at which a header stands.** -/
theorem mem_headersFrom_iff (i : Nat) (previous : Option CodePoint) (t : Text) (k : Nat) :
    k ∈ headersFrom i previous t ↔ ∃ j, k = i + j ∧ HeaderAt previous t j := by
  fun_induction headersFrom i previous t generalizing k with
  | case1 i previous =>
    simp only [List.not_mem_nil, false_iff, not_exists, not_and]
    rintro j - ⟨a, h, rest, hText, -⟩
    obtain ⟨c, t, ht, -⟩ := h.exists_cons
    simp [ht] at hText
  | case2 i previous c rest length hLength ih =>
    obtain ⟨hPrevious, h, after, hText, rfl⟩ := headerLength?_eq_some_iff.mp hLength
    have hDrop : rest.drop (h.text.length - 1) = after := by
      have hCut := congrArg (List.drop h.text.length) hText
      rw [List.drop_left] at hCut
      rw [← hCut, h.length_text]
      rfl
    have hLast : h.text.getLast?.or previous = some parenthesis := by rw [h.getLast?_text]; rfl
    rw [List.mem_cons, ih, hDrop, hText]
    constructor
    · rintro (rfl | ⟨j, rfl, hAt⟩)
      · exact ⟨0, rfl, [], h, after, rfl, rfl, hPrevious⟩
      · refine ⟨h.text.length + j, Nat.add_assoc _ _ _, ?_⟩
        rw [headerAt_append_iff, hLast]
        exact hAt
    · rintro ⟨j, rfl, hAt⟩
      by_cases hj : j = 0
      · exact .inl (by rw [hj]; rfl)
      · obtain ⟨d, rfl⟩ := Nat.exists_eq_add_of_le (Header.length_le hAt hj)
        rw [headerAt_append_iff, hLast] at hAt
        exact .inr ⟨d, (Nat.add_assoc _ _ _).symm, hAt⟩
  | case3 i previous c rest hLength ih =>
    rw [ih]
    constructor
    · rintro ⟨j, rfl, hAt⟩
      refine ⟨1 + j, Nat.add_assoc _ _ _, ?_⟩
      exact (headerAt_append_iff (t := [c])).mpr hAt
    · rintro ⟨j, rfl, hAt⟩
      have hj : j ≠ 0 := by
        rintro rfl
        obtain ⟨n, hn⟩ := headerAt_zero_iff.mp hAt
        rw [hLength] at hn
        cases hn
      obtain ⟨d, rfl⟩ := Nat.exists_eq_add_of_le (Nat.one_le_iff_ne_zero.mpr hj)
      exact ⟨d, (Nat.add_assoc _ _ _).symm, (headerAt_append_iff (t := [c])).mp hAt⟩

theorem mem_headers_iff {t : Text} {k : Nat} : k ∈ headers t ↔ HeaderAt none t k := by
  simp [headers, mem_headersFrom_iff]

/-- The places are found **from left to right**. -/
theorem pairwise_headersFrom (i : Nat) (previous : Option CodePoint) (t : Text) :
    (headersFrom i previous t).Pairwise (· < ·) := by
  fun_induction headersFrom i previous t with
  | case1 i previous => exact .nil
  | case2 i previous c rest length hLength ih =>
    refine List.pairwise_cons.mpr ⟨?_, ih⟩
    intro k hk
    obtain ⟨j, rfl, -⟩ := (mem_headersFrom_iff _ _ _ _).mp hk
    obtain ⟨-, h, -, -, rfl⟩ := headerLength?_eq_some_iff.mp hLength
    have hPos := h.length_text
    omega
  | case3 i previous c rest hLength ih => exact ih

/-- No header stands **behind** the last place found. -/
theorem le_of_getLast?_headers {t : Text} {k last : Nat} (hFound : (headers t).getLast? = some last)
    (hAt : HeaderAt none t k) : k ≤ last := by
  obtain ⟨l, hl⟩ := List.getLast?_eq_some_iff.mp hFound
  have hMem : k ∈ headers t := mem_headers_iff.mpr hAt
  have hOrder : (headers t).Pairwise (· < ·) := pairwise_headersFrom 0 none t
  rw [hl, List.mem_append, List.mem_singleton] at hMem
  rw [hl, List.pairwise_append] at hOrder
  rcases hMem with hMem | rfl
  · exact Nat.le_of_lt (hOrder.2.2 k hMem last (List.mem_singleton_self _))
  · exact Nat.le_refl _

/-- The last place found is the **last place** at which a header stands. -/
theorem getLast?_headers {t : Text} {k : Nat} (hAt : HeaderAt none t k)
    (hLast : ∀ j, HeaderAt none t j → j ≤ k) : (headers t).getLast? = some k := by
  cases hFound : (headers t).getLast? with
  | none =>
    have hMem : k ∈ headers t := mem_headers_iff.mpr hAt
    rw [List.getLast?_eq_none_iff.mp hFound] at hMem
    cases hMem
  | some last =>
    have hIn : HeaderAt none t last := mem_headers_iff.mp (List.mem_of_getLast? hFound)
    rw [Nat.le_antisymm (hLast last hIn) (le_of_getLast?_headers hFound hAt)]

/-- No header goes **across** a code point that cannot be in one. -/
theorem HeaderAt.split {previous : Option CodePoint} {t u : Text} {c : CodePoint} {k : Nat}
    (hWord : c.isWord = false) (hBlank : c.isBlank = false) (hc : c ≠ parenthesis)
    (hAt : HeaderAt previous (t ++ c :: u) k) :
    HeaderAt previous t k ∨ ∃ j, k = t.length + 1 + j ∧ HeaderAt (some c) u j := by
  have hNot : ∀ h : Header, c ∉ h.text := by
    intro h hIn
    rcases Header.mem_text hIn with h | h | h
    · rw [hWord] at h
      cases h
    · rw [hBlank] at h
      cases h
    · exact hc h
  rcases Nat.lt_or_ge t.length k with hk | hk
  · obtain ⟨j, rfl⟩ := Nat.exists_eq_add_of_le hk
    have hAt : HeaderAt previous ((t ++ [c]) ++ u) ((t ++ [c]).length + j) := by
      rw [List.append_assoc, List.length_append]
      exact hAt
    rw [headerAt_append_iff, List.getLast?_concat] at hAt
    exact .inr ⟨j, rfl, hAt⟩
  · obtain ⟨a, h, rest, hText, rfl, hPrevious⟩ := hAt
    rcases List.append_eq_append_iff.mp hText with ⟨b, hb, hu⟩ | ⟨b, ht, hb⟩
    · -- the header would begin at the code point itself
      rw [hb, List.length_append] at hk
      have hNil : b = [] := List.length_eq_zero_iff.mp (by omega)
      subst hNil
      obtain ⟨d, s, hs, -⟩ := h.exists_cons
      have hHead : c = d := by
        rw [hs] at hu
        exact (List.cons.inj hu).1
      exact absurd (by rw [hs, hHead]; exact List.mem_cons_self) (hNot h)
    · rcases List.append_eq_append_iff.mp hb with ⟨d, hd, hRest⟩ | ⟨d, hd, hRest⟩
      · left
        exact ⟨a, h, d, by rw [ht, hd], rfl, hPrevious⟩
      · cases d with
        | nil => exact .inl ⟨a, h, [], by simp [ht, hd], rfl, hPrevious⟩
        | cons e d =>
          rw [List.cons_append, List.cons.injEq] at hRest
          exact absurd (by rw [hd, hRest.1]; simp) (hNot h)

end Containment
end ScriptLint
