import ScriptLint.Containment.Textual
import ScriptLint.Proofs.Text.Search

/-!
# A loop found by the text has an open brace

The search by the text compares two numbers: the opening and the closing braces from the last
occurrence of a word up to the offset.  If the opening ones are more, then one particular brace
among them is still open at the offset.

* `StaysOpen`: every beginning of the text has more opening than closing braces, so the brace with
  which it begins is not closed in it.
* `exists_staysOpen`: a text with more opening than closing braces has such a brace.  As long as
  some beginning is even or worse it is cut off, and what is left still has the surplus.
* `exists_open_of_isOpenAfter`: the brace for one of the words.
* `textualAt_sound`: the word and the brace for the whole search.
-/

namespace ScriptLint.Containment

/-! ### Braces that stay open -/

/-- Every beginning of the text has **more opening than closing** braces. -/
def StaysOpen (t : Text) : Prop :=
  ∀ u, u <+: t → u ≠ [] → List.count closingBrace u < List.count openingBrace u

/-- What stays open begins with an opening brace. -/
theorem StaysOpen.head {c : CodePoint} {t : Text} (h : StaysOpen (c :: t)) : c = openingBrace := by
  have hFirst : [c] <+: c :: t := ⟨t, rfl⟩
  have hCount := h [c] hFirst (by simp)
  have hPos : 0 < List.count openingBrace [c] := by omega
  exact (List.mem_singleton.mp (List.count_pos_iff.mp hPos)).symm

/-- A surplus of opening braces **leaves one open**. -/
theorem exists_staysOpen : ∀ {t : Text},
    List.count closingBrace t < List.count openingBrace t →
      ∃ q < t.length, StaysOpen (t.drop q) := by
  intro t
  induction hLength : t.length using Nat.strongRecOn generalizing t with
  | ind length ih =>
    intro hCount
    by_cases hOpen : StaysOpen t
    · refine ⟨0, ?_, by rwa [List.drop_zero]⟩
      have hNe : t ≠ [] := by
        rintro rfl
        simp at hCount
      rw [← hLength]
      exact List.length_pos_iff.mpr hNe
    · -- some beginning has no surplus, so the rest has one
      unfold StaysOpen at hOpen
      push Not at hOpen
      obtain ⟨u, ⟨v, rfl⟩, hNe, hEven⟩ := hOpen
      have hPos := List.length_pos_iff.mpr hNe
      rw [List.length_append] at hLength
      rw [List.count_append, List.count_append] at hCount
      obtain ⟨q, hq, hRest⟩ := ih v.length (by omega) rfl (by omega)
      refine ⟨u.length + q, by omega, ?_⟩
      rwa [List.drop_length_add_append]

/-! ### One word -/

/-- Where a word finds a loop, it stands in the text, not before the floor, and a brace after it
**stays open** up to the end of the text. -/
theorem exists_open_of_isOpenAfter {before token : Text} {floor : Nat}
    (h : isOpenAfter before floor token = true) :
    ∃ p q, floor ≤ p ∧ p ≤ q ∧ q < before.length ∧ token <+: before.drop p ∧
      before[q]? = some openingBrace ∧ StaysOpen (before.drop q) := by
  unfold isOpenAfter at h
  split at h
  · cases h
  · rename_i p hp
    by_cases hFloor : p < floor
    · rw [if_pos hFloor] at h
      cases h
    · rw [if_neg hFloor, decide_eq_true_eq] at h
      obtain ⟨hLength, hToken⟩ := Text.isPrefix_drop_of_lastIndex? hp
      obtain ⟨q, hq, hOpen⟩ := exists_staysOpen h
      rw [List.length_drop] at hq
      rw [List.drop_drop] at hOpen
      have hLt : p + q < before.length := by omega
      refine ⟨p, p + q, by omega, by omega, hLt, hToken, ?_, hOpen⟩
      rw [List.drop_eq_getElem_cons hLt] at hOpen
      rw [List.getElem?_eq_getElem hLt, hOpen.head]

theorem isOpenAfter_mono {before token : Text} {floor : Nat}
    (h : isOpenAfter before floor token = true) : isOpenAfter before 0 token = true := by
  unfold isOpenAfter at h ⊢
  split at h
  · cases h
  · rename_i p hp
    rw [if_neg (Nat.not_lt_zero p)]
    by_cases hFloor : p < floor
    · rw [if_pos hFloor] at h
      cases h
    · rwa [if_neg hFloor] at h

/-! ### All words -/

theorem before_of_pos {source : Text} {offset : Int} (h : 0 < offset) :
    Text.before source offset = source.take offset.toNat := by
  unfold Text.before Text.bound
  rw [if_neg (by omega), ← List.take_take, List.take_length]

/-- The part of the source from a place up to an offset is the end of the text before the
offset. -/
theorem slice_of_pos {source : Text} {offset : Int} {q : Nat} (h : 0 < offset)
    (hq : q < (Text.before source offset).length) :
    Text.slice source q offset = (Text.before source offset).drop q := by
  have hBound : Text.bound source.length (q : Int) = q := by
    rw [before_of_pos h, List.length_take] at hq
    unfold Text.bound
    rw [if_neg (by omega), Int.toNat_natCast]
    omega
  show (Text.before source offset).drop (Text.bound source.length (q : Int)) = _
  rw [hBound]

/-- Where the search answers yes, a word stands before the offset and a brace after it stays open up
to the offset; the word is not before the function that is the boundary. -/
theorem exists_open_of_textual {source : Text} {offset : Int} {helpers : Bool}
    (h : textual source offset helpers = true) :
    0 < offset ∧ ∃ token ∈ loopTokens, ∃ p q : Nat, p ≤ q ∧ (q : Int) < offset ∧
      token <+: (Text.before source offset).drop p ∧ source[q]? = some openingBrace ∧
      StaysOpen (Text.slice source q offset) ∧
      (helpers = true → ∀ start stop, enclosingFunction? source offset = some (start, stop) →
        start ≤ p) := by
  unfold textual at h
  split at h
  · cases h
  rename_i hOffset
  have hPos : 0 < offset := by omega
  obtain ⟨token, hToken, hOpen⟩ := List.any_eq_true.mp h
  obtain ⟨p, q, hFloor, hpq, hq, hStands, hBrace, hStays⟩ := exists_open_of_isOpenAfter hOpen
  have hLength : q < offset.toNat := by
    rw [before_of_pos hPos, List.length_take] at hq
    omega
  refine ⟨hPos, token, hToken, p, q, hpq, by omega, hStands, ?_, ?_, ?_⟩
  · rwa [before_of_pos hPos, List.getElem?_take_of_lt hLength] at hBrace
  · rwa [slice_of_pos hPos hq]
  · intro hHelpers start stop hFunction
    rwa [if_pos hHelpers, hFunction] at hFloor

/-- Without boundaries the search answers yes wherever it does with them. -/
theorem textual_of_helpers {source : Text} {offset : Int} {helpers : Bool}
    (h : textual source offset helpers = true) : textual source offset false = true := by
  unfold textual at h ⊢
  split at h
  · cases h
  rename_i hOffset
  rw [if_neg hOffset]
  obtain ⟨token, hToken, hOpen⟩ := List.any_eq_true.mp h
  exact List.any_eq_true.mpr ⟨token, hToken, isOpenAfter_mono hOpen⟩

/-! ### Offsets as they are given -/

/-- The answer yes at an integer: with boundaries the integer has to fit into 64 bits. -/
theorem textualAt_int_iff {source : Text} {offset : Int} {helpers : Bool} :
    textualAt source (.int offset) helpers = .ok true ↔
      textual source offset helpers = true ∧ ¬ (helpers = true ∧ (twoTo 63 : Int) ≤ offset) := by
  unfold textualAt
  simp only [Json.number?]
  by_cases hLarge : helpers = true ∧ (twoTo 63 : Int) ≤ offset
  · rw [if_pos hLarge]
    constructor
    · intro h
      cases h
    · intro h
      exact absurd hLarge h.2
  · rw [if_neg hLarge, Except.ok.injEq]
    exact ⟨fun h => ⟨h, hLarge⟩, fun h => h.1⟩

/-- **A loop found by the text has an open brace.**  If the search answers yes at an offset, then:

* the offset is positive, and one of the words stands entirely in the text before the offset;
* after the beginning of that word there is an opening brace that is not closed before the offset:
  every beginning of the text from the brace up to the offset has more opening than closing braces;
* with helpers as boundaries, the word does not stand before the function around the offset;
* without boundaries the search answers yes as well. -/
theorem textualAt_sound (source : Text) (offset : Int) (helpers : Bool)
    (h : textualAt source (.int offset) helpers = .ok true) :
    0 < offset ∧
    (∃ token ∈ loopTokens, ∃ p q : Nat, p ≤ q ∧ (q : Int) < offset ∧
      token <+: (Text.before source offset).drop p ∧ source[q]? = some openingBrace ∧
      (∀ u, u <+: Text.slice source q offset → u ≠ [] →
        List.count closingBrace u < List.count openingBrace u) ∧
      (helpers = true → ∀ start stop,
        enclosingFunctionAt source (.int offset) = .ok (some (start, stop)) → start ≤ p)) ∧
    textualAt source (.int offset) false = .ok true := by
  obtain ⟨hTextual, -⟩ := textualAt_int_iff.mp h
  obtain ⟨hPos, token, hToken, p, q, hpq, hq, hStands, hBrace, hStays, hStart⟩ :=
    exists_open_of_textual hTextual
  refine ⟨hPos, ⟨token, hToken, p, q, hpq, hq, hStands, hBrace, hStays, ?_⟩, ?_⟩
  · intro hHelpers start stop hFunction
    refine hStart hHelpers start stop ?_
    unfold enclosingFunctionAt at hFunction
    simp only [Json.number?] at hFunction
    split at hFunction
    · exact Except.ok.inj hFunction
    · cases hFunction
  · refine textualAt_int_iff.mpr ⟨textual_of_helpers hTextual, ?_⟩
    rintro ⟨hHelpers, -⟩
    cases hHelpers

/-- A text with a helper between two loops: `for (;;) { function f() { while (x) {`. -/
def helperText : Text := "for (;;) \x7b function f() \x7b while (x) \x7b"

theorem textualAt_sound_helperText :
    textualAt helperText (.int 37) true = .ok true ∧
      enclosingFunctionAt helperText (.int 37) = .ok (some (11, none)) ∧
      ∃ p q : Nat, 11 ≤ p ∧ p ≤ q ∧ (q : Int) < 37 ∧ helperText[q]? = some openingBrace := by
  have hTrue : textualAt helperText (.int 37) true = .ok true := by decide +kernel
  have hFunction : enclosingFunctionAt helperText (.int 37) = .ok (some (11, none)) := by
    decide +kernel
  obtain ⟨-, ⟨token, -, p, q, hpq, hq, -, hBrace, -, hStart⟩, -⟩ :=
    textualAt_sound helperText 37 true hTrue
  exact ⟨hTrue, hFunction, p, q, hStart rfl 11 none hFunction, hpq, hq, hBrace⟩

end ScriptLint.Containment
