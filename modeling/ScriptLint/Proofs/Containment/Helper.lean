import Mathlib.Data.List.Infix
import ScriptLint.Proofs.Containment.Header

/-!
# A place in the body of a helper

A helper is a named function; a place in its body is given by the text of the body before it and the
text of the body behind it.  The search for the enclosing function finds the header of the helper,
since no other header stands between it and the place, and then looks for the brace that closes the
first block behind the header.  This block is the body, as long as there is no brace among the
parameters: a block of the parameters is taken for the body.

* `Balanced`: text that opens and closes in turn.
* `Helper`: a source with a helper and a place in its body.
* `Helper.getLast?_headers`: the helper is the last named function that begins before the place.
* `enclosingFunction?_helper`: when the helper is recognized around the place.
-/

namespace ScriptLint.Containment

/-! ### Balanced text -/

/-- Text is **balanced** if no beginning of it closes more than it opens, and all that it opens is
closed in the end. -/
structure Balanced (opening closing : CodePoint) (t : Text) : Prop where
  never_below : ∀ u, u <+: t → List.count closing u ≤ List.count opening u
  even : List.count closing t = List.count opening t

instance (opening closing : CodePoint) (t : Text) : Decidable (Balanced opening closing t) :=
  decidable_of_iff ((∀ u ∈ t.inits, List.count closing u ≤ List.count opening u) ∧
      List.count closing t = List.count opening t)
    ⟨fun h => ⟨fun u hu => h.1 u ((List.mem_inits u t).mpr hu), h.2⟩,
      fun h => ⟨fun u hu => h.never_below u ((List.mem_inits u t).mp hu), h.even⟩⟩

/-- A block whose inside is balanced ends **right behind** the inside. -/
theorem Balanced.blockEnd?_closing {t : Text} (h : Balanced openingBrace closingBrace t) (i : Nat)
    (u : Text) : blockEnd? i 1 (t ++ closingBrace :: u) = some (i + t.length) := by
  have hNone : blockEnd? i (0 + 1) t = none := by
    rw [blockEnd?_eq_none_iff]
    intro v hv
    have hBelow := h.never_below v hv
    omega
  have hDepth : depthAfter (0 + 1) t = 1 := by
    have hCount := depthAfter_add_count hNone
    have hEven := h.even
    omega
  rw [blockEnd?_append, hNone, hDepth, Option.none_or, blockEnd?_cons, if_pos ⟨rfl, rfl⟩]

/-- The first block of balanced text ends **in** it. -/
theorem Balanced.exists_blockEnd? {t : Text} (h : Balanced openingBrace closingBrace t)
    (hOpening : openingBrace ∈ t) (i : Nat) :
    ∃ e, blockEnd? i 0 t = some e ∧ e < i + t.length := by
  obtain ⟨s, u, rfl, hs⟩ := List.eq_append_cons_of_mem hOpening
  cases hEnd : blockEnd? i 0 (s ++ openingBrace :: u) with
  | some e => exact ⟨e, rfl, (blockEnd?_bounds hEnd).2⟩
  | none =>
    exfalso
    rw [blockEnd?_skip _ hs, blockEnd?_cons, if_neg (fun hc => by cases hc.2)] at hEnd
    -- the block would stay open, but what follows it closes more than it opens
    have hDepth : depthStep 0 openingBrace = 0 + 1 := if_pos rfl
    rw [hDepth, blockEnd?_eq_none_iff] at hEnd
    have hOpen := hEnd u (List.prefix_refl u)
    have hEven := h.even
    have hBefore := h.never_below s (List.prefix_append _ _)
    rw [List.count_eq_zero.mpr hs] at hBefore
    rw [List.count_append, List.count_append, count_cons_eq, count_cons_eq openingBrace,
      List.count_eq_zero.mpr hs, List.count_singleton_self,
      List.count_singleton, beq_eq_false_iff_ne.mpr openingBrace_ne_closingBrace] at hEven
    simp only [Bool.false_eq_true, if_false] at hEven
    omega

/-! ### Helpers -/

/-- What stands between the parameters of a helper and its body. -/
def bodyOpening : Text := ") \x7b"

/-- A source with a **helper** and a place in its body: the text `before` the helper, its `header`,
its parameters, the parts of its body that are `done` and `left` at the place, and the text `after`
the body. -/
structure Helper where
  before : Text
  header : Header
  params : Text
  done : Text
  left : Text
  after : Text
  before_last : before.getLast?.any CodePoint.isWord = false
  params_balanced : Balanced openingBrace closingBrace params
  params_headers : headers params = []
  body_balanced : Balanced openingBrace closingBrace (done ++ left)
  done_headers : headers done = []

namespace Helper

variable (h : Helper)

/-- The text from the header to the place. -/
def opened : Text := h.header.text ++ (h.params ++ (bodyOpening ++ h.done))

/-- The text from the place on. -/
def rest : Text := h.left ++ closingBrace :: h.after

def source : Text := h.before ++ (h.opened ++ h.rest)

/-- Where the word `function` of the helper begins. -/
def start : Nat := h.before.length

/-- The place in the body. -/
def offset : Nat := h.before.length + h.opened.length

/-- Where the brace stands that closes the body. -/
def close : Nat := h.offset + h.left.length

theorem take_offset : h.source.take h.offset = h.before ++ h.opened := by
  rw [source, ← List.append_assoc, offset, ← List.length_append, List.take_left]

theorem drop_start : h.source.drop h.start = h.opened ++ h.rest := by
  rw [source, start, List.drop_left]

theorem start_lt_offset : h.start < h.offset := by
  have hHeader := h.header.length_text
  rw [start, offset, opened, List.length_append]
  omega

/-! ### The header -/

/-- No header stands between the parenthesis of the helper and the place. -/
theorem no_header_inside {k : Nat} :
    ¬ HeaderAt (some parenthesis) (h.params ++ (bodyOpening ++ h.done)) k := by
  intro hAt
  have hNone : ∀ t : Text, headers t = [] → ∀ j, ¬ HeaderAt none t j := by
    intro t ht j hj
    have hMem := mem_headers_iff.mpr hj
    rw [ht] at hMem
    cases hMem
  -- neither the closing parenthesis nor the brace can be in a header
  rcases HeaderAt.split (c := CodePoint.ofChar ')') (by decide) (by decide) (by decide) hAt with
    hParams | ⟨j, -, hBody⟩
  · rw [headerAt_previous_iff (by decide)] at hParams
    exact hNone _ h.params_headers _ hParams
  · rcases HeaderAt.split (t := " ") (c := openingBrace) (by decide) (by decide) (by decide) hBody
      with hBlank | ⟨i, -, hDone⟩
    · rw [headerAt_previous_iff (by decide)] at hBlank
      exact hNone " " (by decide +kernel) _ hBlank
    · rw [headerAt_previous_iff (by decide)] at hDone
      exact hNone _ h.done_headers _ hDone

/-- The helper is the **last** named function that begins before the place. -/
theorem getLast?_headers : (headers (h.source.take h.offset)).getLast? = some h.start := by
  rw [take_offset]
  apply Containment.getLast?_headers
  · refine ⟨h.before, h.header, _, rfl, rfl, ?_⟩
    rw [Option.or_none]
    exact h.before_last
  · intro j hj
    by_contra hLt
    obtain ⟨d, rfl⟩ := Nat.exists_eq_add_of_le (Nat.le_of_lt (Nat.lt_of_not_le hLt))
    have hd : d ≠ 0 := fun hZero => hLt (by rw [hZero]; exact Nat.le_refl _)
    rw [start, headerAt_append_iff, opened] at hj
    obtain ⟨e, rfl⟩ := Nat.exists_eq_add_of_le (Header.length_le hj hd)
    rw [headerAt_append_iff, h.header.getLast?_text] at hj
    exact h.no_header_inside hj

/-! ### The block behind the header -/

theorem openingBrace_notMem_header : openingBrace ∉ h.header.text := by
  intro hIn
  have hCases := Header.mem_text hIn
  revert hCases
  decide

/-- Behind parameters without a block the first block is **the body**. -/
theorem blockEnd?_body (hParams : openingBrace ∉ h.params) :
    blockEnd? h.start 0 (h.opened ++ h.rest) = some h.close := by
  have hText : h.opened ++ h.rest = (h.header.text ++ (h.params ++ ") ")) ++
      openingBrace :: ((h.done ++ h.left) ++ closingBrace :: h.after) := by
    simp only [opened, rest, List.append_assoc]
    rfl
  have hSkip : openingBrace ∉ h.header.text ++ (h.params ++ (") " : Text)) := by
    rw [List.mem_append, List.mem_append, not_or, not_or]
    exact ⟨h.openingBrace_notMem_header, hParams, by decide⟩
  rw [hText, blockEnd?_skip _ hSkip, blockEnd?_cons, if_neg (fun hc => by cases hc.2)]
  refine (h.body_balanced.blockEnd?_closing _ _).trans (congrArg some ?_)
  have hBefore : List.length (") " : Text) = 2 := rfl
  have hOpening : bodyOpening.length = 3 := rfl
  simp only [close, offset, opened, start, List.length_append, hBefore, hOpening]
  omega

/-- A block **of the parameters** is the first block, and it ends before the place. -/
theorem blockEnd?_params (hParams : openingBrace ∈ h.params) :
    ∃ e, blockEnd? h.start 0 (h.opened ++ h.rest) = some e ∧ e < h.offset := by
  have hText : h.opened ++ h.rest
      = h.header.text ++ (h.params ++ ((bodyOpening ++ h.done) ++ h.rest)) := by
    simp only [opened, List.append_assoc]
  obtain ⟨e, he, hLt⟩ := h.params_balanced.exists_blockEnd? hParams (h.start + h.header.text.length)
  refine ⟨e, ?_, ?_⟩
  · rw [hText, blockEnd?_skip _ h.openingBrace_notMem_header, blockEnd?_append, he, Option.some_or]
  · simp only [offset, opened, start, List.length_append] at hLt ⊢
    omega

end Helper

/-- **When a helper is recognized around a place in its body.**  It is, with its beginning and the
brace that closes its body, for every name, every parameter list and every body, in whatever text the
helper stands, with two exceptions:

* The parameters have a block of their own, as in `function f({a}) { ... }`.  This block is taken
  for the body, so every place in the real body lies behind the function.
* Nothing of the body is left at the place.  Then the place is the closing brace itself. -/
theorem enclosingFunction?_helper (h : Helper) :
    enclosingFunction? h.source h.offset =
      if openingBrace ∈ h.params ∨ h.left = [] then none else some (h.start, some h.close) := by
  rw [enclosingFunction?_of_last h.getLast?_headers, h.drop_start]
  by_cases hParams : openingBrace ∈ h.params
  · obtain ⟨e, he, hLt⟩ := h.blockEnd?_params hParams
    rw [he, if_neg, if_pos (.inl hParams)]
    rintro ⟨-, hAll⟩
    have hBeyond := hAll e rfl
    omega
  · have hIff : (h.start < h.offset ∧ ∀ e ∈ some h.close, h.offset < e) ↔
        ¬ (openingBrace ∈ h.params ∨ h.left = []) := by
      have hStart := h.start_lt_offset
      rw [← List.length_eq_zero_iff]
      simp only [Option.mem_some_iff, forall_eq', Helper.close, hParams, false_or]
      omega
    rw [h.blockEnd?_body hParams]
    by_cases hLeft : openingBrace ∈ h.params ∨ h.left = []
    · rw [if_pos hLeft, if_neg (fun hc => hIff.mp hc hLeft)]
    · rw [if_neg hLeft, if_pos (hIff.mpr hLeft)]

/-- The header `function f(`. -/
def plainHeader : Header where
  gap := " "
  name := "f"
  space := []
  gap_ne_nil := by decide
  name_ne_nil := by decide
  gap_blank := by decide
  name_word := by decide
  space_blank := by decide

/-- `; function f(n) { if (n) { x } y } z` at the place of `x`. -/
def plainHelper : Helper where
  before := "; "
  header := plainHeader
  params := "n"
  done := " if (n) \x7b "
  left := "x \x7d y "
  after := " z"
  before_last := by decide
  params_balanced := by decide +kernel
  params_headers := by decide +kernel
  body_balanced := by decide +kernel
  done_headers := by decide +kernel

theorem enclosingFunction?_plainHelper :
    plainHelper.source = "; function f(n) \x7b if (n) \x7b x \x7d y \x7d z" ∧
      enclosingFunction? plainHelper.source plainHelper.offset = some (2, some 33) := by
  refine ⟨by decide +kernel, ?_⟩
  rw [enclosingFunction?_helper, if_neg (by decide +kernel)]
  decide +kernel

/-- `function f({a}) { x }` at the place of `x`. -/
def patternHelper : Helper where
  before := []
  header := plainHeader
  params := "\x7ba\x7d"
  done := " "
  left := "x "
  after := []
  before_last := by decide
  params_balanced := by decide +kernel
  params_headers := by decide +kernel
  body_balanced := by decide +kernel
  done_headers := by decide +kernel

theorem enclosingFunction?_patternHelper :
    patternHelper.source = "function f(\x7ba\x7d) \x7b x \x7d" ∧
      Balanced parenthesis (CodePoint.ofChar ')') patternHelper.params ∧
      enclosingFunction? patternHelper.source patternHelper.offset
        ≠ some (patternHelper.start, some patternHelper.close) := by
  decide +kernel

end ScriptLint.Containment
