import Mathlib.Data.List.Basic
import ScriptLint.Text.Lines

/-!
# Lines and columns grow with the offset

* `lastLine_spec`: what a binary search finds.
* `lineStarts_getD_mono`: the beginnings of the lines come in order.
* `Place.lineAt_spec`: the line of an offset is the last one that has been reached.
* `Place.ofOffset_mono`: a later offset has a later place, where places are ordered by line and
  then by column.
-/

namespace ScriptLint

/-! ### The search -/

/-- Between `low` and `high` the search finds the **last** number that is reached, or `low` if
there is none above it. -/
theorem lastLine_spec {reached : Nat → Bool} {low high : Nat}
    (hDown : ∀ i j, i ≤ j → j ≤ high → reached j = true → reached i = true) (hle : low ≤ high) :
    let r := lastLine reached low high
    low ≤ r ∧ r ≤ high ∧ (r = low ∨ reached r = true) ∧
      ∀ j, r < j → j ≤ high → reached j = false := by
  fun_induction lastLine reached low high with
  | case1 low high hlt middle hm ih =>
    obtain ⟨hLow, hHigh, hReached, hRest⟩ := ih hDown (by omega)
    refine ⟨by omega, hHigh, .inr ?_, hRest⟩
    rcases hReached with hr | hr
    · rw [hr]
      exact hm
    · exact hr
  | case2 low high hlt middle hm ih =>
    obtain ⟨hLow, hHigh, hReached, hRest⟩ :=
      ih (fun i j hij hj => hDown i j hij (by omega)) (by omega)
    refine ⟨hLow, by omega, hReached, fun j hj hjh => ?_⟩
    by_cases hjm : j ≤ middle - 1
    · exact hRest j hj hjm
    · -- nothing from the middle on is reached, since the middle is not
      rw [← Bool.not_eq_true]
      exact fun hr => hm (hDown middle j (by omega) hjh hr)
  | case3 low high hlt =>
    exact ⟨Nat.le_refl _, hle, .inl rfl, fun j hj hjh => by omega⟩

/-! ### Line beginnings -/

theorem lt_of_mem_lineStartsFrom {t : Text} : ∀ {start : Nat},
    ∀ i ∈ Text.lineStartsFrom start t, start < i := by
  induction t with
  | nil => intro start i hi; cases hi
  | cons c t ih =>
    intro start i hi
    rw [Text.lineStartsFrom] at hi
    split at hi
    · rcases List.mem_cons.mp hi with rfl | hi
      · omega
      · have := ih i hi
        omega
    · have := ih i hi
      omega

theorem pairwise_lineStartsFrom {t : Text} : ∀ {start : Nat},
    (Text.lineStartsFrom start t).Pairwise (· < ·) := by
  induction t with
  | nil => intro start; exact .nil
  | cons c t ih =>
    intro start
    rw [Text.lineStartsFrom]
    split
    · exact .cons (fun i hi => lt_of_mem_lineStartsFrom i hi) ih
    · exact ih

theorem pairwise_lineStarts (t : Text) : (Text.lineStarts t).toList.Pairwise (· < ·) :=
  .cons (fun i hi => lt_of_mem_lineStartsFrom i hi) pairwise_lineStartsFrom

/-- The beginnings of the lines come **in order**. -/
theorem lineStarts_getD_mono (t : Text) {i j : Nat} (hij : i ≤ j)
    (hj : j < (Text.lineStarts t).size) :
    (Text.lineStarts t).getD i 0 ≤ (Text.lineStarts t).getD j 0 := by
  have hPairwise := List.pairwise_iff_getElem.mp (pairwise_lineStarts t)
  rcases Nat.eq_or_lt_of_le hij with rfl | hij
  · exact Nat.le_refl _
  · have hLt := hPairwise i j (by simp; omega) (by simpa using hj) hij
    simp only [Array.getElem_toList] at hLt
    simp only [Array.getD_eq_getD_getElem?, Array.getElem?_eq_getElem hj,
      Array.getElem?_eq_getElem (Nat.lt_trans hij hj), Option.getD_some]
    omega

/-! ### Places -/

namespace Place

/-- Places are ordered by line and then by column. -/
instance : LE Place := ⟨fun p q => p.line < q.line ∨ p.line = q.line ∧ p.column ≤ q.column⟩

theorem le_def {p q : Place} :
    p ≤ q ↔ p.line < q.line ∨ p.line = q.line ∧ p.column ≤ q.column := Iff.rfl

/-- The number of the line of an offset, counted from zero. -/
def lineAt (t : Text) (offset : Int) : Nat :=
  lastLine (fun i => ((Text.lineStarts t).getD i 0 : Int) ≤ offset) 0
    ((Text.lineStarts t).size - 1)

theorem ofOffset_eq (t : Text) (offset : Int) :
    ofOffset (Text.lineStarts t) offset
      = ⟨lineAt t offset + 1, offset - (Text.lineStarts t).getD (lineAt t offset) 0⟩ := rfl

theorem size_lineStarts_pos (t : Text) : 0 < (Text.lineStarts t).size := by
  simp [Text.lineStarts]

/-- The line of an offset is the **last** one that has been reached, or the first one. -/
theorem lineAt_spec (t : Text) (offset : Int) :
    lineAt t offset < (Text.lineStarts t).size ∧
      (lineAt t offset = 0 ∨ ((Text.lineStarts t).getD (lineAt t offset) 0 : Int) ≤ offset) ∧
      ∀ j, lineAt t offset < j → j < (Text.lineStarts t).size →
        offset < (Text.lineStarts t).getD j 0 := by
  have hSize := size_lineStarts_pos t
  have hDown : ∀ i j, i ≤ j → j ≤ (Text.lineStarts t).size - 1 →
      decide (((Text.lineStarts t).getD j 0 : Int) ≤ offset) = true →
      decide (((Text.lineStarts t).getD i 0 : Int) ≤ offset) = true := by
    intro i j hij hj hr
    have hMono := lineStarts_getD_mono t hij (by omega)
    rw [decide_eq_true_eq] at hr ⊢
    omega
  obtain ⟨-, hHigh, hReached, hRest⟩ := lastLine_spec hDown (Nat.zero_le _)
  refine ⟨?_, ?_, fun j hj hjs => ?_⟩
  · rw [lineAt]
    omega
  · rw [decide_eq_true_eq] at hReached
    exact hReached
  · have hNot := hRest j hj (by omega)
    rw [decide_eq_false_iff_not] at hNot
    omega

theorem lineAt_mono (t : Text) {o o' : Int} (h : o ≤ o') : lineAt t o ≤ lineAt t o' := by
  obtain ⟨hSize, hReached, -⟩ := lineAt_spec t o
  obtain ⟨-, -, hRest⟩ := lineAt_spec t o'
  by_contra hlt
  have hPast := hRest (lineAt t o) (by omega) hSize
  omega

/-- **A later offset has a later place.** -/
theorem ofOffset_mono (t : Text) {o o' : Int} (h : o ≤ o') :
    ofOffset (Text.lineStarts t) o ≤ ofOffset (Text.lineStarts t) o' := by
  have hLine := lineAt_mono t h
  rw [ofOffset_eq, ofOffset_eq, le_def]
  rcases Nat.eq_or_lt_of_le hLine with hEq | hLt
  · right
    rw [hEq]
    exact ⟨rfl, by simp only; omega⟩
  · left
    simp only
    omega

end Place

end ScriptLint
