import ScriptLint.Proofs.Text.Lines

/-!
# Places by counting line feeds

The line of an offset is found by a binary search among the beginnings of the lines.  What it finds
can be said without the search: the number of line feeds before the offset, and how far the last of
them is away.  That holds for offsets before and after the text too.

* `Text.feeds`, `Text.feedsBefore`: the positions of the line feeds, and of those before an offset.
* `lineStarts_toList`: the lines begin at the beginning of the text and after each line feed.
* `Place.feedsBefore_eq_take`: the line feeds before an offset are as many as its line says.
* `Place.ofOffset?`: the search with a look-up that may fail.
* `Place.ofOffset_exact`: line and column of an offset, and back.
-/

namespace ScriptLint

/-! ### Line feeds -/

namespace Text

/-- The positions of the line feeds of a text. -/
def feeds (t : Text) : List Nat :=
  (List.range t.length).filter fun i => t[i]? = some (CodePoint.ofChar '\n')

/-- The positions of the line feeds **before** an offset. -/
def feedsBefore (t : Text) (offset : Int) : List Nat := t.feeds.filter fun i => (i : Int) < offset

theorem feeds_cons (c : CodePoint) (t : Text) :
    feeds (c :: t) = (if c = CodePoint.ofChar '\n' then [0] else []) ++ t.feeds.map (· + 1) := by
  rw [feeds, List.length_cons, List.range_succ_eq_map, List.filter_cons, List.filter_map]
  by_cases hc : c = CodePoint.ofChar '\n'
  · simp [hc, feeds, Function.comp_def]
  · simp [hc, feeds, Function.comp_def]

/-- A line begins after each line feed. -/
theorem lineStartsFrom_eq (t : Text) : ∀ start : Nat,
    lineStartsFrom start t = t.feeds.map fun i => start + i + 1 := by
  induction t with
  | nil => intro start; rfl
  | cons c t ih =>
    intro start
    have hLater : (feeds t).map (fun i => start + 1 + i + 1)
        = ((feeds t).map (· + 1)).map fun i => start + i + 1 := by
      rw [List.map_map]
      refine List.map_congr_left fun i _ => ?_
      simp only [Function.comp_apply]
      omega
    rw [lineStartsFrom, ih, feeds_cons, List.map_append, hLater]
    by_cases hc : c = CodePoint.ofChar '\n'
    · rw [if_pos hc, if_pos hc]
      rfl
    · rw [if_neg hc, if_neg hc]
      rfl

/-- The lines begin at the beginning of the text and **after each line feed**. -/
theorem lineStarts_toList (t : Text) : (lineStarts t).toList = 0 :: t.feeds.map (· + 1) := by
  rw [lineStarts, lineStartsFrom_eq]
  simp

/-- The line feeds before a position are those in the text up to it. -/
theorem length_feedsBefore (t : Text) : ∀ i : Nat,
    (t.feedsBefore i).length = (t.take i).count (CodePoint.ofChar '\n') := by
  induction t with
  | nil => intro i; simp [feedsBefore, feeds]
  | cons c t ih =>
    intro i
    cases i with
    | zero => simp [feedsBefore]
    | succ i =>
      have hLater :
          (((feeds t).map (· + 1)).filter fun j : Nat => (j : Int) < (i + 1 : Nat)).length
            = (feedsBefore t i).length := by
        rw [List.filter_map, List.length_map, feedsBefore]
        congr 1
        refine List.filter_congr fun j _ => ?_
        simp only [Function.comp_apply, decide_eq_decide]
        omega
      rw [feedsBefore, feeds_cons, List.filter_append, List.length_append, hLater, ih,
        List.take_succ_cons, List.count_cons]
      by_cases hc : c = CodePoint.ofChar '\n'
      · simp [hc, Nat.add_comm]
      · simp [hc]

end Text

namespace Place

/-! ### The line -/

theorem size_lineStarts (t : Text) : (Text.lineStarts t).size = t.feeds.length + 1 := by
  rw [← Array.length_toList, Text.lineStarts_toList]
  simp

theorem getD_lineStarts_zero (t : Text) : (Text.lineStarts t).getD 0 0 = 0 := by
  simp [Text.lineStarts]

theorem getD_lineStarts_succ (t : Text) {i : Nat} (hi : i < t.feeds.length) :
    (Text.lineStarts t).getD (i + 1) 0 = t.feeds[i] + 1 := by
  rw [Array.getD_eq_getD_getElem?, ← Array.getElem?_toList, Text.lineStarts_toList]
  simp [hi]

/-- The line feeds before an offset are **as many as its line says**: the search stops at the line
that begins after the last of them. -/
theorem feedsBefore_eq_take (t : Text) (offset : Int) :
    t.feedsBefore offset = t.feeds.take (lineAt t offset) := by
  obtain ⟨hSize, hReached, hRest⟩ := lineAt_spec t offset
  have hCount := size_lineStarts t
  have hBefore : ∀ i ∈ t.feeds.take (lineAt t offset), decide ((i : Int) < offset) = true := by
    intro i hi
    obtain ⟨j, hj, rfl⟩ := List.getElem_of_mem hi
    rw [List.length_take] at hj
    rw [List.getElem_take, decide_eq_true_eq]
    have hMono := lineStarts_getD_mono t (i := j + 1) (j := lineAt t offset) (by omega) hSize
    rw [getD_lineStarts_succ t (by omega)] at hMono
    omega
  have hAfter : ∀ i ∈ t.feeds.drop (lineAt t offset), ¬ decide ((i : Int) < offset) = true := by
    intro i hi
    obtain ⟨j, hj, rfl⟩ := List.getElem_of_mem hi
    rw [List.length_drop] at hj
    rw [List.getElem_drop, decide_eq_true_eq]
    have hPast := hRest (lineAt t offset + j + 1) (by omega) (by omega)
    rw [getD_lineStarts_succ t (by omega)] at hPast
    omega
  rw [Text.feedsBefore]
  conv_lhs => rw [← List.take_append_drop (lineAt t offset) t.feeds]
  rw [List.filter_append, List.filter_eq_self.mpr hBefore, List.filter_eq_nil_iff.mpr hAfter,
    List.append_nil]

theorem lineAt_eq_length (t : Text) (offset : Int) :
    lineAt t offset = (t.feedsBefore offset).length := by
  have hSize := (lineAt_spec t offset).1
  rw [size_lineStarts] at hSize
  rw [feedsBefore_eq_take, List.length_take]
  omega

/-- The line of an offset begins after the **last** line feed before it. -/
theorem getD_lineStarts_lineAt (t : Text) (offset : Int) :
    (Text.lineStarts t).getD (lineAt t offset) 0
      = (t.feedsBefore offset).getLast?.elim 0 (· + 1) := by
  have hSize := (lineAt_spec t offset).1
  rw [size_lineStarts] at hSize
  rw [feedsBefore_eq_take]
  cases hLine : lineAt t offset with
  | zero => simpa using getD_lineStarts_zero t
  | succ i =>
    have hi : i < t.feeds.length := by omega
    rw [getD_lineStarts_succ t hi, List.getLast?_take]
    simp [hi]

/-! ### The search stays in its bounds -/

end Place

/-- The search with a look-up that **may fail**: nothing if it fails on the way. -/
def lastLine? (reached? : Nat → Option Bool) (low high : Nat) : Option Nat :=
  if low < high then
    let middle := (low + high + 1) / 2
    match reached? middle with
    | none => none
    | some true => lastLine? reached? middle high
    | some false => lastLine? reached? low (middle - 1)
  else some low
termination_by high - low
decreasing_by all_goals omega

/-- Only numbers between the bounds are looked up. -/
theorem lastLine?_eq_some {reached? : Nat → Option Bool} {reached : Nat → Bool} {low high : Nat}
    (h : ∀ i, low < i → i ≤ high → reached? i = some (reached i)) :
    lastLine? reached? low high = some (lastLine reached low high) := by
  fun_induction lastLine reached low high with
  | case1 low high hlt middle hm ih =>
    have hMiddle := h middle (by omega) (by omega)
    rw [hm] at hMiddle
    rw [lastLine?, if_pos hlt]
    simp only [middle, hMiddle]
    exact ih fun i hi hih => h i (by omega) hih
  | case2 low high hlt middle hm ih =>
    have hMiddle := h middle (by omega) (by omega)
    rw [Bool.eq_false_iff.mpr hm] at hMiddle
    rw [lastLine?, if_pos hlt]
    simp only [middle, hMiddle]
    exact ih fun i hi hih => h i hi (by omega)
  | case3 low high hlt => rw [lastLine?, if_neg hlt]

namespace Place

/-- The place of an offset, or nothing if a line is looked up that **is not there**. -/
def ofOffset? (starts : Array Nat) (offset : Int) : Option Place := do
  let line ← lastLine? (fun i => starts[i]?.map fun start : Nat => (start : Int) ≤ offset) 0
    (starts.size - 1)
  let start ← starts[line]?
  return ⟨line + 1, offset - start⟩

theorem getElem?_lineStarts_lineAt (t : Text) (offset : Int) :
    (Text.lineStarts t)[lineAt t offset]?
      = some ((Text.lineStarts t).getD (lineAt t offset) 0) := by
  have hSize := (lineAt_spec t offset).1
  rw [Array.getD_eq_getD_getElem?, Array.getElem?_eq_getElem hSize, Option.getD_some]

theorem ofOffset?_lineStarts (t : Text) (offset : Int) :
    ofOffset? (Text.lineStarts t) offset = some (ofOffset (Text.lineStarts t) offset) := by
  have hSearch : lastLine? (fun i => (Text.lineStarts t)[i]?.map fun start : Nat =>
      decide ((start : Int) ≤ offset)) 0 ((Text.lineStarts t).size - 1)
        = some (lineAt t offset) := by
    refine lastLine?_eq_some fun i hi hiSize => ?_
    have hLt : i < (Text.lineStarts t).size := by omega
    rw [Array.getD_eq_getD_getElem?, Array.getElem?_eq_getElem hLt, Option.map_some,
      Option.getD_some]
  rw [ofOffset?, hSearch, Option.bind_eq_bind, Option.bind_some, getElem?_lineStarts_lineAt,
    ofOffset_eq]
  rfl

/-! ### Places in order -/

/-- Places are ordered by line and then by column. -/
instance : LT Place := ⟨fun p q => p.line < q.line ∨ p.line = q.line ∧ p.column < q.column⟩

theorem lt_def {p q : Place} :
    p < q ↔ p.line < q.line ∨ p.line = q.line ∧ p.column < q.column := Iff.rfl

instance (p q : Place) : Decidable (p < q) := inferInstanceAs (Decidable (_ ∨ _))

/-- A **greater** offset has a greater place. -/
theorem ofOffset_lt (t : Text) {o o' : Int} (h : o < o') :
    ofOffset (Text.lineStarts t) o < ofOffset (Text.lineStarts t) o' := by
  have hLine := lineAt_mono t (Int.le_of_lt h)
  rw [ofOffset_eq, ofOffset_eq, lt_def]
  rcases Nat.eq_or_lt_of_le hLine with hEq | hLt
  · right
    rw [hEq]
    exact ⟨rfl, by simp only; omega⟩
  · left
    simp only
    omega

/-- Line and column **lead back** to the offset. -/
theorem exists_start_add_column (t : Text) (offset : Int) :
    let p := ofOffset (Text.lineStarts t) offset
    ∃ start, (Text.lineStarts t)[(p.line - 1).toNat]? = some start ∧ start + p.column = offset := by
  refine ⟨(Text.lineStarts t).getD (lineAt t offset) 0, ?_, ?_⟩
  · have hIndex : ((lineAt t offset + 1 : Int) - 1).toNat = lineAt t offset := by omega
    rw [ofOffset_eq, hIndex, getElem?_lineStarts_lineAt]
  · rw [ofOffset_eq]
    simp only
    omega

theorem ofOffset_injective (t : Text) : Function.Injective (ofOffset (Text.lineStarts t)) := by
  intro o o' h
  obtain ⟨start, hStart, hOffset⟩ := exists_start_add_column t o
  obtain ⟨start', hStart', hOffset'⟩ := exists_start_add_column t o'
  rw [h] at hStart hOffset
  obtain rfl := Option.some.inj (hStart.symm.trans hStart')
  exact hOffset.symm.trans hOffset'

theorem column_nonneg (t : Text) {offset : Int} (h : 0 ≤ offset) :
    0 ≤ (ofOffset (Text.lineStarts t) offset).column := by
  rw [ofOffset_eq]
  simp only
  rcases (lineAt_spec t offset).2.1 with hFirst | hReached
  · rw [hFirst, getD_lineStarts_zero]
    omega
  · omega

/-- **Places are exact.**  For every text and every integer, the search looks up no line that is not
there.  The line of an offset is one more than the number of line feeds before it, and the column is
its distance from the beginning of the text or from what follows the last of these line feeds.  So
the beginning of the line and the column add up to the offset, different offsets have different
places, places come in the order of their offsets, and no offset from zero on has a negative
column. -/
theorem ofOffset_exact (t : Text) :
    (∀ offset : Int,
      let p := ofOffset (Text.lineStarts t) offset
      ofOffset? (Text.lineStarts t) offset = some p ∧
        p.line = 1 + (t.feedsBefore offset).length ∧
        p.column = offset - ((t.feedsBefore offset).getLast?.elim 0 (· + 1) : Nat) ∧
        (∃ start, (Text.lineStarts t)[(p.line - 1).toNat]? = some start ∧
          start + p.column = offset) ∧
        (0 ≤ offset → 0 ≤ p.column)) ∧
      Function.Injective (ofOffset (Text.lineStarts t)) ∧
      ∀ o o' : Int, o < o' → ofOffset (Text.lineStarts t) o < ofOffset (Text.lineStarts t) o' := by
  refine ⟨fun offset => ⟨ofOffset?_lineStarts t offset, ?_, ?_, exists_start_add_column t offset,
    column_nonneg t⟩, ofOffset_injective t, fun o o' => ofOffset_lt t⟩
  · rw [ofOffset_eq, lineAt_eq_length]
    exact Int.add_comm _ _
  · rw [ofOffset_eq, getD_lineStarts_lineAt]

/-- Between the two line feeds, at the end and beyond it. -/
theorem ofOffset_exact_blankLine :
    ofOffset (Text.lineStarts "a\n\nb") 2 = ⟨2, 0⟩ ∧
      ofOffset (Text.lineStarts "a\n\nb") 2 < ofOffset (Text.lineStarts "a\n\nb") 9 ∧
      0 ≤ (ofOffset (Text.lineStarts "a\n\nb") 9).column := by
  obtain ⟨hPlaces, -, hOrder⟩ := ofOffset_exact "a\n\nb"
  exact ⟨by decide +kernel, hOrder 2 9 (by decide), (hPlaces 9).2.2.2.2 (by decide)⟩

end Place

end ScriptLint
