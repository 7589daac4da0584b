import ScriptLint.Proofs.Containment.Textual

/-!
# The end of a block

The search for the brace that closes a block keeps one number, the blocks that are open.  It can be
cut anywhere: what has been read leaves a depth behind, and the search goes on with this depth in
what is left.  So whether a block is closed by a place is decided by the text up to that place, and
with it the whole search for loops is decided by the text before the node.

* `depthAfter`: the depth that a text leaves behind.
* `blockEnd?_append`: a block ends in the first part of a text, or in the second.
* `blockEnd?_eq_none_iff`: a block stays open as long as no beginning of the text closes more than
  is open.
* `lt_blockEnd?_iff`: a block is open at a place if it does not end in the text up to that place.
* `textualAt_eq_of_agree`: two sources that agree before a node give the same answer for it.
-/

namespace ScriptLint.Containment

/-! ### Depth -/

/-- The number of open blocks after one code point.  A closing brace without a block does not
count. -/
def depthStep (depth : Nat) (c : CodePoint) : Nat :=
  if c = openingBrace then depth + 1 else if c = closingBrace then depth - 1 else depth

/-- The number of open blocks that a text **leaves behind**. -/
def depthAfter (depth : Nat) (t : Text) : Nat := t.foldl depthStep depth

theorem openingBrace_ne_closingBrace : openingBrace ≠ closingBrace := by decide

/-- **One step of the search**: the last open block is closed here, or the search goes on. -/
theorem blockEnd?_cons (i depth : Nat) (c : CodePoint) (t : Text) :
    blockEnd? i depth (c :: t) =
      if c = closingBrace ∧ depth = 1 then some i else blockEnd? (i + 1) (depthStep depth c) t := by
  rw [blockEnd?.eq_def]
  by_cases hOpening : c = openingBrace
  · have hClosing : c ≠ closingBrace := hOpening ▸ openingBrace_ne_closingBrace
    simp only [depthStep, hOpening, if_true, openingBrace_ne_closingBrace, false_and, if_false]
  · by_cases hClosing : c = closingBrace
    · match depth with
      | 0 => simp [depthStep, hClosing, openingBrace_ne_closingBrace.symm]
      | 1 => simp [hClosing, openingBrace_ne_closingBrace.symm]
      | depth + 2 => simp [depthStep, hClosing, openingBrace_ne_closingBrace.symm]
    · simp only [depthStep, hOpening, hClosing, if_false, false_and]

/-- A block ends in the **first part** of a text, or in the second. -/
theorem blockEnd?_append (t u : Text) : ∀ i depth : Nat,
    blockEnd? i depth (t ++ u) =
      (blockEnd? i depth t).or (blockEnd? (i + t.length) (depthAfter depth t) u) := by
  induction t with
  | nil => intro i depth; rfl
  | cons c t ih =>
    intro i depth
    rw [List.cons_append, blockEnd?_cons, blockEnd?_cons]
    by_cases hEnd : c = closingBrace ∧ depth = 1
    · rw [if_pos hEnd, if_pos hEnd, Option.some_or]
    · have hLength : i + 1 + t.length = i + (c :: t).length := by
        rw [List.length_cons]
        omega
      rw [if_neg hEnd, if_neg hEnd, ih, hLength]
      rfl

/-- The brace that closes a block is in the text. -/
theorem blockEnd?_bounds {t : Text} : ∀ {i depth e : Nat},
    blockEnd? i depth t = some e → i ≤ e ∧ e < i + t.length := by
  induction t with
  | nil => intro i depth e h; cases h
  | cons c t ih =>
    intro i depth e h
    rw [blockEnd?_cons] at h
    rw [List.length_cons]
    split at h
    · cases h
      omega
    · have hBounds := ih h
      omega

/-- Text without an opening brace is **passed over** by a search that has found no block yet. -/
theorem blockEnd?_skip {t : Text} (u : Text) (h : openingBrace ∉ t) : ∀ i : Nat,
    blockEnd? i 0 (t ++ u) = blockEnd? (i + t.length) 0 u := by
  induction t with
  | nil => intro i; rfl
  | cons c t ih =>
    intro i
    rw [List.mem_cons, not_or] at h
    have hStep : depthStep 0 c = 0 := by
      unfold depthStep
      rw [if_neg (Ne.symm h.1)]
      split <;> rfl
    have hLength : i + 1 + t.length = i + (c :: t).length := by
      rw [List.length_cons]
      omega
    rw [List.cons_append, blockEnd?_cons, if_neg (fun hEnd => by cases hEnd.2), hStep, ih h.2,
      hLength]

theorem count_cons_eq (x c : CodePoint) (t : Text) :
    List.count x (c :: t) = List.count x [c] + List.count x t := by
  rw [← List.singleton_append, List.count_append]

/-- A step that does not close the last block moves the depth by the brace that it reads. -/
theorem exists_depthStep {c : CodePoint} {depth : Nat} (h : ¬ (c = closingBrace ∧ depth + 1 = 1)) :
    ∃ next, depthStep (depth + 1) c = next + 1 ∧
      next + List.count closingBrace [c] = depth + List.count openingBrace [c] := by
  unfold depthStep
  by_cases hOpening : c = openingBrace
  · refine ⟨depth + 1, if_pos hOpening, ?_⟩
    simp [hOpening, openingBrace_ne_closingBrace]
  · by_cases hClosing : c = closingBrace
    · have hDepth : depth ≠ 0 := fun hZero => h ⟨hClosing, by omega⟩
      refine ⟨depth - 1, ?_, ?_⟩
      · rw [if_neg hOpening, if_pos hClosing]
        omega
      · simp only [hClosing, List.count_singleton_self,
          List.count_singleton, beq_iff_eq, openingBrace_ne_closingBrace.symm, if_false]
        omega
    · refine ⟨depth, by rw [if_neg hOpening, if_neg hClosing], ?_⟩
      simp [hOpening, hClosing]

/-- A block **stays open** as long as no beginning of the text closes more than is open. -/
theorem blockEnd?_eq_none_iff {t : Text} : ∀ {i depth : Nat},
    blockEnd? i (depth + 1) t = none ↔
      ∀ u, u <+: t → List.count closingBrace u ≤ depth + List.count openingBrace u := by
  induction t with
  | nil =>
    intro i depth
    simp [blockEnd?]
  | cons c t ih =>
    intro i depth
    rw [blockEnd?_cons]
    by_cases hEnd : c = closingBrace ∧ depth + 1 = 1
    · rw [if_pos hEnd]
      constructor
      · intro h
        cases h
      · intro h
        have hFirst := h [c] ⟨t, rfl⟩
        rw [hEnd.1, List.count_singleton_self, List.count_eq_zero.mpr] at hFirst
        · omega
        · simpa using openingBrace_ne_closingBrace
    · obtain ⟨next, hNext, hCount⟩ := exists_depthStep hEnd
      rw [if_neg hEnd, hNext, ih]
      constructor
      · intro h u hu
        rcases List.prefix_cons_iff.mp hu with rfl | ⟨v, rfl, hv⟩
        · exact Nat.zero_le _
        · have hRest := h v hv
          rw [count_cons_eq, count_cons_eq openingBrace]
          omega
      · intro h u hu
        have hAll := h (c :: u) (List.cons_prefix_cons.mpr ⟨rfl, hu⟩)
        rw [count_cons_eq, count_cons_eq openingBrace] at hAll
        omega

/-- The depth behind a text in which a block stays open is the number of braces that are left. -/
theorem depthAfter_add_count {t : Text} : ∀ {i depth : Nat},
    blockEnd? i (depth + 1) t = none →
      depthAfter (depth + 1) t + List.count closingBrace t
        = depth + 1 + List.count openingBrace t := by
  induction t with
  | nil => intro i depth _; rfl
  | cons c t ih =>
    intro i depth h
    rw [blockEnd?_cons] at h
    split at h
    · cases h
    · rename_i hEnd
      obtain ⟨next, hNext, hCount⟩ := exists_depthStep hEnd
      rw [hNext] at h
      have hStep : depthAfter (depth + 1) (c :: t) = depthAfter (next + 1) t :=
        congrArg (depthAfter · t) hNext
      have hRest := ih h
      rw [hStep, count_cons_eq, count_cons_eq openingBrace]
      omega

/-! ### The text before a node -/

/-- The rest of a text from a place, cut at a later place. -/
theorem drop_eq_append {i m : Nat} (h : i ≤ m) (t : Text) :
    t.drop i = (t.take m).drop i ++ t.drop m := by
  have hDrop : t.drop m = (t.drop i).drop (m - i) := by
    rw [List.drop_drop, Nat.add_sub_cancel' h]
  rw [List.drop_take, hDrop, List.take_append_drop]

/-- A block that begins at `i` is open at the place `n` if and only if it **does not end** in the
text up to this place, the place itself included. -/
theorem lt_blockEnd?_iff {i n : Nat} (h : i ≤ n) (t : Text) :
    (∀ e ∈ blockEnd? i 0 (t.drop i), n < e) ↔
      blockEnd? i 0 ((t.take (n + 1)).drop i) = none := by
  rw [drop_eq_append (Nat.le_succ_of_le h) t, blockEnd?_append]
  cases hFirst : blockEnd? i 0 ((t.take (n + 1)).drop i) with
  | some e =>
    have hBounds := blockEnd?_bounds hFirst
    rw [List.length_drop, List.length_take] at hBounds
    simp only [Option.some_or, Option.mem_some_iff, forall_eq', reduceCtorEq, iff_false]
    omega
  | none =>
    simp only [Option.none_or, iff_true]
    intro e he
    have hBounds := blockEnd?_bounds he
    -- something is left only if the text goes on beyond `n`
    rw [List.length_drop, List.length_drop, List.length_take] at hBounds
    omega

/-- The function that begins last before an offset is **around** the offset if its block does not
end up to there. -/
theorem enclosingFunction?_of_last {source : Text} {n start : Nat}
    (h : (headers (source.take n)).getLast? = some start) :
    enclosingFunction? source n =
      if start < n ∧ ∀ e ∈ blockEnd? start 0 (source.drop start), n < e then
        some (start, blockEnd? start 0 (source.drop start))
      else none := by
  unfold enclosingFunction?
  rw [Int.toNat_natCast, h]
  cases hEnd : blockEnd? start 0 (source.drop start) with
  | none => simp [hEnd]
  | some e => simp [hEnd]

theorem take_eq_of_le {s t : Text} {m n : Nat} (h : s.take n = t.take n) (hm : m ≤ n) :
    s.take m = t.take m := by
  have hCut := congrArg (List.take m) h
  rwa [List.take_take, List.take_take, Nat.min_eq_left hm] at hCut

/-- Where the function around an offset begins depends only on the text up to the offset. -/
theorem enclosingFunction?_start_eq {source other : Text} {offset : Int}
    (h : source.take (offset + 1).toNat = other.take (offset + 1).toNat) :
    (enclosingFunction? source offset).map (·.1) = (enclosingFunction? other offset).map (·.1) := by
  have hBefore := take_eq_of_le h (show offset.toNat ≤ (offset + 1).toNat by omega)
  rcases Int.le_total 0 offset with hPos | hNeg
  · obtain ⟨n, rfl⟩ := Int.eq_ofNat_of_zero_le hPos
    have hUpTo : source.take (n + 1) = other.take (n + 1) := h
    rw [Int.toNat_natCast] at hBefore
    cases hLast : (headers (source.take n)).getLast? with
    | none =>
      have hOther := hLast
      rw [hBefore] at hOther
      unfold enclosingFunction?
      simp only [Int.toNat_natCast, hLast, hOther]
    | some start =>
      have hOther := hLast
      rw [hBefore] at hOther
      rw [enclosingFunction?_of_last hLast, enclosingFunction?_of_last hOther]
      by_cases hStart : start < n
      · simp only [lt_blockEnd?_iff (Nat.le_of_lt hStart), hUpTo]
        split <;> rfl
      · simp only [hStart, false_and, if_false]
  · -- nothing begins before an offset that is not positive
    have hNothing : ∀ t : Text, enclosingFunction? t offset = none := by
      intro t
      unfold enclosingFunction?
      rw [Int.toNat_of_nonpos hNeg, List.take_zero, headers, headersFrom]
      rfl
    rw [hNothing, hNothing]

/-- Where the search is decided: by the text before the offset, and by the place where the function
around it begins. -/
theorem textual_eq_of_agree {source other : Text} {offset : Int} {helpers : Bool}
    (h : source.take offset.toNat = other.take offset.toNat)
    (hStart : helpers = true →
      (enclosingFunction? source offset).map (·.1) = (enclosingFunction? other offset).map (·.1)) :
    textual source offset helpers = textual other offset helpers := by
  unfold textual
  by_cases hPos : offset ≤ 0
  · rw [if_pos hPos, if_pos hPos]
  · rw [if_neg hPos, if_neg hPos, before_of_pos (by omega), before_of_pos (by omega), h]
    cases helpers with
    | false => rfl
    | true => simp only [hStart rfl]

theorem textualAt_int_congr {source other : Text} {offset : Int} {helpers : Bool}
    (h : textual source offset helpers = textual other offset helpers) :
    textualAt source (.int offset) helpers = textualAt other (.int offset) helpers := by
  unfold textualAt
  simp only [Json.number?, h]

/-- **The search depends on the text before the node.**  Let two sources agree up to an offset.

* Without boundaries the search gives the same answer for both at the offset.
* If they agree on one code point more, then it gives the same answer with boundaries as well: the
  function around the offset begins at the same place in both.  Where this function ends is not
  compared, since that may depend on all that follows. -/
theorem textualAt_eq_of_agree (source other : Text) (offset : Int) :
    (source.take offset.toNat = other.take offset.toNat →
      textualAt source (.int offset) false = textualAt other (.int offset) false) ∧
    (source.take (offset + 1).toNat = other.take (offset + 1).toNat →
      textualAt source (.int offset) true = textualAt other (.int offset) true ∧
      (enclosingFunction? source offset).map (·.1)
        = (enclosingFunction? other offset).map (·.1)) := by
  constructor
  · intro h
    exact textualAt_int_congr (textual_eq_of_agree h (fun hHelpers => by cases hHelpers))
  · intro h
    have hStart := enclosingFunction?_start_eq h
    have hBefore := take_eq_of_le h (show offset.toNat ≤ (offset + 1).toNat by omega)
    exact ⟨textualAt_int_congr (textual_eq_of_agree hBefore fun _ => hStart), hStart⟩

/-- A helper in a loop, up to a place in its body: `for (;;) { function f() { x`. -/
def openHelper : Text := "for (;;) \x7b function f() \x7b x"

theorem textualAt_eq_of_agree_openHelper :
    textualAt (openHelper ++ ("; \x7d" : Text)) (.int 26) true
        = textualAt (openHelper ++ (" \x7d\x7d" : Text)) (.int 26) true ∧
      enclosingFunction? (openHelper ++ ("; \x7d" : Text)) 26 = some (11, some 29) ∧
      enclosingFunction? (openHelper ++ (" \x7d\x7d" : Text)) 26 = some (11, some 28) := by
  have hAgree : (openHelper ++ ("; \x7d" : Text)).take (26 + 1 : Int).toNat
      = (openHelper ++ (" \x7d\x7d" : Text)).take (26 + 1 : Int).toNat := by decide +kernel
  refine ⟨((textualAt_eq_of_agree _ _ 26).2 hAgree).1, ?_, ?_⟩ <;> decide +kernel

-- with boundaries the code point at the offset counts: it may be the brace that closes the function
example :
    textualAt (openHelper ++ ("\x7d" : Text)) (.int 27) true = .ok true ∧
      textualAt (openHelper ++ (";" : Text)) (.int 27) true = .ok false := by
  decide +kernel

end ScriptLint.Containment
