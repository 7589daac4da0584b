import Mathlib.Order.Bounds.Basic
import ScriptLint.Proofs.Containment.Helper

/-!
# The enclosing function, without an order of search

The search for the function around an offset reads the text before the offset from left to right,
takes the last header, and counts braces from there.  What it finds can be said without any order:
the function begins at the greatest place at which a header stands; its block begins at the least
place from there on that has an opening brace; and the block ends at the least place behind this
brace up to which the braces balance.

* `isGreatest_headerPlaces_iff`: the last header found is the one at the greatest place.
* `blockEnd?_eq_some_iff`: a block ends where the text between its braces is balanced.
* `EndsAt`: where a block ends, by least places; `endsAt_blockEnd?`: the count finds this place.
* `Encloses`: which function is around an offset; `encloses_iff`: the search finds this function.
* `enclosingFunctionAt_encloses`: all of it, for every source and every offset.
-/

namespace ScriptLint.Containment

/-! ### The last header -/

/-- The places of a text at which a header stands. -/
def headerPlaces (t : Text) : Set Nat := {k | HeaderAt none t k}

theorem HeaderAt.lt_length {previous : Option CodePoint} {t : Text} {k : Nat}
    (hAt : HeaderAt previous t k) : k < t.length := by
  obtain ⟨a, h, rest, rfl, rfl, -⟩ := hAt
  have hText := h.length_text
  rw [List.length_append, List.length_append]
  omega

/-- **Headers do not overlap**: a header that stands behind the beginning of another one stands
behind its end. -/
theorem Header.length_le_of_lt {h : Header} {before rest : Text} {k : Nat}
    (hAt : k ∈ headerPlaces (before ++ (h.text ++ rest))) (hk : before.length < k) :
    before.length + h.text.length ≤ k := by
  obtain ⟨j, rfl⟩ := Nat.exists_eq_add_of_le (Nat.le_of_lt hk)
  have hLength := Header.length_le (headerAt_append_iff.mp hAt) (by omega)
  omega

theorem isGreatest_headerPlaces_iff {t : Text} {s : Nat} :
    IsGreatest (headerPlaces t) s ↔ (headers t).getLast? = some s := by
  constructor
  · intro h
    exact getLast?_headers h.1 fun j hj => h.2 hj
  · intro h
    exact ⟨mem_headers_iff.mp (List.mem_of_getLast? h), fun k hk => le_of_getLast?_headers h hk⟩

theorem headerPlaces_eq_empty_iff {t : Text} :
    headerPlaces t = ∅ ↔ (headers t).getLast? = none := by
  rw [List.getLast?_eq_none_iff, List.eq_nil_iff_forall_not_mem, Set.eq_empty_iff_forall_notMem]
  simp only [mem_headers_iff]
  rfl

/-! ### The first block -/

/-- The places from `s` on that have an opening brace. -/
def openings (t : Text) (s : Nat) : Set Nat := {q | s ≤ q ∧ t[q]? = some openingBrace}

theorem mem_openings_iff {t : Text} {s i : Nat} :
    s + i ∈ openings t s ↔ (t.drop s)[i]? = some openingBrace := by
  rw [List.getElem?_drop]
  exact and_iff_right (Nat.le_add_right s i)

/-- Where no opening brace is before it, an opening brace is at the **least** place. -/
theorem isLeast_openings {t a b : Text} {s : Nat} (hText : t.drop s = a ++ openingBrace :: b)
    (ha : openingBrace ∉ a) : IsLeast (openings t s) (s + a.length) := by
  constructor
  · rw [mem_openings_iff, hText, List.getElem?_append_right (Nat.le_refl _), Nat.sub_self]
    rfl
  · intro k hk
    obtain ⟨i, rfl⟩ := Nat.exists_eq_add_of_le hk.1
    rw [mem_openings_iff, hText] at hk
    by_contra hLt
    rw [List.getElem?_append_left (by omega)] at hk
    exact ha (List.mem_of_getElem? hk)

theorem openings_eq_empty {t : Text} {s : Nat} (h : openingBrace ∉ t.drop s) :
    openings t s = ∅ := by
  rw [Set.eq_empty_iff_forall_notMem]
  intro k hk
  obtain ⟨i, rfl⟩ := Nat.exists_eq_add_of_le hk.1
  exact h (List.mem_of_getElem? (mem_openings_iff.mp hk))

/-! ### The end of a block -/

/-- **A block ends** where the text between its braces is balanced. -/
theorem blockEnd?_eq_some_iff {i e : Nat} {t : Text} :
    blockEnd? i 1 t = some e ↔ ∃ inside after, t = inside ++ closingBrace :: after ∧
      Balanced openingBrace closingBrace inside ∧ e = i + inside.length := by
  constructor
  · intro h
    obtain ⟨hFrom, hIn⟩ := blockEnd?_bounds h
    obtain ⟨k, rfl⟩ := Nat.exists_eq_add_of_le hFrom
    obtain ⟨inside, c, after, rfl, rfl⟩ : ∃ inside c after,
        t = inside ++ c :: after ∧ inside.length = k := by
      refine ⟨t.take k, t[k], t.drop (k + 1), ?_, List.length_take_of_le (by omega)⟩
      rw [← List.drop_eq_getElem_cons, List.take_append_drop]
    -- the block is open before the place, so it is closed by what stands there
    have hOpen : blockEnd? i (0 + 1) inside = none := by
      cases hFirst : blockEnd? i (0 + 1) inside with
      | none => rfl
      | some e =>
        have hBounds := blockEnd?_bounds hFirst
        rw [blockEnd?_append, hFirst, Option.some_or, Option.some.injEq] at h
        omega
    rw [blockEnd?_append, hOpen, Option.none_or, blockEnd?_cons] at h
    split at h
    · rename_i hEnd
      have hDepth : depthAfter (0 + 1) inside = 1 := hEnd.2
      have hCount := depthAfter_add_count hOpen
      refine ⟨inside, after, by rw [hEnd.1], ⟨fun u hu => ?_, by omega⟩, rfl⟩
      have hBelow := blockEnd?_eq_none_iff.mp hOpen u hu
      omega
    · have hBounds := blockEnd?_bounds h
      omega
  · rintro ⟨inside, after, rfl, hInside, rfl⟩
    exact hInside.blockEnd?_closing i after

/-- The part of a text from one place up to another, both included. -/
def between (t : Text) (q e : Nat) : Text := (t.take (e + 1)).drop q

/-- The places behind `q` up to which the braces from `q` on **balance**. -/
def evenPlaces (t : Text) (q : Nat) : Set Nat :=
  {e | q < e ∧ e < t.length ∧
    List.count closingBrace (between t q e) = List.count openingBrace (between t q e)}

section Block

variable {t b inside after : Text} {q : Nat}

theorem between_add (hText : t.drop q = openingBrace :: b) (n : Nat) :
    between t q (q + n) = openingBrace :: b.take n := by
  have hLength : q + n + 1 - q = n + 1 := by omega
  rw [between, List.drop_take, hText, hLength, List.take_succ_cons]

/-- The braces balance where one more is closed than opened behind the first brace. -/
theorem add_mem_evenPlaces_iff (hText : t.drop q = openingBrace :: b) {n : Nat} :
    q + n ∈ evenPlaces t q ↔ 0 < n ∧ n ≤ b.length ∧
      List.count closingBrace (b.take n) = List.count openingBrace (b.take n) + 1 := by
  have hLength := congrArg List.length hText
  rw [List.length_drop, List.length_cons] at hLength
  have hCount : List.count closingBrace (between t q (q + n))
      = List.count closingBrace (b.take n) := by
    rw [between_add hText, List.count_cons_of_ne openingBrace_ne_closingBrace]
  rw [evenPlaces, Set.mem_ofPred_eq, hCount, between_add hText, List.count_cons_self]
  omega

/-- With its opening brace, balanced text **stays open**. -/
theorem Balanced.staysOpen (h : Balanced openingBrace closingBrace inside) :
    StaysOpen (openingBrace :: inside) := by
  intro u hu hNil
  rcases List.prefix_cons_iff.mp hu with rfl | ⟨w, rfl, hw⟩
  · exact absurd rfl hNil
  · have hBelow := h.never_below w hw
    rw [List.count_cons_self, List.count_cons_of_ne openingBrace_ne_closingBrace]
    omega

theorem take_inside (inside after : Text) :
    (inside ++ closingBrace :: after).take (inside.length + 1) = inside ++ [closingBrace] := by
  rw [List.take_length_add_append]
  rfl

/-- A block with a balanced inside ends at the **least** place up to which the braces balance. -/
theorem Balanced.isLeast_evenPlaces (h : Balanced openingBrace closingBrace inside)
    (hText : t.drop q = openingBrace :: (inside ++ closingBrace :: after)) :
    IsLeast (evenPlaces t q) (q + (inside.length + 1)) := by
  have hEven := h.even
  constructor
  · have hNe : openingBrace ∉ [closingBrace] := by decide
    rw [add_mem_evenPlaces_iff hText, take_inside, List.count_append, List.count_append,
      List.count_singleton_self, List.count_eq_zero.mpr hNe, List.length_append, List.length_cons]
    omega
  · intro k hk
    obtain ⟨n, rfl⟩ := Nat.exists_eq_add_of_le (Nat.le_of_lt hk.1)
    rw [add_mem_evenPlaces_iff hText] at hk
    by_contra hLt
    -- up to there only the inside is read, and it never closes more than it opens
    rw [List.take_append_of_le_length (by omega)] at hk
    have hBelow := h.never_below _ (List.take_prefix n inside)
    omega

theorem evenPlaces_eq_empty (hText : t.drop q = openingBrace :: b) {i : Nat}
    (hOpen : blockEnd? i 1 b = none) : evenPlaces t q = ∅ := by
  rw [Set.eq_empty_iff_forall_notMem]
  intro k hk
  obtain ⟨n, rfl⟩ := Nat.exists_eq_add_of_le (Nat.le_of_lt hk.1)
  rw [add_mem_evenPlaces_iff hText] at hk
  have hStays : blockEnd? i (0 + 1) b = none := hOpen
  have hBelow := blockEnd?_eq_none_iff.mp hStays _ (List.take_prefix n b)
  omega

end Block

/-- **Where the first block ends** that begins at `s` or behind it: nowhere if no brace opens or if
the braces never balance, and else at the least place up to which they balance. -/
inductive EndsAt (t : Text) (s : Nat) : Option Nat → Prop
  | unopened (hNone : openings t s = ∅) : EndsAt t s none
  | unclosed {q : Nat} (hq : IsLeast (openings t s) q) (hNone : evenPlaces t q = ∅) :
      EndsAt t s none
  | closed {q e : Nat} (hq : IsLeast (openings t s) q) (he : IsLeast (evenPlaces t q) e) :
      EndsAt t s (some e)

theorem endsAt_blockEnd? (t : Text) (s : Nat) : EndsAt t s (blockEnd? s 0 (t.drop s)) := by
  by_cases hIn : openingBrace ∈ t.drop s
  · obtain ⟨a, b, hText, ha⟩ := List.eq_append_cons_of_mem hIn
    have hq := isLeast_openings hText ha
    have hBlock : t.drop (s + a.length) = openingBrace :: b := by
      rw [← List.drop_drop, hText, List.drop_left]
    have hDepth : depthStep 0 openingBrace = 1 := if_pos rfl
    rw [hText, blockEnd?_skip _ ha, blockEnd?_cons, if_neg (fun hc => by cases hc.2), hDepth]
    cases hEnd : blockEnd? (s + a.length + 1) 1 b with
    | none => exact .unclosed hq (evenPlaces_eq_empty hBlock hEnd)
    | some e =>
      obtain ⟨inside, after, rfl, hInside, rfl⟩ := blockEnd?_eq_some_iff.mp hEnd
      have he := hInside.isLeast_evenPlaces hBlock
      rw [Nat.add_comm inside.length, ← Nat.add_assoc] at he
      exact .closed hq he
  · have hSkip := blockEnd?_skip [] hIn s
    rw [List.append_nil] at hSkip
    rw [hSkip]
    exact .unopened (openings_eq_empty hIn)

theorem EndsAt.eq_some {t : Text} {s q e : Nat} {stop : Option Nat} (h : EndsAt t s stop)
    (hq : IsLeast (openings t s) q) (he : IsLeast (evenPlaces t q) e) : stop = some e := by
  cases h with
  | unopened hNone => exact absurd hq.1 (hNone ▸ Set.notMem_empty q)
  | unclosed hq' hNone =>
    obtain rfl := hq.unique hq'
    exact absurd he.1 (hNone ▸ Set.notMem_empty e)
  | closed hq' he' =>
    obtain rfl := hq.unique hq'
    rw [he.unique he']

theorem EndsAt.unique {t : Text} {s : Nat} : ∀ {stop stop' : Option Nat}, EndsAt t s stop →
    EndsAt t s stop' → stop = stop'
  | none, none, _, _ => rfl
  | none, some _, h, .closed hq he => h.eq_some hq he
  | some _, _, .closed hq he, h' => (h'.eq_some hq he).symm

/-- What is found at the end of a block is a closing brace, and up to there the block **stays
open**. -/
theorem stays_open_of_isLeast {t : Text} {s q e : Nat} (hq : IsLeast (openings t s) q)
    (he : IsLeast (evenPlaces t q) e) :
    t[e]? = some closingBrace ∧ ∀ u, u <+: between t q e → u ≠ [] → u ≠ between t q e →
      List.count closingBrace u < List.count openingBrace u := by
  obtain ⟨hLt, hHere⟩ := List.getElem?_eq_some_iff.mp hq.1.2
  have hText : t.drop q = openingBrace :: t.drop (q + 1) := by
    rw [List.drop_eq_getElem_cons hLt, hHere]
  generalize t.drop (q + 1) = b at hText
  cases hEnd : blockEnd? (q + 1) 1 b with
  | none => exact absurd he.1 (evenPlaces_eq_empty hText hEnd ▸ Set.notMem_empty e)
  | some _ =>
    obtain ⟨inside, after, rfl, hInside, -⟩ := blockEnd?_eq_some_iff.mp hEnd
    obtain rfl := he.unique (hInside.isLeast_evenPlaces hText)
    have hBlock : between t q (q + (inside.length + 1))
        = (openingBrace :: inside) ++ [closingBrace] := by
      rw [between_add hText, take_inside, List.cons_append]
    constructor
    · rw [← List.getElem?_drop, hText, List.getElem?_cons_succ, List.getElem?_append_right
        (Nat.le_refl _), Nat.sub_self]
      rfl
    · intro u hu hNil hProper
      rw [hBlock] at hu hProper
      rcases List.prefix_concat_iff.mp hu with hAll | hu
      · exact absurd hAll hProper
      · exact hInside.staysOpen u hu hNil

/-! ### The function around an offset -/

/-- The text that is searched for headers: what is before an offset.  Before an offset that is
negative there is nothing. -/
def searched (source : Text) (offset : Int) : Text := source.take offset.toNat

/-- **The function around an offset**, said without an order of search.  It is the one with the
greatest place among the headers of a text, unless the offset is not before the end of its block. -/
inductive Encloses (source headed : Text) (offset : Int) : Option (Nat × Option Nat) → Prop
  | nowhere (hNone : headerPlaces headed = ∅) : Encloses source headed offset none
  | around {s : Nat} {stop : Option Nat} (hs : IsGreatest (headerPlaces headed) s)
      (hStop : EndsAt source s stop) (hBefore : ∀ e ∈ stop, offset < e) :
      Encloses source headed offset (some (s, stop))
  | behind {s e : Nat} (hs : IsGreatest (headerPlaces headed) s)
      (hStop : EndsAt source s (some e)) (hBehind : e ≤ offset) : Encloses source headed offset none

section Enclosing

variable {source headed : Text} {offset : Int} {s : Nat} {stop : Option Nat}
  {result : Option (Nat × Option Nat)}

theorem encloses_of_empty_iff (h : headerPlaces headed = ∅) :
    Encloses source headed offset result ↔ result = none := by
  constructor
  · intro hResult
    cases hResult with
    | nowhere _ => rfl
    | around hs _ _ => exact absurd hs.1 (h ▸ Set.notMem_empty _)
    | behind _ _ _ => rfl
  · rintro rfl
    exact .nowhere h

theorem encloses_of_isGreatest_iff (hs : IsGreatest (headerPlaces headed) s)
    (hStop : EndsAt source s stop) :
    Encloses source headed offset result ↔
      result = if ∀ e ∈ stop, offset < (e : Int) then some (s, stop) else none := by
  constructor
  · intro hResult
    cases hResult with
    | nowhere hNone => exact absurd hs.1 (hNone ▸ Set.notMem_empty s)
    | around hs' hStop' hBefore =>
      obtain rfl := hs.unique hs'
      obtain rfl := hStop.unique hStop'
      rw [if_pos hBefore]
    | behind hs' hStop' hBehind =>
      obtain rfl := hs.unique hs'
      obtain rfl := hStop.unique hStop'
      rw [if_neg]
      intro hBefore
      exact absurd (hBefore _ rfl) (Int.not_lt.mpr hBehind)
  · rintro rfl
    split
    · rename_i hBefore
      exact .around hs hStop hBefore
    · rename_i hNot
      push Not at hNot
      obtain ⟨e, he, hBehind⟩ := hNot
      rw [Option.mem_def.mp he] at hStop
      exact .behind hs hStop hBehind

theorem lt_of_mem_headerPlaces (h : s ∈ headerPlaces (searched source offset)) :
    (s : Int) < offset := by
  have hLength := HeaderAt.lt_length h
  rw [searched, List.length_take] at hLength
  omega

/-- The search finds **the function around the offset**. -/
theorem encloses_iff :
    Encloses source (searched source offset) offset result ↔
      result = enclosingFunction? source offset := by
  cases hLast : (headers (searched source offset)).getLast? with
  | none =>
    have hNothing : enclosingFunction? source offset = none := by
      rw [searched] at hLast
      rw [enclosingFunction?, hLast]
    rw [encloses_of_empty_iff (headerPlaces_eq_empty_iff.mpr hLast), hNothing]
  | some s =>
    have hs := isGreatest_headerPlaces_iff.mpr hLast
    have hLt := lt_of_mem_headerPlaces hs.1
    rw [encloses_of_isGreatest_iff hs (endsAt_blockEnd? source s)]
    obtain ⟨n, rfl⟩ := Int.eq_ofNat_of_zero_le (show 0 ≤ offset by omega)
    have hStart : (headers (source.take n)).getLast? = some s := hLast
    rw [enclosingFunction?_of_last hStart]
    simp only [Int.ofNat_lt.mp hLt, true_and, Int.ofNat_lt]

end Enclosing

/-- **The enclosing function has an order-free meaning.**  Let the offset fit into 64 bits.

* The search gives an answer, and it is the only one with this meaning: no function if no header
  stands in the text before the offset; else the function at the greatest place at which one stands,
  with the least place up to which the braces from its first opening brace on balance, provided that
  the offset is before this place or that there is no such place.
* The search for headers misses none, since headers do not overlap.
* The block ends with a closing brace, and before that it has more opening than closing braces.

An offset that does not fit into 64 bits is refused. -/
theorem enclosingFunctionAt_encloses (source : Text) (offset : Int) :
    (-(twoTo 63 : Int) ≤ offset ∧ offset < (twoTo 63 : Int) →
      ∃ result, enclosingFunctionAt source (.int offset) = .ok result ∧
        ∀ other, Encloses source (searched source offset) offset other ↔ other = result) ∧
    (¬ (-(twoTo 63 : Int) ≤ offset ∧ offset < (twoTo 63 : Int)) →
      enclosingFunctionAt source (.int offset) = .error .overflow) ∧
    (∀ k, k ∈ headers (searched source offset) ↔ k ∈ headerPlaces (searched source offset)) ∧
    (∀ (before : Text) (h : Header) (rest : Text),
      searched source offset = before ++ (h.text ++ rest) →
        ∀ k ∈ headerPlaces (searched source offset), before.length < k →
          before.length + h.text.length ≤ k) ∧
    ∀ s q e, IsLeast (openings source s) q → IsLeast (evenPlaces source q) e →
      source[e]? = some closingBrace ∧
        ∀ u, u <+: between source q e → u ≠ [] → u ≠ between source q e →
          List.count closingBrace u < List.count openingBrace u := by
  refine ⟨fun hFits => ⟨enclosingFunction? source offset, ?_, fun other => encloses_iff⟩,
    fun hLarge => ?_, fun k => mem_headers_iff, ?_, fun s q e => stays_open_of_isLeast⟩
  · unfold enclosingFunctionAt
    simp only [Json.number?, if_pos hFits]
  · unfold enclosingFunctionAt
    simp only [Json.number?, if_neg hLarge]
  · intro before h rest hText k hk hLt
    rw [hText] at hk
    exact Header.length_le_of_lt hk hLt

/-- A function that is called like the word that begins it: `} function function (a) { { } b } }`. -/
def functionFunction : Text := "\x7d function function (a) \x7b \x7b \x7d b \x7d \x7d"

/-- The block of the function has another one in it and ends before the last brace. -/
theorem enclosingFunctionAt_encloses_functionFunction :
    enclosingFunctionAt functionFunction (.int 30) = .ok (some (2, some 32)) ∧
      Encloses functionFunction (searched functionFunction 30) 30 (some (2, some 32)) ∧
      ∃ q, IsLeast (openings functionFunction 2) q ∧ IsLeast (evenPlaces functionFunction q) 32 ∧
        functionFunction[32]? = some closingBrace := by
  obtain ⟨hFits, -, -, -, hEnds⟩ := enclosingFunctionAt_encloses functionFunction 30
  obtain ⟨result, hResult, hMeaning⟩ := hFits (by decide)
  have hValue : enclosingFunctionAt functionFunction (.int 30) = .ok (some (2, some 32)) := by
    decide +kernel
  obtain rfl := Except.ok.inj (hValue.symm.trans hResult)
  have hEncloses := (hMeaning _).mpr rfl
  refine ⟨hValue, hEncloses, ?_⟩
  cases hEncloses with
  | around _ hStop _ =>
    cases hStop with
    | closed hq he => exact ⟨_, hq, he, (hEnds 2 _ 32 hq he).1⟩

/-- A function with a blank behind it: `function f() { x } `. -/
def trailingBlank : Text := "function f() \x7b x \x7d "

/-- An offset that is negative is **not counted from the end**, as it would be in a slice: in the
text before the last blank a header stands, but the search finds nothing.  And an offset that does
not fit into 64 bits is refused, although it lies behind the function. -/
theorem encloses_slice_trailingBlank :
    (∀ result, Encloses trailingBlank (Text.before trailingBlank (-1)) (-1) result ↔
      result = some (0, some 17)) ∧
      enclosingFunctionAt trailingBlank (.int (-1)) = .ok none ∧
      (∀ result, Encloses trailingBlank (Text.before trailingBlank (twoTo 63)) (twoTo 63) result ↔
        result = none) ∧
      enclosingFunctionAt trailingBlank (.int (twoTo 63)) = .error .overflow := by
  have hEnd : blockEnd? 0 0 (trailingBlank.drop 0) = some 17 := by decide +kernel
  have hStop : EndsAt trailingBlank 0 (some 17) := hEnd ▸ endsAt_blockEnd? trailingBlank 0
  have hHeader : ∀ offset ∈ ([-1, (twoTo 63 : Int)] : List Int),
      (headers (Text.before trailingBlank offset)).getLast? = some 0 := by decide +kernel
  refine ⟨fun result => ?_, by decide +kernel, fun result => ?_, by decide +kernel⟩
  · have hs := isGreatest_headerPlaces_iff.mpr (hHeader (-1) (by simp))
    rw [encloses_of_isGreatest_iff hs hStop, if_pos (by simp)]
  · have hs := isGreatest_headerPlaces_iff.mpr (hHeader (twoTo 63) (by simp))
    rw [encloses_of_isGreatest_iff hs hStop, if_neg (by decide)]

end ScriptLint.Containment
