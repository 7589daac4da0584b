import ScriptLint.Proofs.Text.Encoding

/-!
# Octets and back

What is written in octets is read again, code point by code point.  A code point comes back as it
was, except for a surrogate: its octets are not well formed, and each of the three is replaced.  The
octets of a text are also where the table of positions says: the octets of its first `i` code points
end where the code point `i` begins.

* `CodePoint.shown`: what comes back for a code point.
* `begin_two`, `begin_three`, `begin_four`: what the first octet calls for, by the number of octets.
* `decodeFrom_encode`: one code point, in front of any other octets.
* `decode_encode`: a whole text.
* `boundary`: the octet at which a code point begins.  `getElem?_charOffsets_boundary` says that the
  table has it under the number of the code point.
-/

namespace ScriptLint

/-- What is read again for a code point: the code point, or three replacement characters for a
**surrogate**. -/
def CodePoint.shown (c : CodePoint) : Text :=
  if c.isSurrogate then [.replacement, .replacement, .replacement] else [c]

theorem CodePoint.shown_of_not_surrogate {c : CodePoint} (h : c.isSurrogate = false) :
    c.shown = [c] := by
  rw [shown, h]
  rfl

namespace Text

/-! ### The octets after the first -/

/-- An octet in range **goes on** with a sequence that needs more of them. -/
theorem decodeFrom_rest_succ {first last left value k : Nat} {octets : List Nat}
    (hFirst : first ≤ 0x80 + k) (hLast : 0x80 + k ≤ last) :
    decodeFrom (.rest first last (left + 1) value) ((0x80 + k) :: octets) =
      decodeFrom (.rest 0x80 0xBF left (value * 0x40 + k)) octets := by
  rw [decodeFrom, if_pos ⟨hFirst, hLast⟩, Nat.add_sub_cancel_left]

/-- The last octet of a sequence **completes** a code point. -/
theorem decodeFrom_rest_zero {first last value k : Nat} {octets : List Nat}
    (hFirst : first ≤ 0x80 + k) (hLast : 0x80 + k ≤ last) :
    decodeFrom (.rest first last 0 value) ((0x80 + k) :: octets) =
      .ofNat (value * 0x40 + k) :: decodeFrom .none octets := by
  rw [decodeFrom, if_pos ⟨hFirst, hLast⟩, Nat.add_sub_cancel_left]

/-- An octet that only continues a sequence is **replaced** where none has begun. -/
theorem decodeFrom_continuation {k : Nat} {octets : List Nat} (hk : k < 0x40) :
    decodeFrom .none ((0x80 + k) :: octets) = .replacement :: decodeFrom .none octets := by
  have hBegin : begin (0x80 + k) = (some .replacement, .none) := by
    rw [begin, if_neg (by omega), if_pos (by omega)]
  rw [decodeFrom, hBegin]
  rfl

/-- A sequence that is broken off by such an octet is replaced, and so is the octet. -/
theorem decodeFrom_broken {first last left value k : Nat} {octets : List Nat} (hk : k < 0x40)
    (hOut : ¬ (first ≤ 0x80 + k ∧ 0x80 + k ≤ last)) :
    decodeFrom (.rest first last left value) ((0x80 + k) :: octets) =
      .replacement :: .replacement :: decodeFrom .none octets := by
  have hSame : decodeFrom .none ((0x80 + k) :: octets) = .replacement :: decodeFrom .none octets :=
    decodeFrom_continuation hk
  rw [decodeFrom] at hSame
  rw [decodeFrom, if_neg hOut]
  exact congrArg _ hSame

/-! ### The first octet -/

theorem begin_one {a : Nat} (ha : a < 0x80) : begin a = (some (.ofNat a), .none) := by
  rw [begin, if_pos ha]

theorem begin_two {a : Nat} (hLow : 2 ≤ a) (hHigh : a < 0x20) :
    begin (0xC0 + a) = (none, .rest 0x80 0xBF 0 a) := by
  rw [begin, if_neg (by omega), if_neg (by omega), if_pos (by omega), Nat.add_sub_cancel_left]

/-- After the first of three octets the second is out of range for small numbers and for
surrogates. -/
theorem begin_three {a : Nat} (ha : a < 0x10) :
    ∃ first last, begin (0xE0 + a) = (none, .rest first last 1 a) ∧
      ∀ k < 0x40, (first ≤ 0x80 + k ∧ 0x80 + k ≤ last) ↔
        (a = 0 → 0x20 ≤ k) ∧ (a = 0xD → k < 0x20) := by
  rw [begin, if_neg (by omega), if_neg (by omega), if_neg (by omega)]
  by_cases hZero : a = 0
  · subst hZero
    exact ⟨0xA0, 0xBF, rfl, fun k hk => by omega⟩
  rw [if_neg (by omega)]
  by_cases hSurrogate : a = 0xD
  · subst hSurrogate
    exact ⟨0x80, 0x9F, rfl, fun k hk => by omega⟩
  rw [if_neg (by omega), if_pos (by omega), Nat.add_sub_cancel_left]
  exact ⟨0x80, 0xBF, rfl, fun k hk => by omega⟩

/-- After the first of four octets the second is out of range for small numbers and for numbers that
are too great. -/
theorem begin_four {a : Nat} (ha : a < 5) :
    ∃ first last, begin (0xF0 + a) = (none, .rest first last 2 a) ∧
      ∀ k < 0x40, (first ≤ 0x80 + k ∧ 0x80 + k ≤ last) ↔
        (a = 0 → 0x10 ≤ k) ∧ (a = 4 → k < 0x10) := by
  rw [begin, if_neg (by omega), if_neg (by omega), if_neg (by omega), if_neg (by omega),
    if_neg (by omega), if_neg (by omega)]
  by_cases hZero : a = 0
  · subst hZero
    exact ⟨0x90, 0xBF, rfl, fun k hk => by omega⟩
  rw [if_neg (by omega)]
  by_cases hLast : a = 4
  · subst hLast
    exact ⟨0x80, 0x8F, rfl, fun k hk => by omega⟩
  rw [if_pos (by omega), Nat.add_sub_cancel_left]
  exact ⟨0x80, 0xBF, rfl, fun k hk => by omega⟩

/-! ### One code point -/

/-- A code point of **three octets**: the second octet tells the surrogates. -/
theorem decodeFrom_three {c : CodePoint} (hLow : 0x800 ≤ c.val) (hHigh : c.val < 0x10000)
    (octets : List Nat) :
    decodeFrom .none ((0xE0 + c.val / 0x1000) :: (0x80 + c.val / 0x40 % 0x40) ::
      (0x80 + c.val % 0x40) :: octets) = c.shown ++ decodeFrom .none octets := by
  have hSecond : c.val / 0x40 % 0x40 < 0x40 := Nat.mod_lt _ (by decide)
  have hThird : c.val % 0x40 < 0x40 := Nat.mod_lt _ (by decide)
  obtain ⟨first, last, hBegin, hRange⟩ := begin_three (a := c.val / 0x1000) (by omega)
  rw [decodeFrom, hBegin]
  change decodeFrom (.rest first last 1 (c.val / 0x1000)) _ = _
  cases hSurrogate : c.isSurrogate with
  | true =>
    rw [CodePoint.isSurrogate, Bool.and_eq_true, decide_eq_true_eq, decide_eq_true_eq]
      at hSurrogate
    have hOut : ¬ (first ≤ 0x80 + c.val / 0x40 % 0x40 ∧ 0x80 + c.val / 0x40 % 0x40 ≤ last) := by
      rw [hRange _ hSecond]
      omega
    rw [decodeFrom_broken hSecond hOut, decodeFrom_continuation hThird, CodePoint.shown, if_pos]
    · rfl
    · rw [CodePoint.isSurrogate, Bool.and_eq_true, decide_eq_true_eq, decide_eq_true_eq]
      exact hSurrogate
  | false =>
    rw [CodePoint.shown_of_not_surrogate hSurrogate]
    rw [CodePoint.isSurrogate, Bool.and_eq_false_iff, decide_eq_false_iff_not,
      decide_eq_false_iff_not] at hSurrogate
    obtain ⟨hFirst, hLast⟩ := (hRange _ hSecond).mpr (by omega)
    rw [decodeFrom_rest_succ hFirst hLast, decodeFrom_rest_zero (by omega) (by omega)]
    have hValue : (c.val / 0x1000 * 0x40 + c.val / 0x40 % 0x40) * 0x40 + c.val % 0x40 = c.val := by
      omega
    rw [hValue, c.ofNat_val]
    rfl

/-- A code point of **four octets**. -/
theorem decodeFrom_four {c : CodePoint} (hLow : 0x10000 ≤ c.val) (octets : List Nat) :
    decodeFrom .none ((0xF0 + c.val / 0x40000) :: (0x80 + c.val / 0x1000 % 0x40) ::
      (0x80 + c.val / 0x40 % 0x40) :: (0x80 + c.val % 0x40) :: octets)
        = c :: decodeFrom .none octets := by
  have hBound := c.isLt
  have hSecond : c.val / 0x1000 % 0x40 < 0x40 := Nat.mod_lt _ (by decide)
  obtain ⟨first, last, hBegin, hRange⟩ := begin_four (a := c.val / 0x40000) (by omega)
  obtain ⟨hFirst, hLast⟩ := (hRange _ hSecond).mpr (by omega)
  rw [decodeFrom, hBegin]
  change decodeFrom (.rest first last 2 (c.val / 0x40000)) _ = _
  rw [decodeFrom_rest_succ hFirst hLast, decodeFrom_rest_succ (by omega) (by omega),
    decodeFrom_rest_zero (by omega) (by omega)]
  have hValue : ((c.val / 0x40000 * 0x40 + c.val / 0x1000 % 0x40) * 0x40 + c.val / 0x40 % 0x40)
      * 0x40 + c.val % 0x40 = c.val := by
    omega
  rw [hValue, c.ofNat_val]

/-- **One code point is read again**, whatever follows it. -/
theorem decodeFrom_encode (c : CodePoint) (octets : List Nat) :
    decodeFrom .none (c.encode ++ octets) = c.shown ++ decodeFrom .none octets := by
  have hPlain : c.val < 0x800 → c.shown = [c] := by
    intro hSmall
    apply CodePoint.shown_of_not_surrogate
    rw [CodePoint.isSurrogate, decide_eq_false (by omega), Bool.false_and]
  rw [CodePoint.encode]
  split
  · rename_i hOne
    rw [hPlain (by omega), List.singleton_append, decodeFrom, begin_one hOne, c.ofNat_val]
    rfl
  split
  · rename_i hOne hTwo
    rw [hPlain hTwo, List.cons_append, List.singleton_append, decodeFrom,
      begin_two (by omega) (by omega)]
    change decodeFrom (.rest 0x80 0xBF 0 (c.val / 0x40)) _ = _
    have hValue : c.val / 0x40 * 0x40 + c.val % 0x40 = c.val := by omega
    rw [decodeFrom_rest_zero (by omega) (by omega), hValue, c.ofNat_val]
    rfl
  split
  · rename_i hOne hTwo hThree
    exact decodeFrom_three (by omega) hThree octets
  · rename_i hOne hTwo hThree
    have hPlain : c.shown = [c] := by
      apply CodePoint.shown_of_not_surrogate
      rw [CodePoint.isSurrogate, decide_eq_false (p := c.val < 0xE000) (by omega), Bool.and_false]
    rw [hPlain]
    exact decodeFrom_four (by omega) octets

/-- **A text is read again** with its surrogates replaced. -/
theorem decode_encode (t : Text) : decode (encode t) = t.flatMap CodePoint.shown := by
  rw [decode]
  induction t with
  | nil => rfl
  | cons c t ih =>
    rw [encode, List.flatMap_cons, decodeFrom_encode, List.flatMap_cons]
    exact congrArg _ ih

-- each octet of a surrogate is replaced, and what follows is read as before
example : decode (encode [⟨0xD800, by decide⟩, ⟨0x1D11E, by decide⟩])
    = [.replacement, .replacement, .replacement, ⟨0x1D11E, by decide⟩] := by
  decide +kernel

theorem flatMap_shown_of_no_surrogate {t : Text} (h : ∀ c ∈ t, c.isSurrogate = false) :
    t.flatMap CodePoint.shown = t := by
  induction t with
  | nil => rfl
  | cons c t ih =>
    rw [List.forall_mem_cons] at h
    rw [List.flatMap_cons, CodePoint.shown_of_not_surrogate h.1, ih h.2]
    rfl

/-! ### Boundaries -/

theorem encode_append (t u : Text) : encode (t ++ u) = encode t ++ encode u :=
  List.flatMap_append

theorem encode_eq_append (t : Text) (i : Nat) :
    encode t = encode (t.take i) ++ encode (t.drop i) := by
  rw [← encode_append, List.take_append_drop]

theorem width_pos (c : CodePoint) : 0 < c.width := by
  rw [CodePoint.width, CodePoint.encode]
  split
  · exact Nat.zero_lt_one
  split
  · exact Nat.zero_lt_two
  split <;> simp

/-- The octet at which the code point `i` of a text begins. -/
def boundary (t : Text) (i : Nat) : Nat := (encode (t.take i)).length

theorem boundary_zero (t : Text) : boundary t 0 = 0 := rfl

theorem boundary_cons_succ (c : CodePoint) (t : Text) (i : Nat) :
    boundary (c :: t) (i + 1) = c.width + boundary t i := by
  rw [boundary, List.take_succ_cons, encode, List.flatMap_cons, List.length_append]
  rfl

theorem boundary_le_length (t : Text) (i : Nat) : boundary t i ≤ (encode t).length := by
  rw [encode_eq_append t i, List.length_append, boundary]
  exact Nat.le_add_right _ _

/-- The octets **between two boundaries** are the octets of the text between the code points. -/
theorem extract_boundary {t : Text} {i j : Nat} (hij : i ≤ j) :
    ((encode t).take (boundary t j)).drop (boundary t i) = encode ((t.take j).drop i) := by
  have hLast : (encode t).take (boundary t j) = encode (t.take j) := by
    rw [encode_eq_append t j, boundary, List.take_left]
  have hFirst : encode (t.take j) = encode (t.take i) ++ encode ((t.take j).drop i) := by
    have hTake : (t.take j).take i = t.take i := by rw [List.take_take, Nat.min_eq_left hij]
    rw [← hTake]
    exact encode_eq_append (t.take j) i
  rw [hLast, hFirst, boundary, List.drop_left]

/-- The table has every code point under the octet at which it **begins**. -/
theorem getElem?_charOffsetsFrom_boundary (t : Text) : ∀ start i : Nat, i ≤ t.length →
    (charOffsetsFrom start t)[boundary t i]? = some (start + i) := by
  induction t with
  | nil =>
    intro start i hi
    obtain rfl := Nat.le_zero.mp hi
    rfl
  | cons c t ih =>
    intro start i hi
    rw [charOffsetsFrom]
    cases i with
    | zero =>
      have hPos := width_pos c
      rw [List.getElem?_append_left]
      · exact List.getElem?_replicate_of_lt hPos
      · rw [List.length_replicate]
        exact hPos
    | succ i =>
      have hi : i ≤ t.length := Nat.le_of_succ_le_succ hi
      rw [boundary_cons_succ, List.getElem?_append_right (by simp), List.length_replicate,
        Nat.add_sub_cancel_left, ih (start + 1) i hi]
      congr 1
      omega

theorem getElem?_charOffsets_boundary {t : Text} {i : Nat} (hi : i ≤ t.length) :
    (charOffsets t)[boundary t i]? = some i := by
  rw [charOffsets, getElem?_charOffsetsFrom_boundary t 0 i hi, Nat.zero_add]

theorem length_le_length_encode (t : Text) : t.length ≤ (encode t).length := by
  induction t with
  | nil => exact Nat.le_refl _
  | cons c t ih =>
    have hPos := width_pos c
    rw [CodePoint.width] at hPos
    rw [encode] at ih ⊢
    rw [List.flatMap_cons, List.length_append, List.length_cons]
    omega

/-- If a text has as many octets as code points, every code point begins at the octet of its own
number. -/
theorem boundary_eq_self {t : Text} {i : Nat} (hi : i ≤ t.length)
    (hLength : (encode t).length = t.length) : boundary t i = i := by
  have hFirst := length_le_length_encode (t.take i)
  have hRest := length_le_length_encode (t.drop i)
  have hAll := congrArg List.length (encode_eq_append t i)
  rw [List.length_append] at hAll
  rw [List.length_take] at hFirst
  rw [List.length_drop] at hRest
  rw [boundary]
  omega

end Text
end ScriptLint
