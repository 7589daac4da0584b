import ScriptLint.Proofs.Text.Decoding

/-!
# Line feeds among octets

A line feed is one octet, and no other code point has this octet among its own.  So line feeds may
be counted in the octets of a text as well as in its code points, even up to an octet in the middle
of a code point.

* `Belongs`: an octet is one of a code point.
* `belongs_of_charOffsets`: the table of positions tells which.
* `Belongs.count_take`: up to an octet there are as many line feeds as up to its code point.
-/

namespace ScriptLint

namespace CodePoint

/-- A code point is **its only octet**, or none of its octets is an ASCII character. -/
theorem encode_cases (c : CodePoint) :
    c.encode = [c.val] ∨ 0x80 ≤ c.val ∧ ∀ octet ∈ c.encode, 0x80 ≤ octet := by
  rw [encode]
  split
  · exact .inl rfl
  · rename_i hAscii
    refine .inr ⟨by omega, fun octet h => ?_⟩
    split at h
    · simp only [List.mem_cons, List.not_mem_nil, or_false] at h
      omega
    split at h
    all_goals
      simp only [List.mem_cons, List.not_mem_nil, or_false] at h
      omega

theorem eq_lineFeed_iff {c : CodePoint} : c = ofChar '\n' ↔ c.val = 10 := by
  cases c
  exact mk.injEq _ _ _ _ ▸ Iff.rfl

theorem count_encode (c : CodePoint) :
    c.encode.count 10 = if c = ofChar '\n' then 1 else 0 := by
  simp only [eq_lineFeed_iff]
  rcases c.encode_cases with hOne | ⟨hValue, hMany⟩
  · rw [hOne, List.count_singleton]
    simp
  · rw [if_neg (by omega), List.count_eq_zero]
    exact fun h => absurd (hMany 10 h) (by decide)

/-- Before the last octet of a code point there is **no line feed**. -/
theorem count_take_encode {c : CodePoint} {k : Nat} (hk : k < c.width) :
    (c.encode.take k).count 10 = 0 := by
  rcases c.encode_cases with hOne | ⟨-, hMany⟩
  · rw [width, hOne, List.length_singleton, Nat.lt_one_iff] at hk
    rw [hk]
    rfl
  · rw [List.count_eq_zero]
    exact fun h => absurd (hMany 10 (List.mem_of_mem_take h)) (by decide)

end CodePoint

namespace Text

/-- The octet is one of the code point `i`, or it comes after all octets and `i` after all code
points. -/
structure Belongs (t : Text) (octet i : Nat) : Prop where
  bounded : i ≤ t.length
  first : boundary t i ≤ octet
  next : i < t.length → octet < boundary t (i + 1)

/-- The table has every octet under the code point that it **belongs to**. -/
theorem belongs_of_charOffsetsFrom (t : Text) : ∀ {start octet k : Nat},
    (charOffsetsFrom start t)[octet]? = some k → ∃ i, k = start + i ∧ Belongs t octet i := by
  induction t with
  | nil =>
    intro start octet k h
    rw [charOffsetsFrom, List.getElem?_singleton] at h
    split at h
    · cases h
      exact ⟨0, rfl, Nat.le_refl 0, Nat.zero_le _, fun h => absurd h (Nat.lt_irrefl 0)⟩
    · cases h
  | cons c t ih =>
    intro start octet k h
    rw [charOffsetsFrom] at h
    by_cases hFirst : octet < c.width
    · rw [List.getElem?_append_left (by simpa using hFirst),
        List.getElem?_replicate_of_lt hFirst] at h
      cases h
      refine ⟨0, rfl, Nat.zero_le _, Nat.zero_le _, fun _ => ?_⟩
      rw [boundary_cons_succ]
      omega
    · rw [List.getElem?_append_right (by simpa using hFirst), List.length_replicate] at h
      obtain ⟨i, rfl, hBounded, hBegin, hNext⟩ := ih h
      refine ⟨i + 1, by omega, Nat.succ_le_succ hBounded, ?_, fun hi => ?_⟩
      · rw [boundary_cons_succ]
        omega
      · rw [List.length_cons] at hi
        have hNext := hNext (by omega)
        rw [boundary_cons_succ]
        omega

theorem belongs_of_charOffsets {t : Text} {octet i : Nat} (h : (charOffsets t)[octet]? = some i) :
    Belongs t octet i := by
  obtain ⟨j, rfl, hBelongs⟩ := belongs_of_charOffsetsFrom t h
  rwa [Nat.zero_add]

/-- If a text has as many octets as code points, every octet belongs to the code point of its own
number. -/
theorem belongs_self {t : Text} {octet : Nat} (hLength : (encode t).length = t.length)
    (h : octet ≤ t.length) : Belongs t octet octet where
  bounded := h
  first := Nat.le_of_eq (boundary_eq_self h hLength)
  next := fun hLt => by
    rw [boundary_eq_self hLt hLength]
    exact Nat.lt_succ_self octet

/-- **Up to an octet** there are as many line feeds as up to its code point. -/
theorem Belongs.count_take {t : Text} : ∀ {octet i : Nat}, Belongs t octet i →
    ((encode t).take octet).count 10 = (t.take i).count (CodePoint.ofChar '\n') := by
  induction t with
  | nil =>
    intro octet i _
    simp [encode]
  | cons c t ih =>
    intro octet i h
    have hEncode : encode (c :: t) = c.encode ++ encode t := rfl
    cases i with
    | zero =>
      have hInside := h.next (Nat.zero_lt_succ _)
      rw [boundary_cons_succ, boundary_zero, Nat.add_zero] at hInside
      rw [hEncode, List.take_append_of_le_length (Nat.le_of_lt hInside),
        CodePoint.count_take_encode hInside]
      rfl
    | succ i =>
      have hAfter := h.first
      rw [boundary_cons_succ] at hAfter
      have hRest : Belongs t (octet - c.width) i := by
        refine ⟨Nat.le_of_succ_le_succ h.bounded, by omega, fun hi => ?_⟩
        have hNext := h.next (Nat.succ_lt_succ hi)
        rw [boundary_cons_succ] at hNext
        omega
      have hFull : c.encode.take octet = c.encode :=
        List.take_of_length_le (Nat.le_trans (Nat.le_add_right _ _) hAfter)
      rw [hEncode, List.take_append, hFull, List.count_append, CodePoint.count_encode,
        List.take_succ_cons, List.count_cons, ← ih hRest]
      simp only [beq_iff_eq, Nat.add_comm]
      rfl

end Text
end ScriptLint
