import ScriptLint.Text.Encoding

/-!
# The code points of octets

* `length_charOffsets`: every octet of a text has a position, and so has the end of the text.
* `pairwise_charOffsets`: the positions come **in order**.
* `le_length_of_mem_charOffsets`: no position is beyond the end of the text.
-/

namespace ScriptLint

/-- A code point is the one with **its own number**. -/
theorem CodePoint.ofNat_val (c : CodePoint) : CodePoint.ofNat c.val = c := by
  rw [CodePoint.ofNat, dif_pos c.isLt]

namespace Text

theorem length_charOffsetsFrom (t : Text) : ∀ start : Nat,
    (charOffsetsFrom start t).length = (encode t).length + 1 := by
  induction t with
  | nil => intro start; rfl
  | cons c t ih =>
    intro start
    rw [charOffsetsFrom, List.length_append, List.length_replicate, ih, encode, encode,
      List.flatMap_cons, List.length_append, CodePoint.width]
    omega

theorem length_charOffsets (t : Text) : (charOffsets t).length = (encode t).length + 1 :=
  length_charOffsetsFrom t 0

theorem mem_charOffsetsFrom {t : Text} : ∀ {start : Nat}, ∀ i ∈ charOffsetsFrom start t,
    start ≤ i ∧ i ≤ start + t.length := by
  induction t with
  | nil =>
    intro start i hi
    rw [charOffsetsFrom, List.mem_singleton] at hi
    simp [hi]
  | cons c t ih =>
    intro start i hi
    rw [charOffsetsFrom, List.mem_append, List.mem_replicate] at hi
    rw [List.length_cons]
    rcases hi with ⟨_, rfl⟩ | hi
    · omega
    · have hBounds := ih i hi
      omega

theorem le_length_of_mem_charOffsets {t : Text} {i : Nat} (h : i ∈ charOffsets t) :
    i ≤ t.length := by
  have hBounds := mem_charOffsetsFrom i h
  omega

theorem pairwise_charOffsetsFrom (t : Text) : ∀ start : Nat,
    (charOffsetsFrom start t).Pairwise (· ≤ ·) := by
  induction t with
  | nil => intro start; exact .cons (by simp) .nil
  | cons c t ih =>
    intro start
    rw [charOffsetsFrom, List.pairwise_append]
    refine ⟨?_, ih _, fun i hi j hj => ?_⟩
    · exact List.pairwise_replicate.mpr (.inr (Nat.le_refl _))
    · have hBounds := mem_charOffsetsFrom j hj
      rw [(List.mem_replicate.mp hi).2]
      omega

/-- The positions of the octets come **in order**. -/
theorem pairwise_charOffsets (t : Text) : (charOffsets t).Pairwise (· ≤ ·) :=
  pairwise_charOffsetsFrom t 0

end Text
end ScriptLint
