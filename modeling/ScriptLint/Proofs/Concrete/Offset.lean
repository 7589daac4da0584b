import Mathlib.Data.List.Chain
import Mathlib.Order.Bounds.Basic
import ScriptLint.Proofs.Concrete.Source
import ScriptLint.Proofs.Text.Octets

/-!
# The code point of an octet

The code point of an octet is the last one that begins at the octet or before it.  A table has this
for all octets.  If every character of a text is an ASCII character the table would be the identity,
and it is not made: this is the case exactly when there are as many octets as code points, so it is
enough to compare two numbers.

* `Text.isChain_charOffsets`: from one octet to the next the code point stays or is the next one.
* `Text.length_encode_eq_iff`: only ASCII texts have as many octets as code points.
* `Text.Belongs.isGreatest`: an octet belongs to the last code point that has begun.
* `Source.offset_isGreatest`: with a table and without, the code point of an octet is that one.
-/

namespace ScriptLint

theorem CodePoint.width_eq_one_iff {c : CodePoint} : c.width = 1 ↔ c.val < 0x80 := by
  rw [CodePoint.width, CodePoint.encode]
  split
  · rename_i hAscii
    simp [hAscii]
  · rename_i hWide
    split
    · simp [hWide]
    · split <;> simp [hWide]

namespace Text

/-! ### Steps of the table -/

theorem head?_charOffsetsFrom (t : Text) (start : Nat) :
    (charOffsetsFrom start t).head? = some start := by
  cases t with
  | nil => rfl
  | cons c t =>
    have hWidth : c.width ≠ 0 := Nat.ne_of_gt (width_pos c)
    rw [charOffsetsFrom, List.head?_append, List.head?_replicate, if_neg hWidth, Option.some_or]

/-- What may follow an entry of the table: the same code point, or the next one. -/
def IsStep (i j : Nat) : Prop := j = i ∨ j = i + 1

theorem isChain_charOffsetsFrom (t : Text) : ∀ start : Nat,
    (charOffsetsFrom start t).IsChain IsStep := by
  induction t with
  | nil => intro start; exact .singleton start
  | cons c t ih =>
    intro start
    rw [charOffsetsFrom]
    refine .append (List.isChain_replicate_of_rel _ (.inl rfl)) (ih _) fun i hi j hj => ?_
    rw [head?_charOffsetsFrom, Option.mem_some_iff] at hj
    rw [List.eq_of_mem_replicate (List.mem_of_getLast? hi), ← hj]
    exact .inr rfl

/-- From one octet to the next the code point **stays or is the next one**. -/
theorem isChain_charOffsets (t : Text) : (charOffsets t).IsChain IsStep :=
  isChain_charOffsetsFrom t 0

/-! ### Texts without a table -/

/-- There are as many octets as code points if and only if **all code points are ASCII
characters**. -/
theorem length_encode_eq_iff {t : Text} :
    (encode t).length = t.length ↔ ∀ c ∈ t, c.val < 0x80 := by
  induction t with
  | nil => simp [encode]
  | cons c t ih =>
    have hEncode : (encode (c :: t)).length = c.width + (encode t).length := by
      rw [encode, List.flatMap_cons, List.length_append]
      rfl
    have hPos := width_pos c
    have hRest := length_le_length_encode t
    rw [List.forall_mem_cons, ← ih, ← CodePoint.width_eq_one_iff, hEncode, List.length_cons]
    omega

/-! ### The last code point that has begun -/

theorem boundary_mono {t : Text} {i j : Nat} (h : i ≤ j) : boundary t i ≤ boundary t j := by
  have hTake : t.take i = (t.take j).take i := by rw [List.take_take, Nat.min_eq_left h]
  rw [boundary, hTake]
  exact boundary_le_length (t.take j) i

/-- An octet belongs to the **last** code point that begins at the octet or before it. -/
theorem Belongs.isGreatest {t : Text} {octet i : Nat} (h : Belongs t octet i) :
    IsGreatest {k | k ≤ t.length ∧ (encode (t.take k)).length ≤ octet} i := by
  refine ⟨⟨h.bounded, h.first⟩, fun k ⟨hBounded, hFirst⟩ => Nat.le_of_not_lt fun hLt => ?_⟩
  have hNext : octet < boundary t (i + 1) := h.next (by omega)
  have hLater : boundary t (i + 1) ≤ boundary t k := boundary_mono hLt
  exact absurd (Nat.lt_of_lt_of_le hNext hLater) (Nat.not_lt.mpr hFirst)

end Text

namespace Concrete.Source

theorem offsets_eq_none_iff {t : Text} :
    (ofText t).offsets = none ↔ (Text.encode t).length = t.length := by
  simp [ofText]

/-- **The code point of an octet.**

* The table has an entry for each octet and one for the end of the text, and its entries go up in
  steps of zero or one.
* It is left out if there are as many octets as code points, which means that all code points are
  ASCII characters.
* For every octet of a text and for the end, with a table or without, the code point that is found
  is the last one such that the text before it takes no more octets; and a table has this, too. -/
theorem offset_isGreatest (t : Text) :
    (Text.charOffsets t).length = (Text.encode t).length + 1 ∧
    (Text.charOffsets t).IsChain Text.IsStep ∧
    ((ofText t).offsets = none ↔ (Text.encode t).length = t.length) ∧
    ((Text.encode t).length = t.length ↔ ∀ c ∈ t, c.val < 0x80) ∧
    ∀ octet ≤ (Text.encode t).length, ∃ k,
      IsGreatest {k | k ≤ t.length ∧ (Text.encode (t.take k)).length ≤ octet} k ∧
        (ofText t).offset octet = .ok k ∧ (Text.charOffsets t)[octet]? = some k := by
  refine ⟨Text.length_charOffsets t, Text.isChain_charOffsets t, offsets_eq_none_iff,
    Text.length_encode_eq_iff, fun octet hOctet => ?_⟩
  have hIn : octet < (Text.charOffsets t).length := by
    rw [Text.length_charOffsets]
    omega
  have hEntry := List.getElem?_eq_getElem hIn
  have hTable := (Text.belongs_of_charOffsets hEntry).isGreatest
  rcases offset_cases hOctet with ⟨hFast, hOk⟩ | ⟨_, -, hOk⟩
  · -- the octet itself belongs to the code point of its number, as does the entry of the table
    have hSelf := (Text.belongs_self hFast (hFast ▸ hOctet)).isGreatest
    exact ⟨octet, hSelf, hOk, hEntry.trans (congrArg some (hTable.unique hSelf))⟩
  · exact ⟨_, hTable, hOk, hEntry⟩

/-- Code points of one, two, three and four octets, with a surrogate among them. -/
def mixedText : Text := ("aé€" : Text) ++ ⟨0xDFFF, by decide⟩ :: ("𝄞" : Text)

/-- The octet 7 is the second of the surrogate, which is the code point 3. -/
theorem offset_isGreatest_mixedText :
    7 ≤ (Text.encode mixedText).length ∧
      IsGreatest {k | k ≤ mixedText.length ∧ (Text.encode (mixedText.take k)).length ≤ 7} 3 ∧
      (ofText mixedText).offset 7 = .ok 3 := by
  have hOctet : 7 ≤ (Text.encode mixedText).length := by decide +kernel
  obtain ⟨-, -, -, -, hAll⟩ := offset_isGreatest mixedText
  obtain ⟨k, hGreatest, hOk, hEntry⟩ := hAll 7 hOctet
  have hThree : (Text.charOffsets mixedText)[7]? = some 3 := by decide +kernel
  obtain rfl := Option.some.inj (hEntry.symm.trans hThree)
  exact ⟨hOctet, hGreatest, hOk⟩

end Concrete.Source

end ScriptLint
