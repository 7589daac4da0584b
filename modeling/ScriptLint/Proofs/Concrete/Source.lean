import ScriptLint.Concrete.Source
import ScriptLint.Proofs.Text.Decoding
import ScriptLint.Proofs.Text.Lines
import ScriptLint.Text.Search

/-!
# Octets and code points of a source

Whether a source keeps a table or not, the code points of its octets come in order.

* `Source.position`: the code point of an octet.
* `offset_ofText`, `spanOf_ofText`: octets of the source have a code point, and so have concrete
  nodes a span.
* `position_le_length`, `position_mono`: no code point is beyond the end, and a later octet has a
  later code point.
* `Aligned`: a concrete node goes from one code point to another.  `Aligned.textOf` says what its
  text is then.
-/

namespace ScriptLint.Concrete.Source

/-- The code point that an octet of a text belongs to. -/
def position (t : Text) (octet : Nat) : Nat := ((ofText t).offset octet).toOption.getD 0

/-- The span from one code point to another. -/
def spanBetween (t : Text) (i j : Nat) : Ast.Span :=
  ⟨.int i, .int j, markOf (Text.lineStarts t) i, markOf (Text.lineStarts t) j⟩

variable {t : Text}

/-- The two ways to find the code point of an octet: the octet itself, or a table. -/
theorem offset_cases {octet : Nat} (h : octet ≤ (Text.encode t).length) :
    ((Text.encode t).length = t.length ∧ (ofText t).offset octet = .ok octet) ∨
      ∃ hlt : octet < (Text.charOffsets t).length,
        (Text.encode t).length ≠ t.length ∧
          (ofText t).offset octet = .ok (Text.charOffsets t)[octet] := by
  have hlt : octet < (Text.charOffsets t).length := by
    rw [Text.length_charOffsets]
    omega
  by_cases hFast : (Text.encode t).length = t.length
  · refine .inl ⟨hFast, ?_⟩
    simp [offset, ofText, hFast]
  · refine .inr ⟨hlt, hFast, ?_⟩
    simp [offset, ofText, hFast, hlt]

theorem offset_ofText {octet : Nat} (h : octet ≤ (Text.encode t).length) :
    (ofText t).offset octet = .ok (position t octet) := by
  rw [position]
  rcases offset_cases h with ⟨_, hOk⟩ | ⟨_, _, hOk⟩ <;> rw [hOk] <;> rfl

theorem position_eq {octet i : Nat} (h : (ofText t).offset octet = .ok i) :
    position t octet = i := by
  rw [position, h]
  rfl

theorem position_le_length {octet : Nat} (h : octet ≤ (Text.encode t).length) :
    position t octet ≤ t.length := by
  rcases offset_cases h with ⟨hFast, hOk⟩ | ⟨hlt, _, hOk⟩
  · rw [position_eq hOk]
    omega
  · rw [position_eq hOk]
    exact Text.le_length_of_mem_charOffsets (List.getElem_mem hlt)

/-- A later octet has a **later** code point. -/
theorem position_mono {a b : Nat} (hab : a ≤ b) (hb : b ≤ (Text.encode t).length) :
    position t a ≤ position t b := by
  rcases offset_cases (Nat.le_trans hab hb) with ⟨hFast, ha⟩ | ⟨hlt, hSlow, ha⟩ <;>
    rcases offset_cases hb with ⟨hFast', hb⟩ | ⟨hlt', hSlow', hb⟩
  · rw [position_eq ha, position_eq hb]
    exact hab
  · contradiction
  · contradiction
  · rw [position_eq ha, position_eq hb]
    rcases Nat.eq_or_lt_of_le hab with rfl | hab
    · exact Nat.le_refl _
    · exact List.pairwise_iff_getElem.mp (Text.pairwise_charOffsets t) a b hlt hlt' hab

theorem spanOf_ofText {u : Tree} (hStart : u.start ≤ (Text.encode t).length)
    (hStop : u.stop ≤ (Text.encode t).length) :
    (ofText t).spanOf u = .ok (spanBetween t (position t u.start) (position t u.stop)) := by
  rw [spanOf, offset_ofText hStart, offset_ofText hStop]
  rfl

/-! ### Text between code points -/

/-- The concrete node begins with the code point `i` of the text and ends **before** the code point
`j`. -/
structure Aligned (t : Text) (u : Tree) (i j : Nat) : Prop where
  start : u.start = Text.boundary t i
  stop : u.stop = Text.boundary t j
  ordered : i ≤ j
  bounded : j ≤ t.length

/-- Where a code point begins, its own number is found, with or without a table. -/
theorem position_boundary {i : Nat} (hi : i ≤ t.length) : position t (Text.boundary t i) = i := by
  rcases offset_cases (Text.boundary_le_length t i) with ⟨hFast, hOk⟩ | ⟨hlt, -, hOk⟩
  · rw [position_eq hOk, Text.boundary_eq_self hi hFast]
  · have hFound := Text.getElem?_charOffsets_boundary hi
    rw [List.getElem?_eq_getElem hlt, Option.some.injEq] at hFound
    rw [position_eq hOk, hFound]

theorem slice_eq_drop {i j : Nat} (hij : i ≤ j) (hj : j ≤ t.length) :
    Text.slice t i j = (t.take j).drop i := by
  have hBound : ∀ k : Nat, k ≤ t.length → Text.bound t.length k = k := by
    intro k hk
    rw [Text.bound, if_neg (by omega), Int.toNat_natCast, Nat.min_eq_left hk]
  rw [Text.slice, hBound i (Nat.le_trans hij hj), hBound j hj]

namespace Aligned

variable {u : Tree} {i j : Nat}

theorem position_start (h : Aligned t u i j) : position t u.start = i := by
  rw [h.start, position_boundary (Nat.le_trans h.ordered h.bounded)]

theorem position_stop (h : Aligned t u i j) : position t u.stop = j := by
  rw [h.stop, position_boundary h.bounded]

/-- The text of a concrete node is **the text between its code points**, with the surrogates
replaced. -/
theorem textOf (h : Aligned t u i j) :
    (ofText t).textOf u = (Text.slice t i j).flatMap CodePoint.shown := by
  have hOctets : ((ofText t).octets.extract u.start u.stop).toList
      = Text.encode ((t.take j).drop i) := by
    rw [← Text.extract_boundary h.ordered, h.start, h.stop, List.drop_take]
    simp [ofText]
  rw [Source.textOf, hOctets, Text.decode_encode, slice_eq_drop h.ordered h.bounded]

/-- Without surrogates it is that text **as it stands**. -/
theorem textOf_of_no_surrogate (h : Aligned t u i j) (ht : ∀ c ∈ t, c.isSurrogate = false) :
    (ofText t).textOf u = Text.slice t i j := by
  rw [h.textOf]
  apply Text.flatMap_shown_of_no_surrogate
  intro c hc
  rw [slice_eq_drop h.ordered h.bounded] at hc
  exact ht c (List.mem_of_mem_take (List.mem_of_mem_drop hc))

end Aligned

end ScriptLint.Concrete.Source
