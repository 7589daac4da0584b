import ScriptLint.Proofs.Json.Scalar

/-!
# A value is written on one line

Everything that is written is printable ASCII: what is not is escaped.

* `isPlain_write`: a written value consists of the code points from the space to the tilde.
-/

namespace ScriptLint.Json

/-- The code points from the space to the tilde. -/
def isPlain (c : CodePoint) : Bool := 0x20 ≤ c.val && c.val < 0x7F

theorem isPlain_of_isScalarPart {c : CodePoint} (h : isScalarPart c = true) : isPlain c = true := by
  simp only [isScalarPart, Bool.or_eq_true, Bool.and_eq_true, decide_eq_true_eq, beq_iff_eq] at h
  simp only [isPlain, Bool.and_eq_true, decide_eq_true_eq]
  omega

theorem exists_digitChar_of_mem_toDigits {base n : Nat} {c : Char} (hBase : 1 < base)
    (h : c ∈ Nat.toDigits base n) : ∃ d < base, c = Nat.digitChar d := by
  induction n using Nat.strong_induction_on with
  | _ n ih =>
    rw [Nat.toDigits_eq_if hBase] at h
    by_cases hn : n < base
    · rw [if_pos hn, List.mem_singleton] at h
      exact ⟨n, hn, h⟩
    · rw [if_neg hn, List.mem_append, List.mem_singleton] at h
      rcases h with h | h
      · exact ih (n / base) (Nat.div_lt_self (by omega) hBase) h
      · exact ⟨n % base, Nat.mod_lt n (by omega), h⟩

theorem isPlain_unicodeEscape (n : Nat) : ∀ c ∈ unicodeEscape n, isPlain c = true := by
  have hDigit : ∀ d < 16, isPlain (CodePoint.ofChar (Nat.digitChar d)) = true := by decide
  rw [unicodeEscape]
  simp only [List.forall_mem_append]
  refine ⟨⟨by decide, ?_⟩, ?_⟩
  · intro c hc
    rw [List.eq_of_mem_replicate hc]
    decide
  · rw [List.forall_mem_map]
    intro c hc
    obtain ⟨d, hd, rfl⟩ := exists_digitChar_of_mem_toDigits (by omega) hc
    exact hDigit d hd

theorem isPlain_quoteOne (c : CodePoint) : ∀ d ∈ quoteOne c, isPlain d = true := by
  rw [quoteOne]
  split
  · decide
  · decide
  · decide
  · decide
  · decide
  · decide
  · decide
  · split
    · rename_i hPlain
      rw [List.forall_mem_singleton, isPlain, Bool.and_eq_true, decide_eq_true_eq,
        decide_eq_true_eq]
      exact hPlain
    · split
      · exact isPlain_unicodeEscape _
      · rw [List.forall_mem_append]
        exact ⟨isPlain_unicodeEscape _, isPlain_unicodeEscape _⟩

theorem isPlain_quote (t : Text) : ∀ c ∈ quote t, isPlain c = true := by
  rw [quote]
  simp only [List.cons_append, List.forall_mem_cons, List.forall_mem_append, List.forall_mem_flatMap]
  exact ⟨by decide, fun c _ => isPlain_quoteOne c, by decide⟩

mutual

/-- A value is written in **printable ASCII**. -/
theorem isPlain_write : ∀ (j : Json), ∀ c ∈ write j, isPlain c = true
  | .null => by decide
  | .bool true => by decide
  | .bool false => by decide
  | .int n => by
    rw [write]
    exact fun c hc => isPlain_of_isScalarPart (isScalarPart_ofInt hc)
  | .float x => by
    rw [write]
    exact fun c hc => isPlain_of_isScalarPart (isScalarPart_writeFloat x c hc)
  | .str t => by
    rw [write]
    exact isPlain_quote t
  | .arr items => by
    rw [write]
    simp only [List.cons_append, List.forall_mem_cons, List.forall_mem_append]
    exact ⟨by decide, isPlain_writeItems items, by decide⟩
  | .obj entries => by
    rw [write]
    simp only [List.cons_append, List.forall_mem_cons, List.forall_mem_append]
    exact ⟨by decide, isPlain_writeEntries entries, by decide⟩

theorem isPlain_writeItems : ∀ (items : List Json), ∀ c ∈ writeItems items, isPlain c = true
  | [] => by decide
  | [j] => by
    rw [writeItems]
    exact isPlain_write j
  | j :: next :: items => by
    rw [writeItems]
    simp only [List.forall_mem_append]
    exact ⟨⟨isPlain_write j, by decide⟩, isPlain_writeItems (next :: items)⟩

theorem isPlain_writeEntries : ∀ (entries : Entries), ∀ c ∈ writeEntries entries, isPlain c = true
  | [] => by decide
  | [e] => by
    rw [writeEntries]
    simp only [List.forall_mem_append]
    exact ⟨⟨isPlain_quote e.1, by decide⟩, isPlain_write e.2⟩
  | e :: next :: entries => by
    rw [writeEntries]
    simp only [List.forall_mem_append]
    exact ⟨⟨⟨⟨isPlain_quote e.1, by decide⟩, isPlain_write e.2⟩, by decide⟩,
      isPlain_writeEntries (next :: entries)⟩

end

end ScriptLint.Json
