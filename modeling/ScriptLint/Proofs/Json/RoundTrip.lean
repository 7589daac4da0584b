import ScriptLint.Proofs.Json.Quoted
import ScriptLint.Proofs.Json.Scalar
import ScriptLint.Proofs.Outcome

/-!
# Values read back

A value is written without anything that has to be guessed when it is read, so it reads back.  Four
things may be in the way: an integer with too many digits, a binary number whose numeral does not
read back, a text with two surrogates that would be taken for a pair, and an object with a repeated
name.

* `Readable`: nothing of that sort is in the value.
* `ReadsBack`: the written value is read up to its end, whatever stands after it.  There is one
  lemma for each sort of values, and `Readable.readsBack` puts them together.
* `read_write`: a readable value reads back.
-/

namespace ScriptLint.Json

mutual

/-- Will the written value be read as the same value? -/
def Readable : Json → Prop
  | .int n => n.natAbs < tenTo Numeral.maxDigits
  | .float x => read (write (.float x)) = .ok (.float x)
  | .str t => t.Unpaired
  | .arr items => ReadableItems items
  | .obj entries => (entries.map (·.1)).Nodup ∧ ReadableEntries entries
  | _ => True

def ReadableItems : List Json → Prop
  | [] => True
  | j :: rest => Readable j ∧ ReadableItems rest

def ReadableEntries : List (Text × Json) → Prop
  | [] => True
  | e :: rest => e.1.Unpaired ∧ Readable e.2 ∧ ReadableEntries rest

end

/-! ### Scalars -/

theorem readValue_scalar {t : Text} (hne : t ≠ []) (h : ∀ c ∈ t.head?, isScalarPart c = true)
    (fuel : Nat) : readValue (fuel + 1) t = readScalar t := by
  cases t with
  | nil => exact absurd rfl hne
  | cons c t =>
    have hc : isScalarPart c = true := h c rfl
    simp only [isScalarPart, Bool.or_eq_true, Bool.and_eq_true, decide_eq_true_eq, beq_iff_eq] at hc
    rw [readValue, if_neg (by omega), if_neg (by omega), if_neg (by omega)]

theorem skip_eq_self {t : Text} (h : ∀ c ∈ t.head?, isGap c = false) : skip t = t := by
  cases t with
  | nil => rfl
  | cons c t => exact List.dropWhile_cons_of_neg (by rw [h c rfl]; decide)

theorem isGap_of_isScalarPart {c : CodePoint} (h : isScalarPart c = true) : isGap c = false := by
  simp only [isScalarPart, Bool.or_eq_true, Bool.and_eq_true, decide_eq_true_eq, beq_iff_eq] at h
  simp only [isGap, Bool.or_eq_false_iff, beq_eq_false_iff_ne]
  omega

/-- A binary number that reads back as a whole text does so as a scalar. -/
theorem readScalar_writeFloat {x : Binary64} (h : read (write (.float x)) = .ok (.float x)) :
    readScalar (writeFloat x) = .ok (.float x, []) := by
  have hPart := isScalarPart_writeFloat x
  have hGap : ∀ t : Text, t <:+ writeFloat x → skip t = t :=
    fun t ht => skip_eq_self fun c hc =>
      isGap_of_isScalarPart (hPart c (ht.subset (List.mem_of_mem_head? hc)))
  rw [write, read, hGap _ List.suffix_rfl] at h
  obtain ⟨⟨j, rest⟩, hValue, h⟩ := Outcome.bind_eq_ok.mp h
  have hne : writeFloat x ≠ [] := by
    intro hEmpty
    rw [hEmpty, readValue] at hValue
    cases hValue
  rw [readValue_scalar hne fun c hc => hPart c (List.mem_of_mem_head? hc)] at hValue
  simp only [hGap rest (readScalar_suffix hValue)] at h
  split at h
  · rename_i hEmpty
    cases h
    rw [hValue, List.isEmpty_iff.mp hEmpty]
  · cases h

/-! ### Values -/

/-- A value that is read **up to its end**, whatever stands after it. -/
structure ReadsBack (j : Json) : Prop where
  begins : ∃ c t, write j = c :: t ∧ isGap c = false ∧ c.val ≠ 0x5D
  reads : ∀ {fuel : Nat} {rest : Text}, 2 * (write j).length ≤ fuel → Ends rest →
    readValue fuel (write j ++ rest) = .ok (j, rest)

theorem readsBack_scalar {j : Json} (hRead : readScalar (write j) = .ok (j, []))
    (hPart : ∀ c ∈ write j, isScalarPart c = true) : ReadsBack j := by
  cases hText : write j with
  | nil =>
    rw [hText] at hRead
    cases hRead
  | cons c t =>
    have hc := hPart c (by rw [hText]; exact List.mem_cons_self)
    refine ⟨⟨c, t, hText, isGap_of_isScalarPart hc, ?_⟩, fun {fuel rest} hFuel hRest => ?_⟩
    · simp only [isScalarPart, Bool.or_eq_true, Bool.and_eq_true, decide_eq_true_eq,
        beq_iff_eq] at hc
      omega
    · rw [hText] at hFuel
      obtain ⟨k, rfl⟩ : ∃ k, fuel = k + 1 := ⟨fuel - 1, by rw [List.length_cons] at hFuel; omega⟩
      rw [readValue_scalar (by simp [hText]) (by rw [hText]; rintro _ ⟨⟩; exact hc),
        readScalar_append hRest (by simp [hText]), hRead]
      rfl

theorem readsBack_str {t : Text} (h : t.Unpaired) : ReadsBack (.str t) := by
  refine ⟨⟨_, _, by rw [write, quote]; rfl, by decide, by decide⟩, fun {fuel rest} hFuel _ => ?_⟩
  obtain ⟨body, hBody, hRead⟩ := readQuoted_quote h rest
  rw [write] at hFuel ⊢
  have hLength : 0 < (quote t).length := by
    rw [quote]
    simp
  obtain ⟨k, rfl⟩ : ∃ k, fuel = k + 1 := ⟨fuel - 1, by omega⟩
  rw [hBody, readValue, if_pos (by decide), hRead]
  rfl

theorem head_writeItems {j : Json} (h : ReadsBack j) (items : List Json) (rest : Text) :
    ∃ c t, writeItems (j :: items) ++ rest = c :: t ∧ isGap c = false ∧ c.val ≠ 0x5D := by
  obtain ⟨c, t, hText, hGap, hClose⟩ := h.begins
  cases items with
  | nil => exact ⟨c, t ++ rest, by rw [writeItems, hText]; rfl, hGap, hClose⟩
  | cons next items =>
    rw [writeItems, hText]
    exact ⟨c, _, rfl, hGap, hClose⟩

/-- The gap after a comma or a colon. -/
theorem skip_space {c : CodePoint} {t : Text} (h : isGap c = false) :
    skip (CodePoint.ofChar ' ' :: c :: t) = c :: t := by
  show skip (c :: t) = c :: t
  exact skip_eq_self (by rintro _ ⟨⟩; exact h)

theorem readItems_writeItems (rest : Text) : ∀ (items : List Json), items ≠ [] →
    (∀ j ∈ items, ReadsBack j) → ∀ fuel, 2 * (writeItems items).length + 1 ≤ fuel →
    readItems fuel (writeItems items ++ CodePoint.ofChar ']' :: rest) = .ok (items, rest) := by
  intro items
  induction items with
  | nil => exact fun h => absurd rfl h
  | cons j items ih =>
    intro _ hItems fuel hFuel
    obtain ⟨k, rfl⟩ : ∃ k, fuel = k + 1 := ⟨fuel - 1, by omega⟩
    have hj := hItems j List.mem_cons_self
    cases items with
    | nil =>
      rw [writeItems] at hFuel ⊢
      rw [readItems, hj.reads (by omega) (by rintro c ⟨⟩; decide)]
      rfl
    | cons next items =>
      obtain ⟨c, t, hText, hGap, -⟩ := head_writeItems
        (hItems next (List.mem_cons_of_mem _ List.mem_cons_self)) items
        (CodePoint.ofChar ']' :: rest)
      have hComma : (Text.ofString ", ").length = 2 := by decide
      rw [writeItems] at hFuel ⊢
      simp only [List.length_append, hComma] at hFuel
      have hLater := ih (by simp) (fun i hi => hItems i (List.mem_cons_of_mem _ hi)) k (by omega)
      rw [List.append_assoc, List.append_assoc, readItems,
        hj.reads (by omega) (by rintro c ⟨⟩; decide)]
      show (readItems k (skip (CodePoint.ofChar ' ' :: (writeItems (next :: items)
        ++ CodePoint.ofChar ']' :: rest))) >>= fun p => .ok (j :: p.1, p.2)) = _
      rw [hText, skip_space hGap, ← hText, hLater]
      rfl

theorem readsBack_arr {items : List Json} (h : ∀ j ∈ items, ReadsBack j) :
    ReadsBack (.arr items) := by
  refine ⟨⟨_, _, by rw [write]; rfl, by decide, by decide⟩, fun {fuel rest} hFuel _ => ?_⟩
  rw [write] at hFuel ⊢
  simp only [List.length_append, List.length_cons] at hFuel
  obtain ⟨k, rfl⟩ : ∃ k, fuel = k + 1 := ⟨fuel - 1, by omega⟩
  rw [List.cons_append, List.cons_append, List.append_assoc, readValue, if_neg (by decide),
    if_pos (by decide)]
  cases items with
  | nil => rfl
  | cons j items =>
    obtain ⟨c, t, hText, hGap, hClose⟩ := head_writeItems (h j List.mem_cons_self) items
      ([CodePoint.ofChar ']'] ++ rest)
    have hItems := readItems_writeItems rest (j :: items) (by simp) h k (by omega)
    rw [hText, skip_eq_self (by rintro _ ⟨⟩; exact hGap)]
    simp only [if_neg hClose]
    rw [← hText]
    show (readItems k (writeItems (j :: items) ++ CodePoint.ofChar ']' :: rest) >>= _) = _
    rw [hItems]
    rfl

theorem put_of_not_mem {entries : Entries} {name : Text} (value : Json)
    (h : name ∉ entries.map (·.1)) : Entries.put entries name value = entries ++ [(name, value)] := by
  induction entries with
  | nil => rfl
  | cons e entries ih =>
    rw [List.map_cons, List.mem_cons, not_or] at h
    rw [Entries.put, if_neg (Ne.symm h.1), ih h.2]
    rfl

/-- The beginning of a member: its name, a colon and the gap after it. -/
theorem readEntries_member {e : Text × Json} (hName : e.1.Unpaired) (hValue : ReadsBack e.2)
    {fuel : Nat} {rest : Text} (hFuel : 2 * (write e.2).length ≤ fuel) (hRest : Ends rest)
    (acc : Entries) :
    readEntries (fuel + 1) acc (quote e.1 ++ (": " : Text) ++ write e.2 ++ rest)
      = (match skip rest with
        | d :: after =>
          if d.val = 0x7D then .ok (Entries.put acc e.1 e.2, after)
          else if d.val = 0x2C then readEntries fuel (Entries.put acc e.1 e.2) (skip after)
          else .error .malformed
        | [] => .error .malformed) := by
  obtain ⟨body, hBody, hRead⟩ := readQuoted_quote hName ((": " : Text) ++ write e.2 ++ rest)
  obtain ⟨c, t, hText, hGap, -⟩ := hValue.begins
  have hSkip : skip (CodePoint.ofChar ' ' :: (write e.2 ++ rest)) = write e.2 ++ rest := by
    rw [hText]
    exact skip_space hGap
  rw [List.append_assoc, List.append_assoc, ← List.append_assoc (": " : Text), hBody, readEntries]
  show (readQuoted [] false body >>= _) = _
  rw [hRead]
  show (readValue fuel (skip (CodePoint.ofChar ' ' :: (write e.2 ++ rest))) >>= _) = _
  rw [hSkip, hValue.reads hFuel hRest]
  rfl

theorem head_writeEntries (e : Text × Json) (entries : Entries) (rest : Text) :
    ∃ t, writeEntries (e :: entries) ++ rest = CodePoint.ofChar '"' :: t := by
  cases entries with
  | nil =>
    rw [writeEntries, quote]
    exact ⟨_, rfl⟩
  | cons next entries =>
    rw [writeEntries, quote]
    exact ⟨_, rfl⟩

theorem readEntries_writeEntries (rest : Text) : ∀ (entries : Entries), entries ≠ [] →
    (∀ e ∈ entries, e.1.Unpaired ∧ ReadsBack e.2) → ∀ (acc : Entries),
    ((acc ++ entries).map (·.1)).Nodup → ∀ fuel, 2 * (writeEntries entries).length + 1 ≤ fuel →
    readEntries fuel acc (writeEntries entries ++ CodePoint.ofChar '}' :: rest)
      = .ok (acc ++ entries, rest) := by
  intro entries
  induction entries with
  | nil => exact fun h => absurd rfl h
  | cons e entries ih =>
    intro _ hEntries acc hNames fuel hFuel
    obtain ⟨k, rfl⟩ : ∃ k, fuel = k + 1 := ⟨fuel - 1, by omega⟩
    obtain ⟨hName, hValue⟩ := hEntries e List.mem_cons_self
    have hNew : e.1 ∉ acc.map (·.1) := by
      rw [List.map_append, List.nodup_append] at hNames
      intro hMem
      exact hNames.2.2 e.1 hMem e.1 (by simp) rfl
    have hComma : (Text.ofString ", ").length = 2 := by decide
    cases entries with
    | nil =>
      rw [writeEntries] at hFuel ⊢
      simp only [List.length_append] at hFuel
      rw [readEntries_member hName hValue (by omega) (by rintro c ⟨⟩; decide),
        put_of_not_mem _ hNew]
      rfl
    | cons next entries =>
      rw [List.append_cons] at hNames
      rw [writeEntries] at hFuel ⊢
      simp only [List.length_append, hComma] at hFuel
      have hLater := ih (by simp) (fun i hi => hEntries i (List.mem_cons_of_mem _ hi)) _ hNames k
        (by omega)
      obtain ⟨t, hText⟩ := head_writeEntries next entries (CodePoint.ofChar '}' :: rest)
      have hQuote : isGap (CodePoint.ofChar '"') = false := by decide
      rw [List.append_assoc, List.append_assoc,
        readEntries_member hName hValue (by omega) (by rintro c ⟨⟩; decide),
        put_of_not_mem _ hNew]
      show readEntries k (acc ++ [e]) (skip (CodePoint.ofChar ' ' :: (writeEntries (next :: entries)
        ++ CodePoint.ofChar '}' :: rest))) = _
      rw [hText, skip_space hQuote, ← hText, hLater, ← List.append_cons]

theorem readsBack_obj {entries : Entries} (hNames : (entries.map (·.1)).Nodup)
    (h : ∀ e ∈ entries, e.1.Unpaired ∧ ReadsBack e.2) : ReadsBack (.obj entries) := by
  refine ⟨⟨_, _, by rw [write]; rfl, by decide, by decide⟩, fun {fuel rest} hFuel _ => ?_⟩
  rw [write] at hFuel ⊢
  simp only [List.length_append, List.length_cons] at hFuel
  obtain ⟨k, rfl⟩ : ∃ k, fuel = k + 1 := ⟨fuel - 1, by omega⟩
  rw [List.cons_append, List.cons_append, List.append_assoc, readValue, if_neg (by decide),
    if_neg (by decide), if_pos (by decide)]
  cases entries with
  | nil => rfl
  | cons e entries =>
    obtain ⟨t, hText⟩ := head_writeEntries e entries ([CodePoint.ofChar '}'] ++ rest)
    have hQuote : isGap (CodePoint.ofChar '"') = false := by decide
    have hEntries := readEntries_writeEntries rest (e :: entries) (by simp) h [] hNames k (by omega)
    rw [hText, skip_eq_self (by rintro _ ⟨⟩; exact hQuote)]
    simp only
    rw [if_neg (by decide), ← hText]
    show (readEntries k [] (writeEntries (e :: entries) ++ CodePoint.ofChar '}' :: rest) >>= _) = _
    rw [hEntries]
    rfl

mutual

theorem Readable.readsBack : ∀ {j : Json}, Readable j → ReadsBack j
  | .null, _ => readsBack_scalar rfl (by decide)
  | .bool true, _ => readsBack_scalar rfl (by decide)
  | .bool false, _ => readsBack_scalar rfl (by decide)
  | .int n, h => by
    rw [Readable] at h
    refine readsBack_scalar ?_ ?_
    · rw [write, readScalar_ofInt h]
    · rw [write]
      exact fun c hc => isScalarPart_ofInt hc
  | .float x, h => by
    rw [Readable] at h
    refine readsBack_scalar ?_ ?_
    · rw [write, readScalar_writeFloat h]
    · rw [write]
      exact isScalarPart_writeFloat x
  | .str t, h => readsBack_str (by rwa [Readable] at h)
  | .arr items, h => readsBack_arr (ReadableItems.readsBack (by rwa [Readable] at h))
  | .obj entries, h => by
    rw [Readable] at h
    exact readsBack_obj h.1 (ReadableEntries.readsBack h.2)

theorem ReadableItems.readsBack : ∀ {items : List Json}, ReadableItems items →
    ∀ j ∈ items, ReadsBack j
  | [], _ => fun _ h => nomatch h
  | i :: items, h => by
    rw [ReadableItems] at h
    exact List.forall_mem_cons.mpr ⟨Readable.readsBack h.1, ReadableItems.readsBack h.2⟩

theorem ReadableEntries.readsBack : ∀ {entries : Entries}, ReadableEntries entries →
    ∀ e ∈ entries, e.1.Unpaired ∧ ReadsBack e.2
  | [], _ => fun _ h => nomatch h
  | e :: entries, h => by
    rw [ReadableEntries] at h
    exact List.forall_mem_cons.mpr
      ⟨⟨h.1, Readable.readsBack h.2.1⟩, ReadableEntries.readsBack h.2.2⟩

end

/-- A readable value **reads back**. -/
theorem read_write {j : Json} (h : Readable j) : read (write j) = .ok j := by
  obtain ⟨c, t, hText, hGap, -⟩ := h.readsBack.begins
  have hSkip : skip (write j) = write j := by
    rw [hText]
    exact skip_eq_self (by rintro _ ⟨⟩; exact hGap)
  have hValue := h.readsBack.reads (Nat.le_add_right (2 * (write j).length) 2) Ends.nil
  rw [List.append_nil] at hValue
  rw [read, hSkip, hValue]
  rfl

end ScriptLint.Json
