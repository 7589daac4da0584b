/-!
# Totals

A walk keeps what is still to be visited on a stack.  It ends because the **total** size of the
stack shrinks with every step: a thing gives way to its parts, which are together smaller.

* `total`: the sizes of all items of a list, added up.
-/

namespace ScriptLint

variable {α β : Type}

/-- The total size of a list. -/
def total (size : α → Nat) : List α → Nat
  | [] => 0
  | a :: rest => size a + total size rest

@[simp]
theorem total_nil (size : α → Nat) : total size [] = 0 := rfl

@[simp]
theorem total_cons (size : α → Nat) (a : α) (as : List α) :
    total size (a :: as) = size a + total size as := rfl

@[simp]
theorem total_append (size : α → Nat) (as bs : List α) :
    total size (as ++ bs) = total size as + total size bs := by
  induction as with
  | nil => simp
  | cons a as ih =>
    simp only [List.cons_append, total_cons, ih]
    omega

@[simp]
theorem total_reverse (size : α → Nat) (as : List α) :
    total size as.reverse = total size as := by
  induction as with
  | nil => rfl
  | cons a as ih =>
    simp only [List.reverse_cons, total_append, total_cons, total_nil, ih]
    omega

/-- The total of the images of a list is that of the list, by the sizes of the images. -/
@[simp]
theorem total_map (size : β → Nat) (f : α → β) (as : List α) :
    total size (as.map f) = total (fun a => size (f a)) as := by
  induction as with
  | nil => rfl
  | cons a as ih => simp only [List.map_cons, total_cons, ih]

theorem total_filter_le (size : α → Nat) (p : α → Bool) (as : List α) :
    total size (as.filter p) ≤ total size as := by
  induction as with
  | nil => simp
  | cons a as ih =>
    by_cases h : p a
    · simp only [List.filter_cons_of_pos h, total_cons]
      omega
    · simp only [List.filter_cons_of_neg h, total_cons]
      omega

theorem le_total_of_mem (size : α → Nat) {a : α} {as : List α} (h : a ∈ as) :
    size a ≤ total size as := by
  induction as with
  | nil => cases h
  | cons b as ih =>
    rw [total_cons]
    rcases List.mem_cons.mp h with rfl | h
    · omega
    · have := ih h
      omega

/-- The items of a list are together smaller than the list. -/
theorem total_sizeOf_le [SizeOf α] (as : List α) : total sizeOf as ≤ sizeOf as := by
  induction as with
  | nil => simp
  | cons a as ih =>
    simp only [total_cons, List.cons.sizeOf_spec]
    omega

end ScriptLint
