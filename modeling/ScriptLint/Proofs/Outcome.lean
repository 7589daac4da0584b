import Mathlib.Data.List.Forall2

/-!
# Computations that may fail

Facts about computations that end in a result or in a fault, one after the other or over a list.

* `bind_eq_ok`: two computations in a row have a result if both have one.
* `mapM_eq_ok`: a computation over a list has the results of its items.
* `FailsWith`: a computation has a result or a fault of some sort.
* `FailsOnlyWith`: a computation has a result or one particular fault.
* `SameFault`: two computations fail alike, whatever their results are.
* `Carries`: the result of one computation, if it has one, is the result of another as well.
* `Ensures`: if a computation has a result, it has a property.
* `Yields`: a computation has a result with a property.
* `Decides`: a computation has an answer, and the answer is yes if a proposition holds.
-/

namespace ScriptLint.Outcome

variable {α β ε : Type}

theorem ok_bind (a : α) (f : α → Except ε β) : (.ok a : Except ε α) >>= f = f a := rfl

theorem bind_eq_ok {x : Except ε α} {f : α → Except ε β} {b : β} :
    x >>= f = .ok b ↔ ∃ a, x = .ok a ∧ f a = .ok b := by
  cases x with
  | error e =>
    constructor
    · intro h; cases h
    · rintro ⟨a, h, _⟩; cases h
  | ok a =>
    constructor
    · exact fun h => ⟨a, rfl, h⟩
    · rintro ⟨a', h, hf⟩; cases h; exact hf

theorem mapM_congr {f g : α → Except ε β} {l : List α} (h : ∀ a ∈ l, f a = g a) :
    l.mapM f = l.mapM g := by
  induction l with
  | nil => rfl
  | cons a l ih =>
    rw [List.mapM_cons, List.mapM_cons, h a List.mem_cons_self,
      ih fun b hb => h b (List.mem_cons_of_mem _ hb)]

theorem mapM_attach (f : α → Except ε β) (l : List α) :
    l.attach.mapM (fun a => f a.1) = l.mapM f := by
  conv_rhs => rw [← List.attach_map_subtype_val l, List.mapM_map]
  rfl

/-- A computation over a list has a result if it has one for each item. -/
theorem mapM_eq_ok {f : α → Except ε β} {l : List α} {bs : List β} :
    l.mapM f = .ok bs ↔ List.Forall₂ (fun a b => f a = .ok b) l bs := by
  induction l generalizing bs with
  | nil =>
    rw [List.mapM_nil, List.forall₂_nil_left_iff]
    exact ⟨fun h => by cases h; rfl, fun h => by rw [h]; rfl⟩
  | cons a l ih =>
    rw [List.mapM_cons, List.forall₂_cons_left_iff]
    constructor
    · intro h
      obtain ⟨b, hb, h⟩ := bind_eq_ok.mp h
      obtain ⟨bs', hbs, h⟩ := bind_eq_ok.mp h
      cases h
      exact ⟨b, bs', hb, ih.mp hbs, rfl⟩
    · rintro ⟨b, bs', hb, hbs, rfl⟩
      exact bind_eq_ok.mpr ⟨b, hb, bind_eq_ok.mpr ⟨bs', ih.mpr hbs, rfl⟩⟩

theorem exists_ok_of_mapM_eq_ok {f : α → Except ε β} {l : List α} {bs : List β}
    (h : l.mapM f = .ok bs) : ∀ a ∈ l, ∃ b, f a = .ok b := by
  intro a ha
  induction mapM_eq_ok.mp h with
  | nil => cases ha
  | cons hab htail ih =>
    rcases List.mem_cons.mp ha with rfl | ha
    · exact ⟨_, hab⟩
    · exact ih (mapM_eq_ok.mpr htail) ha

/-- A computation over a list has a result if and only if it has one for each item. -/
theorem exists_mapM_eq_ok {f : α → Except ε β} {l : List α} :
    (∃ bs, l.mapM f = .ok bs) ↔ ∀ a ∈ l, ∃ b, f a = .ok b := by
  constructor
  · rintro ⟨bs, h⟩
    exact exists_ok_of_mapM_eq_ok h
  · intro h
    induction l with
    | nil => exact ⟨[], rfl⟩
    | cons a l ih =>
      obtain ⟨b, hb⟩ := h a List.mem_cons_self
      obtain ⟨bs, hbs⟩ := ih fun c hc => h c (List.mem_cons_of_mem _ hc)
      refine ⟨b :: bs, ?_⟩
      rw [List.mapM_cons, hb, hbs]
      rfl

theorem mapM_eq_ok_map {f : α → Except ε β} {g : α → β} {l : List α}
    (h : ∀ a ∈ l, f a = .ok (g a)) : l.mapM f = .ok (l.map g) := by
  rw [mapM_eq_ok, List.forall₂_map_right_iff, List.forall₂_same]
  exact h

/-! ### Faults of a sort -/

/-- If the computation has a fault, then the fault has the property `S`. -/
def FailsWith (S : ε → Prop) (x : Except ε α) : Prop := ∀ e, x = .error e → S e

namespace FailsWith

variable {S : ε → Prop}

theorem ok (a : α) : FailsWith S (.ok a) := by
  intro e h
  cases h

theorem error {e : ε} (h : S e) : FailsWith S (.error e : Except ε α) := by
  intro e' h'
  cases h'
  exact h

theorem bind {x : Except ε α} {f : α → Except ε β} (hx : FailsWith S x)
    (hf : ∀ a, FailsWith S (f a)) : FailsWith S (x >>= f) := by
  cases x with
  | error d => exact error (hx d rfl)
  | ok a => exact hf a

theorem ite {c : Prop} [Decidable c] {x y : Except ε α} (h : FailsWith S x)
    (h' : FailsWith S y) : FailsWith S (if c then x else y) := by
  split
  · exact h
  · exact h'

theorem mapM {f : α → Except ε β} {l : List α} (h : ∀ a ∈ l, FailsWith S (f a)) :
    FailsWith S (l.mapM f) := by
  induction l with
  | nil => exact ok _
  | cons a l ih =>
    rw [List.mapM_cons]
    refine (h a List.mem_cons_self).bind fun b => ?_
    exact (ih fun c hc => h c (List.mem_cons_of_mem _ hc)).bind fun bs => ok _

end FailsWith

/-! ### One fault -/

/-- The computation has a result or the fault `e`. -/
def FailsOnlyWith (e : ε) (x : Except ε α) : Prop := ∀ e', x = .error e' → e' = e

namespace FailsOnlyWith

variable {e : ε}

theorem ok (a : α) : FailsOnlyWith e (.ok a) := FailsWith.ok a

theorem bind {x : Except ε α} {f : α → Except ε β} (hx : FailsOnlyWith e x)
    (hf : ∀ a, FailsOnlyWith e (f a)) : FailsOnlyWith e (x >>= f) :=
  FailsWith.bind hx hf

theorem mapM {f : α → Except ε β} {l : List α} (h : ∀ a ∈ l, FailsOnlyWith e (f a)) :
    FailsOnlyWith e (l.mapM f) :=
  FailsWith.mapM h

end FailsOnlyWith

/-- A computation over a list fails if it fails for one of the items. -/
theorem mapM_eq_error {e : ε} {f : α → Except ε β} {l : List α}
    (h : ∀ a ∈ l, FailsOnlyWith e (f a)) {a : α} (ha : a ∈ l) (hf : f a = .error e) :
    l.mapM f = .error e := by
  cases hl : l.mapM f with
  | error d => rw [FailsOnlyWith.mapM h d hl]
  | ok bs =>
    obtain ⟨b, hb⟩ := exists_ok_of_mapM_eq_ok hl a ha
    rw [hf] at hb
    cases hb

/-! ### The same fault -/

/-- Both computations have a result, or both have the same fault. -/
def SameFault (x : Except ε α) (y : Except ε β) : Prop := ∀ e, x = .error e ↔ y = .error e

namespace SameFault

variable {γ δ : Type}

theorem ok (a : α) (b : β) : SameFault (.ok a : Except ε α) (.ok b : Except ε β) := by
  intro e
  constructor <;> intro h <;> cases h

theorem error (d : ε) : SameFault (.error d : Except ε α) (.error d : Except ε β) := by
  intro e
  rw [Except.error.injEq, Except.error.injEq]

theorem refl (x : Except ε α) : SameFault x x := fun _ => Iff.rfl

theorem symm {x : Except ε α} {y : Except ε β} (h : SameFault x y) : SameFault y x :=
  fun e => (h e).symm

theorem trans {x : Except ε α} {y : Except ε β} {z : Except ε γ} (h : SameFault x y)
    (h' : SameFault y z) : SameFault x z :=
  fun e => (h e).trans (h' e)

theorem bind {x : Except ε α} {y : Except ε β} {f : α → Except ε γ} {g : β → Except ε δ}
    (h : SameFault x y) (hf : ∀ a b, SameFault (f a) (g b)) : SameFault (x >>= f) (y >>= g) := by
  cases x with
  | error d => rw [(h d).mp rfl]; exact error d
  | ok a =>
    cases y with
    | error d => exact absurd ((h d).mpr rfl) (by simp)
    | ok b => exact hf a b

/-- Computations that go on from the same beginning. -/
theorem bind_left {x : Except ε α} {f : α → Except ε γ} {g : α → Except ε δ}
    (hf : ∀ a, SameFault (f a) (g a)) : SameFault (x >>= f) (x >>= g) := by
  cases x with
  | error d => exact error d
  | ok a => exact hf a

theorem ite {c : Prop} [Decidable c] {x x' : Except ε α} {y y' : Except ε β}
    (h : SameFault x y) (h' : SameFault x' y') :
    SameFault (if c then x else x') (if c then y else y') := by
  by_cases hc : c
  · rw [if_pos hc, if_pos hc]
    exact h
  · rw [if_neg hc, if_neg hc]
    exact h'

/-- Computations with the same faults are equal if their results are. -/
theorem eq_of_ok {x y : Except ε α} (h : SameFault x y)
    (hOk : ∀ a b, x = .ok a → y = .ok b → a = b) : x = y := by
  cases x with
  | error d => exact ((h d).mp rfl).symm
  | ok a =>
    cases y with
    | error d => exact absurd ((h d).mpr rfl) (by simp)
    | ok b => rw [hOk a b rfl rfl]

/-- A computation over the items of many lists fails like one over the lists. -/
theorem mapM_flatMap {f : α → Except ε β} {g : α → List γ} {k : γ → Except ε δ} {l : List α}
    (h : ∀ a ∈ l, SameFault (f a) ((g a).mapM k)) :
    SameFault (l.mapM f) ((l.flatMap g).mapM k) := by
  induction l with
  | nil => exact .ok _ _
  | cons a l ih =>
    have hRest := ih fun b hb => h b (List.mem_cons_of_mem _ hb)
    rw [List.mapM_cons, List.flatMap_cons, List.mapM_append]
    refine (h a List.mem_cons_self).bind fun _ _ => ?_
    exact hRest.bind fun _ _ => .ok _ _

theorem exists_ok_iff {x : Except ε α} {y : Except ε β} (h : SameFault x y) :
    (∃ a, x = .ok a) ↔ ∃ b, y = .ok b := by
  cases x with
  | error e => rw [(h e).mp rfl]; simp
  | ok a =>
    cases y with
    | error e => exact absurd ((h e).mpr rfl) (by simp)
    | ok b => simp

end SameFault

/-! ### The same result -/

/-- What the first computation results in, the second results in **as well**. -/
def Carries (x y : Except ε α) : Prop := ∀ a, x = .ok a → y = .ok a

namespace Carries

theorem refl (x : Except ε α) : Carries x x := fun _ h => h

theorem bind {x y : Except ε α} {f g : α → Except ε β} (h : Carries x y)
    (hf : ∀ a, Carries (f a) (g a)) : Carries (x >>= f) (y >>= g) := by
  intro b hb
  obtain ⟨a, ha, hb⟩ := bind_eq_ok.mp hb
  exact bind_eq_ok.mpr ⟨a, h a ha, hf a b hb⟩

theorem mapM {f g : α → Except ε β} {l : List α} (h : ∀ a ∈ l, Carries (f a) (g a)) :
    Carries (l.mapM f) (l.mapM g) := by
  induction l with
  | nil => exact refl _
  | cons a l ih =>
    rw [List.mapM_cons, List.mapM_cons]
    refine (h a List.mem_cons_self).bind fun b => ?_
    exact (ih fun c hc => h c (List.mem_cons_of_mem _ hc)).bind fun bs => refl _

end Carries

/-! ### Results with a property -/

/-- If the computation has a result, then the result has the property `P`. -/
def Ensures (P : α → Prop) (x : Except ε α) : Prop := ∀ a, x = .ok a → P a

namespace Ensures

variable {P : α → Prop} {Q : β → Prop}

theorem ok {a : α} (h : P a) : Ensures P (.ok a : Except ε α) := by
  intro b hb
  cases hb
  exact h

theorem error (e : ε) : Ensures P (.error e : Except ε α) := by
  intro a h
  cases h

theorem bind {x : Except ε α} {f : α → Except ε β} (hx : Ensures P x)
    (hf : ∀ a, P a → Ensures Q (f a)) : Ensures Q (x >>= f) := by
  intro b hb
  obtain ⟨a, ha, hb⟩ := bind_eq_ok.mp hb
  exact hf a (hx a ha) b hb

/-- Nothing is asked of the first result. -/
theorem bind_right {x : Except ε α} {f : α → Except ε β} (hf : ∀ a, Ensures Q (f a)) :
    Ensures Q (x >>= f) :=
  bind (fun _ _ => trivial) fun a (_ : True) => hf a

theorem ite_of {c : Prop} [Decidable c] {x y : Except ε α} (h : c → Ensures P x)
    (h' : Ensures P y) : Ensures P (if c then x else y) := by
  by_cases hc : c
  · rw [if_pos hc]
    exact h hc
  · rw [if_neg hc]
    exact h'

theorem ite {c : Prop} [Decidable c] {x y : Except ε α} (h : Ensures P x) (h' : Ensures P y) :
    Ensures P (if c then x else y) :=
  ite_of (fun _ => h) h'

end Ensures

/-- The computation has a result, and the result has the property `P`. -/
def Yields (P : α → Prop) (x : Except ε α) : Prop := ∃ a, x = .ok a ∧ P a

namespace Yields

variable {P : α → Prop} {Q : β → Prop}

theorem ok {a : α} (h : P a) : Yields P (.ok a : Except ε α) := ⟨a, rfl, h⟩

theorem bind {x : Except ε α} {f : α → Except ε β} (hx : Yields P x)
    (hf : ∀ a, P a → Yields Q (f a)) : Yields Q (x >>= f) := by
  obtain ⟨a, rfl, ha⟩ := hx
  exact hf a ha

theorem mapM {f : α → Except ε β} {l : List α} (h : ∀ a ∈ l, Yields Q (f a)) :
    Yields (fun bs => ∀ b ∈ bs, Q b) (l.mapM f) := by
  induction l with
  | nil => exact ok fun b hb => by cases hb
  | cons a l ih =>
    rw [List.mapM_cons]
    refine (h a List.mem_cons_self).bind fun b hb => ?_
    refine (ih fun c hc => h c (List.mem_cons_of_mem _ hc)).bind fun bs hbs => ?_
    exact ok (List.forall_mem_cons.mpr ⟨hb, hbs⟩)

end Yields

/-- The computation has an answer, which is yes **if and only if** `Q` holds. -/
def Decides (Q : Prop) (x : Except ε Bool) : Prop := Yields (fun b => b = true ↔ Q) x

namespace Decides

variable {Q R : Prop}

theorem of_bool (b : Bool) : Decides (b = true) (.ok b : Except ε Bool) := ⟨b, rfl, Iff.rfl⟩

theorem congr {x : Except ε Bool} (h : Decides Q x) (hQR : Q ↔ R) : Decides R x := by
  obtain ⟨b, hb, hIff⟩ := h
  exact ⟨b, hb, hIff.trans hQR⟩

end Decides

end ScriptLint.Outcome
