import Mathlib

/-!
# The order of texts with fields of fixed width

Texts are compared character by character. Where both start with a field of
the same width, the fields decide, and what follows only if they are equal.
Numbers padded to the same width are ordered as numbers.
-/

set_option autoImplicit false

namespace Library.TextOrder

theorem append_lt_append_iff {A : Type*} [LinearOrder A] (s t x y : List A)
    (h : s.length = t.length) : s++x < t++y ↔ s < t ∨ s = t ∧ x < y := by
  induction s generalizing t with
  | nil =>
    obtain rfl : t = [] := List.length_eq_zero_iff.mp h.symm
    simp
  | cons a s ih =>
    cases t with
    | nil => cases h
    | cons b t =>
      rw [List.cons_append, List.cons_append, List.cons_lt_cons_iff, List.cons_lt_cons_iff,
        ih t (Nat.succ.inj h), List.cons.injEq]
      tauto

theorem digitChar_lt_iff (a b : ℕ) (ha : a < 10) (hb : b < 10) :
    Nat.digitChar a < Nat.digitChar b ↔ a < b := by
  have hall : ∀ a b : Fin 10, Nat.digitChar a < Nat.digitChar b ↔ a < b := by decide
  exact hall ⟨a, ha⟩ ⟨b, hb⟩

/-- A number is below another where its leading digits are, or its last one is. -/
theorem lt_iff_digits (a b : ℕ) : a < b ↔ a/10 < b/10 ∨ a/10 = b/10 ∧ a%10 < b%10 := by
  omega

theorem eq_iff_of_lt_iff {A B : Type*} [LinearOrder A] [LinearOrder B] (f : A → B) (a b : A)
    (hab : f a < f b ↔ a < b) (hba : f b < f a ↔ b < a) : f a = f b ↔ a = b := by
  constructor
  · intro h
    apply le_antisymm
    · exact not_lt.mp fun hlt => (hba.mpr hlt).ne h.symm
    · exact not_lt.mp fun hlt => (hab.mpr hlt).ne h
  · rintro rfl
    rfl

end Library.TextOrder
