import InferenceX.Library.JsonText

/-!
# Floats of a few decimal places

A number of few decimal places is written with as many digits behind the point
as it needs, one at least, and reads back as itself.
-/

set_option autoImplicit false

namespace Library.DecimalFloat
open Library.JsonText

structure FloatRepr (places : ℕ) where
  text : ℚ → FloatText
  value_text : ∀ z : ℤ, (text (z/10^places)).value = some (z/10^places : ℚ)

def lastDigit (n : ℕ) : Fin 10 := ⟨n%10, Nat.mod_lt _ (by decide)⟩

def snoc (ds : Digits) (d : Fin 10) : Digits := ⟨ds.head, ds.tail++[d]⟩

def fraction (ds : Digits) : ℚ := ds.toNat/10^ds.all.length

theorem toNat_snoc (ds : Digits) (d : Fin 10) : (snoc ds d).toNat = 10*ds.toNat+d.val := by
  have hall : (snoc ds d).all = ds.all++[d] := rfl
  rw [Digits.toNat, Digits.chars, hall, List.map_append, Nat.ofDigitChars_append, List.map_singleton,
    Nat.ofDigitChars_cons_digitChar_of_lt_ten d.isLt, Nat.ofDigitChars_nil]
  rfl

theorem snoc_length (ds : Digits) (d : Fin 10) : (snoc ds d).all.length = ds.all.length+1 := by
  simp [snoc, Digits.all]

theorem fraction_snoc (ds : Digits) (d : Fin 10) :
    fraction (snoc ds d) = fraction ds+d.val/10^(ds.all.length+1) := by
  rw [fraction, fraction, snoc_length, toNat_snoc, pow_succ]
  push_cast
  field_simp

def padded : ℕ → ℕ → Digits
  | 0, n => ⟨lastDigit n, []⟩
  | p+1, n => snoc (padded p (n/10)) (lastDigit n)

def shortest : ℕ → ℕ → Digits
  | 0, n => ⟨lastDigit n, []⟩
  | p+1, n => if n%10 = 0 then shortest p (n/10) else padded (p+1) n

theorem padded_length (p n : ℕ) : (padded p n).all.length = p+1 := by
  induction p generalizing n with
  | zero => rfl
  | succ p ih =>
    rw [padded, snoc_length, ih]

theorem fraction_digit (n : ℕ) (h : n < 10) : fraction ⟨lastDigit n, []⟩ = n/10 := by
  interval_cases n <;> decide +kernel

theorem fraction_padded (p n : ℕ) (h : n < 10^(p+1)) : fraction (padded p n) = n/10^(p+1) := by
  induction p generalizing n with
  | zero =>
    rw [Nat.zero_add, pow_one] at h ⊢
    exact fraction_digit n h
  | succ p ih =>
    have hsplit : (n : ℚ) = 10*(n/10 : ℕ)+(n%10 : ℕ) := by
      exact_mod_cast (Nat.div_add_mod n 10).symm
    rw [padded, fraction_snoc, padded_length, ih _ (by rw [pow_succ] at h; omega), hsplit,
      pow_succ (10 : ℚ) (p+1)]
    field_simp
    rfl

theorem fraction_shortest (p n : ℕ) (h : n < 10^(p+1)) :
    fraction (shortest p n) = n/10^(p+1) := by
  induction p generalizing n with
  | zero =>
    rw [Nat.zero_add, pow_one] at h ⊢
    exact fraction_digit n h
  | succ p ih =>
    rw [shortest]
    split_ifs with hzero
    · have hsplit : (n : ℚ) = 10*(n/10 : ℕ) := by
        exact_mod_cast (Nat.div_add_mod n 10).symm.trans (by rw [hzero, Nat.add_zero])
      rw [ih _ (by rw [pow_succ] at h; omega), hsplit, pow_succ (10 : ℚ) (p+1)]
      field_simp
    · exact fraction_padded (p+1) n h

def decimals (p : ℕ) : FloatRepr (p+1) where
  text q :=
    let n := ⌊|q| * 10^(p+1)⌋.toNat
    .decimal (decide (q < 0)) (n/10^(p+1)) (.frac (shortest p (n%10^(p+1))) none)
  value_text z := by
    have hpos : (0 : ℚ) < 10^(p+1) := by positivity
    have hfloor : ⌊|(z/10^(p+1) : ℚ)| * 10^(p+1)⌋.toNat = z.natAbs := by
      have habs : |(z/10^(p+1) : ℚ)| * 10^(p+1) = (z.natAbs : ℤ) := by
        rw [abs_div, abs_of_pos hpos, div_mul_cancel₀ _ hpos.ne', Int.natCast_natAbs, Int.cast_abs]
      rw [habs, Int.floor_intCast, Int.toNat_natCast]
    have hparts := fraction_shortest p (z.natAbs%10^(p+1)) (Nat.mod_lt _ (by positivity))
    have hsum : ((z.natAbs/10^(p+1) : ℕ) : ℚ)+((z.natAbs%10^(p+1) : ℕ) : ℚ)/10^(p+1) =
        (z.natAbs : ℚ)/10^(p+1) := by
      have hdm : ((10^(p+1)*(z.natAbs/10^(p+1))+z.natAbs%10^(p+1) : ℕ) : ℚ) = (z.natAbs : ℚ) :=
        congrArg Nat.cast (Nat.div_add_mod z.natAbs (10^(p+1)))
      rw [← hdm]
      push_cast
      field_simp
    rw [fraction] at hparts
    simp only [hfloor, FloatText.value, FloatText.magnitude, FloatText.exponentFactor, mul_one]
    rw [hparts, hsum]
    congr 1
    by_cases hz : z < 0
    · have hneg : (z/10^(p+1) : ℚ) < 0 := div_neg_of_neg_of_pos (by exact_mod_cast hz) hpos
      rw [decide_eq_true hneg, if_pos rfl, Nat.cast_natAbs, abs_of_neg hz]
      push_cast
      ring
    · have hz := not_lt.mp hz
      have hnot : ¬ (z/10^(p+1) : ℚ) < 0 := not_lt.mpr (div_nonneg (by exact_mod_cast hz) hpos.le)
      rw [decide_eq_false hnot, if_neg Bool.false_ne_true, Nat.cast_natAbs, abs_of_nonneg hz]

example : (decimals 2).text (25/2) = .decimal false 12 (.frac ⟨5, []⟩ none) := by decide +kernel

end Library.DecimalFloat
