import InferenceX.Library.JsonRoundTrip

/-!
# Decimal numerals and what stripping leaves of them

A numeral is read back as its number. Stripping zeros and dots from its end as
characters takes the dot and the zeros of the whole part as well, so it keeps
the number exactly where it stops before these.
-/

set_option autoImplicit false

namespace Library.DecimalText
open Library.JsonText

def digitChars (ds : List (Fin 10)) : List Char := ds.map fun d => Nat.digitChar d.val

def number (ds : List (Fin 10)) : ℕ := ds.foldl (fun n d => 10*n+d.val) 0

/-- A numeral; it has no fractional part where there are no digits of one. -/
structure Numeral where
  whole : List (Fin 10)
  fraction : List (Fin 10)
  whole_ne : whole ≠ []

namespace Numeral

def chars (n : Numeral) : List Char :=
  digitChars n.whole++(if n.fraction = [] then [] else '.'::digitChars n.fraction)

def value (n : Numeral) : ℚ := (number (n.whole++n.fraction) : ℚ)/10^n.fraction.length

end Numeral

def read (text : List Char) : Option ℚ :=
  let whole := text.takeWhile Char.isDigit
  if whole = [] then none
  else
    match text.dropWhile Char.isDigit with
    | [] => some (number (whole.map digitOf))
    | '.'::more =>
      if more ≠ [] ∧ more.all Char.isDigit then
        some ((number ((whole++more).map digitOf) : ℚ)/10^more.length)
      else none
    | _ => none

/-- `text.rstrip(".0")`. -/
def strip (text : List Char) : List Char := text.rdropWhile fun c => c = '.' ∨ c = '0'

theorem digitChars_append (xs ys : List (Fin 10)) :
    digitChars (xs++ys) = digitChars xs++digitChars ys := List.map_append

theorem digitChars_digits (ds : List (Fin 10)) : ∀ c ∈ digitChars ds, c.isDigit = true := by
  intro c hc
  obtain ⟨d, -, rfl⟩ := List.mem_map.mp hc
  exact digitChar_isDigit d

theorem digitOf_digitChars (ds : List (Fin 10)) : (digitChars ds).map digitOf = ds := by
  rw [digitChars, List.map_map]
  exact List.map_id'' digitOf_digitChar ds

theorem digitChars_eq_nil (ds : List (Fin 10)) : digitChars ds = [] ↔ ds = [] :=
  List.map_eq_nil_iff

theorem number_concat (ds : List (Fin 10)) (d : Fin 10) : number (ds++[d]) = 10*number ds+d := by
  simp [number]

theorem number_zeros (ds : List (Fin 10)) (k : ℕ) :
    number (ds++List.replicate k 0) = number ds*10^k := by
  induction k with
  | zero => simp
  | succ k ih =>
    rw [List.replicate_succ', ← List.append_assoc, number_concat, ih, pow_succ]
    simp
    ring

theorem number_pos (ds : List (Fin 10)) (hne : ds ≠ []) (hlast : ds.getLast? ≠ some 0) :
    0 < number ds := by
  obtain ⟨front, d, rfl⟩ := (List.eq_nil_or_concat' ds).resolve_left hne
  rw [number_concat]
  have hd : d.val ≠ 0 := fun h => hlast (by simpa using Fin.ext h)
  omega

theorem read_chars (n : Numeral) : read n.chars = some n.value := by
  obtain ⟨whole, fraction, hwhole⟩ := n
  have hdigits := digitChars_digits whole
  have hne : digitChars whole ≠ [] := fun h => hwhole ((digitChars_eq_nil whole).mp h)
  have hrest : NoDigit (if fraction = [] then [] else '.'::digitChars fraction) := by
    intro c hc
    split_ifs at hc
    · cases hc
    · obtain rfl : '.' = c := Option.some.inj hc
      rfl
  dsimp only [Numeral.chars, Numeral.value]
  rw [read, takeWhile_digits _ _ hdigits hrest, dropWhile_digits _ _ hdigits hrest]
  by_cases hf : fraction = []
  · simp [hne, hf, digitOf_digitChars]
  · have hf' : digitChars fraction ≠ [] := fun h => hf ((digitChars_eq_nil fraction).mp h)
    have hall : (digitChars fraction).all Char.isDigit = true :=
      List.all_eq_true.mpr (digitChars_digits fraction)
    have hlen : (digitChars fraction).length = fraction.length := List.length_map _
    simp [hne, hf, hf', hall, digitOf_digitChars, hlen]

/-- A numeral keeps its number: its fraction is not all zeros, or its whole part
does not end in one. -/
def Numeral.Kept (n : Numeral) : Prop := (∃ d ∈ n.fraction, d ≠ 0) ∨ n.whole.getLast? ≠ some 0

theorem rdropWhile_append {A : Type*} (p : A → Bool) (xs ys : List A) :
    (xs++ys).rdropWhile p =
      if ys.rdropWhile p = [] then xs.rdropWhile p else xs++ys.rdropWhile p := by
  induction ys using List.reverseRecOn with
  | nil => simp
  | append_singleton ys y ih =>
    rw [← List.append_assoc]
    by_cases hy : p y = true
    · rw [List.rdropWhile_concat_pos _ _ _ hy, List.rdropWhile_concat_pos _ _ _ hy, ih]
    · rw [List.rdropWhile_concat_neg _ _ _ hy, List.rdropWhile_concat_neg _ _ _ hy,
        if_neg (by simp), List.append_assoc]

theorem strip_digits (ds : List (Fin 10)) :
    strip (digitChars ds) = digitChars (ds.rdropWhile fun d => d = 0) := by
  induction ds using List.reverseRecOn with
  | nil => rfl
  | append_singleton ds d ih =>
    have hd : (decide (Nat.digitChar d.val = '.' ∨ Nat.digitChar d.val = '0')) = decide (d = 0) := by
      revert d
      decide
    rw [digitChars_append, strip]
    show List.rdropWhile _ (digitChars ds++[Nat.digitChar d.val]) = _
    rw [List.rdropWhile_concat, List.rdropWhile_concat, hd]
    split_ifs
    · exact ih
    · rw [digitChars_append]
      rfl

theorem trailing_zeros (ds : List (Fin 10)) : ∃ k,
    ds = (ds.rdropWhile fun d => d = 0)++List.replicate k 0 ∧
      (ds.rdropWhile fun d => d = 0).getLast? ≠ some 0 := by
  induction ds using List.reverseRecOn with
  | nil => exact ⟨0, rfl, Option.some_ne_none _ ∘ Eq.symm⟩
  | append_singleton ds d ih =>
    obtain ⟨k, hk, hlast⟩ := ih
    by_cases hd : d = 0
    · rw [List.rdropWhile_concat_pos _ _ _ (by simpa using hd)]
      refine ⟨k+1, ?_, hlast⟩
      rw [List.replicate_succ', ← List.append_assoc, ← hk, hd]
    · rw [List.rdropWhile_concat_neg _ _ _ (by simpa using hd)]
      exact ⟨0, by simp, by simpa using hd⟩

theorem strip_chars (n : Numeral) : strip n.chars =
    if n.fraction.rdropWhile (fun d => d = 0) = [] then
      digitChars (n.whole.rdropWhile fun d => d = 0)
    else digitChars n.whole++ '.'::digitChars (n.fraction.rdropWhile fun d => d = 0) := by
  by_cases hf : n.fraction = []
  · rw [Numeral.chars, if_pos hf, List.append_nil, strip_digits, hf]
    rfl
  · have hdot : strip ['.'] = [] := rfl
    have hdigits := strip_digits n.fraction
    rw [Numeral.chars, if_neg hf, strip, List.append_cons, rdropWhile_append]
    rw [strip] at hdigits
    rw [hdigits]
    by_cases hz : n.fraction.rdropWhile (fun d => d = 0) = []
    · have hnil : digitChars [] = [] := rfl
      rw [hz, hnil, if_pos rfl, if_pos rfl, rdropWhile_append, ← strip, hdot, if_pos rfl]
      exact strip_digits n.whole
    · rw [if_neg hz, if_neg fun h => hz ((digitChars_eq_nil _).mp h), List.append_assoc]
      rfl

/-- A whole number without the zeros at its end is the same where it has none. -/
theorem read_whole_iff (whole : List (Fin 10)) (hne : whole ≠ []) :
    read (digitChars (whole.rdropWhile fun d => d = 0)) = some (number whole : ℚ) ↔
      whole.getLast? ≠ some 0 := by
  obtain ⟨k, hk, hlast⟩ := trailing_zeros whole
  cases k with
  | zero =>
    rw [List.replicate_zero, List.append_nil] at hk
    have hread := read_chars ⟨whole, [], hne⟩
    simp only [Numeral.chars, Numeral.value, if_true, List.append_nil, List.length_nil, pow_zero,
      div_one] at hread
    rw [← hk] at hlast ⊢
    exact iff_of_true hread hlast
  | succ k =>
    have hend : whole.getLast? = some 0 := by
      rw [hk, List.replicate_succ', ← List.append_assoc, List.getLast?_concat]
    apply iff_of_false _ (not_not.mpr hend)
    by_cases hkept : whole.rdropWhile (fun d => d = 0) = []
    · rw [hkept]
      exact Option.some_ne_none _ ∘ Eq.symm
    · have hread := read_chars ⟨whole.rdropWhile fun d => d = 0, [], hkept⟩
      simp only [Numeral.chars, Numeral.value, if_true, List.append_nil, List.length_nil, pow_zero,
        div_one] at hread
      have hpos := number_pos _ hkept hlast
      have hsame : number whole = number (whole.rdropWhile fun d => d = 0)*10^(k+1) := by
        conv_lhs => rw [hk, number_zeros]
      have hpow : 1 < 10^(k+1) := Nat.one_lt_pow (Nat.succ_ne_zero k) (by decide)
      rw [hread, Option.some.injEq, Nat.cast_inj]
      intro heq
      nlinarith

theorem value_zeros (whole fraction : List (Fin 10)) (j : ℕ) :
    (number (whole++(fraction++List.replicate j 0)) : ℚ)/
        10^(fraction++List.replicate j (0 : Fin 10)).length =
      (number (whole++fraction) : ℚ)/10^fraction.length := by
  rw [← List.append_assoc, number_zeros, List.length_append, List.length_replicate, pow_add]
  push_cast
  field_simp

/-- Stripped of zeros and dots a numeral denotes its number exactly where it
stops before the zeros of the whole part. -/
theorem read_strip_iff (n : Numeral) : read (strip n.chars) = some n.value ↔ n.Kept := by
  obtain ⟨whole, fraction, hwhole⟩ := n
  obtain ⟨j, hj, hlast⟩ := trailing_zeros fraction
  have hvalue := value_zeros whole (fraction.rdropWhile fun d => d = 0) j
  rw [← hj] at hvalue
  rw [strip_chars]
  dsimp only [Numeral.value, Numeral.Kept]
  rw [hvalue]
  by_cases hf : fraction.rdropWhile (fun d => d = 0) = []
  · -- All of the fraction goes, and the zeros in front of it.
    have hzeros : ¬ ∃ d ∈ fraction, d ≠ 0 := by
      rintro ⟨d, hd, hne⟩
      exact hne (by simpa using List.rdropWhile_eq_nil_iff.mp hf d hd)
    rw [if_pos hf, or_iff_right hzeros, hf]
    simpa using read_whole_iff whole hwhole
  · have hread := read_chars ⟨whole, fraction.rdropWhile fun d => d = 0, hwhole⟩
    simp only [Numeral.chars, Numeral.value, if_neg hf] at hread
    rw [if_neg hf]
    apply iff_of_true hread
    obtain ⟨d, hd⟩ := Option.isSome_iff_exists.mp (List.getLast?_isSome.mpr hf)
    have hmem : d ∈ fraction := (List.rdropWhile_prefix _ _).subset (List.mem_of_getLast? hd)
    exact Or.inl ⟨d, hmem, fun h => hlast (h ▸ hd)⟩

end Library.DecimalText
