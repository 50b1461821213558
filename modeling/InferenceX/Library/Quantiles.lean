import InferenceX.Library.StableSort

/-!
# Interpolated quantiles

The `i`-th of `n` quantiles of a sorted sample lies between two neighbours of
it, where a line through them puts it. So quantiles are ordered as their
indices are, and each has its share of the sample on either side.
-/

set_option autoImplicit false

namespace Library.Quantiles
open Library.StableSort
variable {K : Type*} [Field K] [LinearOrder K]

def interpolate (n : ℕ) (x : ℕ → K) (p : ℕ) : K :=
  (x (p/n)*((n-p%n : ℕ) : K)+x (p/n+1)*((p%n : ℕ) : K))/n

omit [Field K] in
theorem points_mono (m : ℕ) (x : ℕ → K) (hx : ∀ j < m, x j ≤ x (j+1)) (i j : ℕ) (h : i ≤ j)
    (hj : j ≤ m) : x i ≤ x j := by
  induction j, h using Nat.le_induction with
  | base => exact le_rfl
  | succ j _ ih => exact (ih (by omega)).trans (hx j (by omega))

section Line
variable [IsStrictOrderedRing K] (n m : ℕ) (x : ℕ → K) (hn : 0 < n)
include hn

theorem interpolate_segment (p : ℕ) :
    interpolate n x p = x (p/n)+(x (p/n+1)-x (p/n))*((p%n : ℕ) : K)/n := by
  have hn0 : (n : K) ≠ 0 := Nat.cast_ne_zero.mpr hn.ne'
  rw [interpolate, Nat.cast_sub (Nat.mod_lt p hn).le]
  field_simp
  ring

theorem interpolate_point (p : ℕ) (h : p%n = 0) :
    interpolate n x p = x (p/n) := by
  rw [interpolate_segment n x hn, h]
  simp

theorem share_bounds (p : ℕ) : 0 ≤ ((p%n : ℕ) : K)/n ∧ ((p%n : ℕ) : K)/n ≤ 1 := by
  have hpos : (0 : K) < n := Nat.cast_pos.mpr hn
  refine ⟨by positivity, ?_⟩
  rw [div_le_one hpos]
  exact Nat.cast_le.mpr (Nat.mod_lt p hn).le

theorem interpolate_between (p : ℕ) (hx : x (p/n) ≤ x (p/n+1)) :
    x (p/n) ≤ interpolate n x p ∧ interpolate n x p ≤ x (p/n+1) := by
  obtain ⟨hlow, hhigh⟩ := share_bounds (K := K) n hn p
  rw [interpolate_segment n x hn, mul_div_assoc]
  constructor
  · have hmul := mul_nonneg (sub_nonneg.mpr hx) hlow
    linarith
  · have hmul := mul_le_mul_of_nonneg_left hhigh (sub_nonneg.mpr hx)
    linarith

variable (hx : ∀ j < m, x j ≤ x (j+1))
include hx

theorem point_le (p : ℕ) (hp : p ≤ m*n) : x (p/n) ≤ interpolate n x p := by
  by_cases h : p%n = 0
  · exact (interpolate_point n x hn p h).ge
  · have hlt : p/n < m := (Nat.div_lt_iff_lt_mul hn).mpr (lt_of_le_of_ne hp fun he => h (by
      rw [he, Nat.mul_mod_left]))
    exact (interpolate_between n x hn p (hx _ hlt)).1

theorem interpolate_mono (p q : ℕ) (h : p ≤ q) (hq : q ≤ m*n) :
    interpolate n x p ≤ interpolate n x q := by
  have hdiv : p/n ≤ q/n := Nat.div_le_div_right h
  rcases hdiv.lt_or_eq with hlt | heq
  · have hqm : q/n ≤ m := Nat.div_le_of_le_mul (by rwa [Nat.mul_comm])
    calc interpolate n x p ≤ x (p/n+1) := (interpolate_between n x hn p (hx _ (by omega))).2
      _ ≤ x (q/n) := points_mono m x hx _ _ hlt hqm
      _ ≤ interpolate n x q := point_le n m x hn hx q hq
  · have hpq := Nat.div_add_mod p n
    have hqp := Nat.div_add_mod q n
    rw [heq] at hpq
    have hmod : p%n ≤ q%n := by omega
    by_cases hm : q/n < m
    · have hpos : (0 : K) < n := Nat.cast_pos.mpr hn
      have hrise := sub_nonneg.mpr (hx _ hm)
      have hcast : ((p%n : ℕ) : K) ≤ ((q%n : ℕ) : K) := Nat.cast_le.mpr hmod
      rw [interpolate_segment n x hn, interpolate_segment n x hn, heq]
      gcongr
    · have hfull : m*n ≤ n*(q/n) := by
        rw [Nat.mul_comm]
        exact Nat.mul_le_mul_left n (not_lt.mp hm)
      obtain rfl : p = q := by omega
      exact le_rfl

end Line

/-- `statistics.quantiles(data, n=n, method="inclusive")[i-1]`. -/
def quantile (n i : ℕ) (data : List K) : K :=
  let xs := data.insertionSort (· ≤ ·)
  interpolate n (fun j => xs.getD j 0) (i*(xs.length-1))

/-- With the gaps between the entries shared out to `n` parts, more than `i` of
them have an entry up to the value, and more than the others one from it on. -/
def Splits {K : Type*} [LinearOrder K] (n i : ℕ) (data : List K) (r : K) : Prop :=
  i*(data.length-1) < n*data.countP (· ≤ r) ∧ (n-i)*(data.length-1) < n*data.countP (r ≤ ·)

section Sample
variable (n i : ℕ) (data : List K)

def place (j : ℕ) : K := (data.insertionSort (· ≤ ·)).getD j 0

theorem quantile_eq : quantile n i data = interpolate n (place data) (i*(data.length-1)) := by
  rw [quantile, List.length_insertionSort]
  rfl

omit [Field K] in
theorem sorted_perm : (data.insertionSort (· ≤ ·)).Perm data := List.perm_insertionSort _ _

theorem quantile_perm (others : List K) (h : data.Perm others) :
    quantile n i data = quantile n i others := by
  have hsorted : data.insertionSort (· ≤ ·) = others.insertionSort (· ≤ ·) :=
    List.Perm.eq_of_pairwise (fun _ _ _ _ => le_antisymm) (List.pairwise_insertionSort _ _)
      (List.pairwise_insertionSort _ _)
      ((sorted_perm data).trans (h.trans (sorted_perm others).symm))
  rw [quantile, quantile, hsorted]

theorem place_getElem (j : ℕ) (hj : j < (data.insertionSort (· ≤ ·)).length) :
    place data j = (data.insertionSort (· ≤ ·))[j] := by
  rw [place, List.getD_eq_getElem?_getD, List.getElem?_eq_getElem hj, Option.getD_some]

theorem place_mem (j : ℕ) (hj : j < data.length) : place data j ∈ data := by
  have hlen : j < (data.insertionSort (· ≤ ·)).length := by rwa [List.length_insertionSort]
  rw [place_getElem data j hlen]
  exact (sorted_perm data).mem_iff.mp (List.getElem_mem hlen)

theorem place_step (j : ℕ) (hj : j < data.length-1) : place data j ≤ place data (j+1) := by
  have hlen : (data.insertionSort (· ≤ ·)).length = data.length := List.length_insertionSort _ _
  have hlater : j+1 < (data.insertionSort (· ≤ ·)).length := by omega
  rw [place_getElem data j (by omega), place_getElem data (j+1) hlater]
  exact List.pairwise_iff_getElem.mp (List.pairwise_insertionSort _ _) j (j+1) _ _
    (Nat.lt_succ_self j)

theorem count_le_place (j : ℕ) (hj : j < data.length) (r : K) (h : place data j ≤ r) :
    j < data.countP (· ≤ r) := by
  have hlen : j < (data.insertionSort (· ≤ ·)).length := by rwa [List.length_insertionSort]
  rw [← (sorted_perm data).countP_eq]
  apply (getElem_le_iff _ (List.pairwise_insertionSort _ _) j hlen r).mp
  rwa [← place_getElem data j hlen]

theorem count_place_le (j : ℕ) (hj : j < data.length) (r : K) (h : r ≤ place data j) :
    data.length-j ≤ data.countP (r ≤ ·) := by
  have hlen : j < (data.insertionSort (· ≤ ·)).length := by rwa [List.length_insertionSort]
  have hsorted := List.pairwise_insertionSort (· ≤ ·) data
  rw [place_getElem data j hlen] at h
  have hall : ∀ y ∈ (data.insertionSort (· ≤ ·)).drop j, decide (r ≤ y) = true := by
    intro y hy
    obtain ⟨k, hk, rfl⟩ := List.mem_drop_iff_getElem.mp hy
    apply decide_eq_true
    rcases Nat.eq_zero_or_pos k with rfl | hpos
    · exact h
    · exact h.trans (List.pairwise_iff_getElem.mp hsorted j (j+k) _ _ (by omega))
  have hdrop := List.countP_eq_length.mpr hall
  rw [List.length_drop, List.length_insertionSort] at hdrop
  rw [← hdrop, ← (sorted_perm data).countP_eq]
  exact (List.drop_sublist j _).countP_le

/-- A value between the places that a quantile lies between splits the sample as it does. -/
theorem splits_of_place (hn : 0 < n) (hi : i ≤ n) (hd : data ≠ []) (r : K)
    (hlow : place data (i*(data.length-1)/n) ≤ r)
    (hpoint : i*(data.length-1)%n = 0 → r ≤ place data (i*(data.length-1)/n))
    (hhigh : i*(data.length-1)%n ≠ 0 → r ≤ place data (i*(data.length-1)/n+1)) :
    Splits n i data r := by
  have hpos : 0 < data.length := List.length_pos_of_ne_nil hd
  have hprod : i*(data.length-1) ≤ n*(data.length-1) := Nat.mul_le_mul_right _ hi
  have hdm := Nat.div_add_mod (i*(data.length-1)) n
  have hmod := Nat.mod_lt (i*(data.length-1)) hn
  have hplace : i*(data.length-1)/n ≤ data.length-1 := Nat.div_le_of_le_mul hprod
  have hbelow := count_le_place data _ (by omega) r hlow
  have hrest : (n-i)*(data.length-1) = n*(data.length-1)-i*(data.length-1) := Nat.sub_mul _ _ _
  constructor
  · have hmul := Nat.mul_le_mul_left n (Nat.succ_le_of_lt hbelow)
    rw [Nat.mul_succ] at hmul
    omega
  · rw [hrest]
    by_cases h : i*(data.length-1)%n = 0
    · have habove := count_place_le data _ (by omega) r (hpoint h)
      have hmul := Nat.mul_le_mul_left n habove
      rw [Nat.mul_sub] at hmul
      have hone : n*(data.length-1)+n = n*data.length := by
        rw [← Nat.mul_succ]
        congr 1
        omega
      omega
    · have hlt : i*(data.length-1)/n < data.length-1 := by
        apply lt_of_le_of_ne hplace
        intro he
        rw [he] at hdm
        omega
      have habove := count_place_le data _ (by omega) r (hhigh h)
      have hmul := Nat.mul_le_mul_left n habove
      rw [Nat.mul_sub, Nat.mul_succ] at hmul
      have hone : n*(data.length-1)+n = n*data.length := by
        rw [← Nat.mul_succ]
        congr 1
        omega
      omega

omit [Field K] in
theorem Splits.bounds {r : K} (h : Splits n i data r) (low high : K)
    (hb : ∀ y ∈ data, low ≤ y ∧ y ≤ high) : low ≤ r ∧ r ≤ high := by
  have hbelow : 0 < data.countP (· ≤ r) := Nat.pos_of_mul_pos_left (Nat.zero_lt_of_lt h.1)
  have habove : 0 < data.countP (r ≤ ·) := Nat.pos_of_mul_pos_left (Nat.zero_lt_of_lt h.2)
  obtain ⟨y, hy, hyr⟩ := List.countP_pos_iff.mp hbelow
  obtain ⟨z, hz, hrz⟩ := List.countP_pos_iff.mp habove
  exact ⟨(hb y hy).1.trans (of_decide_eq_true hyr), (of_decide_eq_true hrz).trans (hb z hz).2⟩

section Order
variable [IsStrictOrderedRing K]

theorem quantile_mono (k : ℕ) (hn : 0 < n) (h : i ≤ k) (hk : k ≤ n) :
    quantile n i data ≤ quantile n k data := by
  rw [quantile_eq, quantile_eq]
  exact interpolate_mono n (data.length-1) (place data) hn (place_step data) _ _
    (Nat.mul_le_mul_right _ h) (by
      rw [Nat.mul_comm]
      exact Nat.mul_le_mul_left _ hk)

variable (hn : 0 < n) (hi : i ≤ n) (hd : data ≠ [])
include hn hi hd

/-- A quantile, read off by a monotone map that keeps the sample, splits the sample. -/
theorem quantile_splits (f : K → K) (hf : Monotone f) (hid : ∀ y ∈ data, f y = y) :
    Splits n i data (f (quantile n i data)) := by
  have hpos : 0 < data.length := List.length_pos_of_ne_nil hd
  have hle : i*(data.length-1) ≤ (data.length-1)*n := by
    rw [Nat.mul_comm]
    exact Nat.mul_le_mul_left _ hi
  have hplace : i*(data.length-1)/n ≤ data.length-1 :=
    Nat.div_le_of_le_mul (by rwa [Nat.mul_comm n])
  have hkept : f (place data (i*(data.length-1)/n)) = place data (i*(data.length-1)/n) :=
    hid _ (place_mem data _ (by omega))
  rw [quantile_eq]
  apply splits_of_place n i data hn hi hd
  · rw [← hkept]
    exact hf (point_le n (data.length-1) (place data) hn (place_step data) _ hle)
  · intro h
    rw [interpolate_point n _ hn _ h, hkept]
  · intro h
    have hlt : i*(data.length-1)/n < data.length-1 := by
      apply lt_of_le_of_ne hplace
      intro he
      have hdm := Nat.div_add_mod (i*(data.length-1)) n
      rw [he, Nat.mul_comm n] at hdm
      omega
    rw [← hid _ (place_mem data (i*(data.length-1)/n+1) (by omega))]
    exact hf (interpolate_between n _ hn _ (place_step data _ hlt)).2

end Order

end Sample

end Library.Quantiles
