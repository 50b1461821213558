import InferenceX.HubEstimates

/-!
# Weights at different precisions

Of the parameters of a model the embeddings keep two bytes each, and the others
have the bytes of the quantization. So an estimate grows with the precision,
also where it passes from the quantized formula to the plain one, and lies
between that of the quantization alone and two bytes for all.
-/

set_option autoImplicit false

namespace InferenceX.WeightPrecision
open Library.JsonText Library.CharClasses
open InferenceX.PythonValues InferenceX.JsonAccess InferenceX.VllmPoolConfig
open InferenceX.HubEstimates

def NonNegativeConfig (k : CharTable) (config : HfConfig) : Prop :=
  ∀ name ∈ sizeNames, ∀ value n, member name config = some value → toInt k value = .ok n → 0 ≤ n

def NonNegative (hub : Hub) : Prop :=
  ∀ path config, hub.autoConfig path = some config → NonNegativeConfig hub.classes config

/-- The estimate for the path is derived from `P` parameters. -/
def Counted (hub : Hub) (path : String) (P : ℤ) : Prop :=
  ∃ found, paramCount hub path (hfConfigDict hub path) = .ok found ∧ truthy found = true ∧
    toInt hub.classes found = .ok P

section Counts
variable {k : CharTable} {config : HfConfig} (h : NonNegativeConfig k config)
include h

theorem firstTruthy_nonneg (names : List String) (hn : ∀ name ∈ names, name ∈ sizeNames)
    (fallback : Json) (hf : ∀ n, toInt k fallback = .ok n → 0 ≤ n) (n : ℤ)
    (hr : toInt k (firstTruthy config fallback names) = .ok n) : 0 ≤ n := by
  rcases firstTruthy_source config fallback names with heq | ⟨name, hname, hm, -⟩
  · exact hf n (heq ▸ hr)
  · exact h name (hn name hname) _ n hm hr

theorem readInt_nonneg (names : List String) (hn : ∀ name ∈ names, name ∈ sizeNames)
    (fallback : ℤ) (hf : 0 ≤ fallback) (n : ℤ) (hr : readInt k config names fallback = .ok n) :
    0 ≤ n := by
  apply firstTruthy_nonneg h names hn (.int fallback) _ n hr
  intro m hm
  exact Except.ok.inj hm ▸ hf

theorem parameterCountFromArch_nonneg (n : ℤ) (hr : parameterCountFromArch k config = .ok n) :
    0 ≤ n := by
  obtain ⟨hidden, hh, hr⟩ := bind_ok hr
  obtain ⟨layers, hl, hr⟩ := bind_ok hr
  obtain ⟨vocab, hv, hr⟩ := bind_ok hr
  obtain ⟨inner, hi, hr⟩ := bind_ok hr
  have hh0 := readInt_nonneg h _ (by decide) 4096 (by simp) hidden hh
  have hl0 := readInt_nonneg h _ (by decide) 32 (by simp) layers hl
  have hv0 := readInt_nonneg h _ (by decide) 32000 (by simp) vocab hv
  have hi0 := readInt_nonneg h _ (by decide) (hidden*4) (by positivity) inner hi
  rw [← Except.ok.inj hr]
  positivity

theorem embeddingParamCount_bounds (P e : ℤ) (hP : 0 ≤ P)
    (hr : embeddingParamCount k (some config) P = .ok e) : 0 ≤ e ∧ e ≤ P := by
  cases config with
  | nil =>
    obtain rfl := Except.ok.inj hr
    exact ⟨le_refl 0, hP⟩
  | cons m members =>
    obtain ⟨hidden, hh, hr⟩ := bind_ok hr
    obtain ⟨vocab, hv, hr⟩ := bind_ok hr
    have hh0 := readInt_nonneg h _ (by decide) 0 (le_refl 0) hidden hh
    have hv0 := readInt_nonneg h _ (by decide) 0 (le_refl 0) vocab hv
    split_ifs at hr
    · obtain rfl := Except.ok.inj hr
      exact ⟨le_refl 0, hP⟩
    all_goals
      rw [← Except.ok.inj hr]
      exact ⟨le_min (by positivity) hP, min_le_right _ _⟩

end Counts

theorem bytesPerParam_le (quantization : Option String) : bytesPerParam quantization ≤ 2 := by
  have htable : ∀ p ∈ quantBytesPerParam, p.2 ≤ 2 := by decide +kernel
  unfold bytesPerParam
  split
  · exact le_refl 2
  split
  · exact le_refl 2
  dsimp only
  split
  · exact htable _ (List.mem_of_find?_eq_some ‹_›)
  split
  · exact htable _ (List.mem_of_find?_eq_some ‹_›)
  · exact le_refl 2

section Estimates
variable {hub : Hub} (hn : NonNegative hub) (path : String)
include hn

theorem config_nonneg (config : HfConfig) (hc : hfConfigDict hub path = some config) :
    NonNegativeConfig hub.classes config := by
  rw [hfConfigDict] at hc
  split_ifs at hc
  exact hn path config hc

theorem counted_nonneg (P : ℤ) (h : Counted hub path P) : 0 ≤ P := by
  obtain ⟨found, hfound, htrue, hP⟩ := h
  cases hname : paramsFromNameOrPath hub path with
  | some n =>
    obtain ⟨text, -, ht⟩ := List.exists_of_findSome?_eq_some hname
    simp only [paramCount, hname] at hfound
    obtain rfl := Except.ok.inj hfound
    exact Except.ok.inj hP ▸ paramsHere_nonneg hub text n ht
  | none =>
    simp only [paramCount, hname] at hfound
    cases hc : hfConfigDict hub path with
    | none =>
      rw [hc] at hfound
      obtain rfl := Except.ok.inj hfound
      cases htrue
    | some config =>
      have hconfig := config_nonneg hn path config hc
      rw [hc] at hfound
      cases config with
      | nil =>
        obtain rfl := Except.ok.inj hfound
        cases htrue
      | cons m members =>
        dsimp only at hfound
        split_ifs at hfound
        · obtain rfl := Except.ok.inj hfound
          apply firstTruthy_nonneg hconfig _ (by decide) _ _ P hP
          intro n hread
          cases hm : member "n_params" (m::members) with
          | none =>
            rw [hm] at hread
            cases hread
          | some value =>
            rw [hm] at hread
            exact hconfig "n_params" (by decide) value n hm hread
        · obtain ⟨count, hcount, rfl⟩ := map_ok hfound
          exact Except.ok.inj hP ▸ parameterCountFromArch_nonneg hconfig count hcount

theorem embeddings_bounds (P e : ℤ) (hP : 0 ≤ P)
    (h : embeddingParamCount hub.classes (hfConfigDict hub path) P = .ok e) : 0 ≤ e ∧ e ≤ P := by
  cases hc : hfConfigDict hub path with
  | none =>
    rw [hc] at h
    obtain rfl := Except.ok.inj h
    exact ⟨le_refl 0, hP⟩
  | some config =>
    rw [hc] at h
    exact embeddingParamCount_bounds (config_nonneg hn path config hc) P e hP h

end Estimates

theorem estimate_cases (hub : Hub) (path : String) (q : Option String) (w : ℚ)
    (h : estimateWeightGib hub path q = .ok w) :
    (∃ found, paramCount hub path (hfConfigDict hub path) = .ok found ∧ truthy found = false ∧
        w = defaultWeightGib) ∨ ∃ P, Counted hub path P := by
  obtain ⟨found, hfound, h⟩ := bind_ok h
  split_ifs at h with htrue
  · exact Or.inl ⟨found, hfound, htrue, (Except.ok.inj h).symm⟩
  · obtain ⟨P, hP, -⟩ := bind_ok h
    exact Or.inr ⟨P, found, hfound, Bool.eq_true_of_not_eq_false htrue, hP⟩

/-- The plain formula prices all parameters alike, the quantized one all but the
embeddings. -/
theorem estimate_counted (hub : Hub) (path : String) (q : Option String) (w : ℚ) (P : ℤ)
    (h : estimateWeightGib hub path q = .ok w) (hP : Counted hub path P) :
    (bytesPerParam q = 2 ∧ w*gib = P*2) ∨
      (bytesPerParam q < 2 ∧ ∃ e,
        embeddingParamCount hub.classes (hfConfigDict hub path) P = .ok e ∧
        w*gib = (P-e)*bytesPerParam q+e*2) := by
  have hgib : gib ≠ 0 := by unfold gib; positivity
  obtain ⟨found, hfound, htrue, hread⟩ := hP
  obtain ⟨found', hfound', h⟩ := bind_ok h
  obtain rfl := Except.ok.inj (hfound.symm.trans hfound')
  rw [if_neg (by simp [htrue])] at h
  obtain ⟨P', hP', h⟩ := bind_ok h
  obtain rfl := Except.ok.inj (hread.symm.trans hP')
  dsimp only at h
  split_ifs at h with hfull
  · have htwo : bytesPerParam q = 2 := le_antisymm (bytesPerParam_le q) hfull
    rw [← Except.ok.inj h, htwo, div_mul_cancel₀ _ hgib]
    exact Or.inl ⟨rfl, rfl⟩
  · obtain ⟨e, he, h⟩ := bind_ok h
    refine Or.inr ⟨not_le.mp hfull, e, he, ?_⟩
    rw [← Except.ok.inj h, div_mul_cancel₀ _ hgib, defaultBytesPerParam]
    push_cast
    rfl

/-- The price of all parameters, of which some have two bytes each. -/
theorem price_bounds (P e b b' : ℚ) (he : 0 ≤ e ∧ e ≤ P) (hb : b ≤ b') :
    (P-e)*b+e*2 ≤ (P-e)*b'+e*2 := by
  have hrest : 0 ≤ P-e := sub_nonneg.mpr he.2
  linarith [mul_le_mul_of_nonneg_left hb hrest]

section Precision
variable {hub : Hub} (hn : NonNegative hub) (path : String)
include hn

theorem estimate_between (q : Option String) (w : ℚ) (P : ℤ)
    (h : estimateWeightGib hub path q = .ok w) (hP : Counted hub path P) :
    bytesPerParam q*P ≤ w*gib ∧ w*gib ≤ 2*P := by
  have hP0 := counted_nonneg hn path P hP
  rcases estimate_counted hub path q w P h hP with ⟨htwo, hw⟩ | ⟨hcheap, e, he, hw⟩
  · rw [hw, htwo, mul_comm]
    exact ⟨le_refl _, le_refl _⟩
  · obtain ⟨he0, heP⟩ := embeddings_bounds hn path P e hP0 he
    have hbounds : (0 : ℚ) ≤ e ∧ (e : ℚ) ≤ P := ⟨by exact_mod_cast he0, by exact_mod_cast heP⟩
    have hupper := price_bounds P e _ 2 hbounds hcheap.le
    have hlower := mul_le_mul_of_nonneg_left hcheap.le hbounds.1
    rw [hw]
    constructor
    · linarith
    · linarith

theorem estimate_mono (q q' : Option String) (hq : bytesPerParam q ≤ bytesPerParam q') (w w' : ℚ)
    (h : estimateWeightGib hub path q = .ok w) (h' : estimateWeightGib hub path q' = .ok w') :
    w ≤ w' := by
  have hgib : 0 < gib := by unfold gib; positivity
  rcases estimate_cases hub path q w h with ⟨found, hfound, hfalse, rfl⟩ | ⟨P, hP⟩
  · rcases estimate_cases hub path q' w' h' with ⟨-, -, -, rfl⟩ | ⟨P, found', hfound', htrue, -⟩
    · exact le_refl _
    · obtain rfl := Except.ok.inj (hfound.symm.trans hfound')
      exact absurd htrue (by simp [hfalse])
  · have hP0 := counted_nonneg hn path P hP
    apply le_of_mul_le_mul_right _ hgib
    rcases estimate_counted hub path q' w' P h' hP with ⟨htwo', hw'⟩ | ⟨hcheap', e', he', hw'⟩
    · -- Two bytes for all is the most there is.
      rw [hw', mul_comm (P : ℚ)]
      exact (estimate_between hn path q w P h hP).2
    · rcases estimate_counted hub path q w P h hP with ⟨htwo, -⟩ | ⟨-, e, he, hw⟩
      · exact absurd (htwo ▸ hq) (not_le.mpr hcheap')
      · obtain rfl := Except.ok.inj (he.symm.trans he')
        obtain ⟨he0, heP⟩ := embeddings_bounds hn path P e hP0 he
        rw [hw, hw']
        exact price_bounds P e _ _ ⟨by exact_mod_cast he0, by exact_mod_cast heP⟩ hq

/-- Estimates grow with the bytes of the quantization. One that is derived from
a number of parameters lies between the bytes of the quantization and two bytes
for each, and prices the embeddings, no more than there are parameters, at two
bytes. Where the hub gives its sizes as natural numbers, there is an estimate. -/
theorem weights_respect_precision :
    (∀ q q', bytesPerParam q ≤ bytesPerParam q' → ∀ w w',
      estimateWeightGib hub path q = .ok w → estimateWeightGib hub path q' = .ok w' → w ≤ w') ∧
    (∀ q w P, estimateWeightGib hub path q = .ok w → Counted hub path P →
      bytesPerParam q*P ≤ w*gib ∧ w*gib ≤ 2*P ∧ (bytesPerParam q < 2 →
        ∃ e, embeddingParamCount hub.classes (hfConfigDict hub path) P = .ok e ∧ 0 ≤ e ∧ e ≤ P ∧
          w*gib = (P-e)*bytesPerParam q+e*2)) ∧
    (Sized hub → ∀ q, ∃ w, estimateWeightGib hub path q = .ok w) := by
  refine ⟨fun q q' hq w w' => estimate_mono hn path q q' hq w w', fun q w P h hP => ?_,
    fun hs q => ?_⟩
  · obtain ⟨hlower, hupper⟩ := estimate_between hn path q w P h hP
    refine ⟨hlower, hupper, fun hcheap => ?_⟩
    rcases estimate_counted hub path q w P h hP with ⟨htwo, -⟩ | ⟨-, e, he, hw⟩
    · exact absurd htwo hcheap.ne
    · obtain ⟨he0, heP⟩ := embeddings_bounds hn path P e (counted_nonneg hn path P hP) he
      exact ⟨e, he, he0, heP, hw⟩
  · obtain ⟨w, -, hw⟩ := estimateWeightGib_sized hub hs path q
    exact ⟨w, hw⟩

end Precision

def untiedHub : Hub where
  autoConfig _ := some [("hidden_size", .int 3584), ("vocab_size", .int 152064),
    ("tie_word_embeddings", .bool false)]
  classes := Library.CharClasses.ascii

theorem untiedHub_sized : Sized untiedHub := by
  intro path config hc name hname value hm
  obtain rfl := Option.some.inj hc
  simp only [sizeNames, List.mem_cons, List.not_mem_nil, or_false] at hname
  rcases hname with rfl | rfl | rfl | rfl | rfl | rfl | rfl | rfl | rfl <;> simp [member] at hm
  · exact Or.inr ⟨3584, hm.symm⟩
  · exact Or.inr ⟨152064, hm.symm⟩

theorem sized_nonNegative (hub : Hub) (h : Sized hub) : NonNegative hub := by
  intro path config hc name hname value n hm hn
  rcases h path config hc name hname value hm with rfl | ⟨m, rfl⟩
  · cases hn
  · exact Except.ok.inj hn ▸ Int.natCast_nonneg m

/-- A quantized checkpoint of seven billion parameters and the plain one. -/
theorem awq_below_plain : ∃ w w',
    estimateWeightGib untiedHub "Qwen/Qwen2.5-7B-Instruct-AWQ" (some "awq") = .ok w ∧
      estimateWeightGib untiedHub "Qwen/Qwen2.5-7B-Instruct-AWQ" none = .ok w' ∧ w ≤ w' := by
  obtain ⟨hmono, -, htotal⟩ := weights_respect_precision
    (sized_nonNegative untiedHub untiedHub_sized) "Qwen/Qwen2.5-7B-Instruct-AWQ"
  obtain ⟨w, hw⟩ := htotal untiedHub_sized (some "awq")
  obtain ⟨w', hw'⟩ := htotal untiedHub_sized none
  have hbytes : bytesPerParam (some "awq") ≤ bytesPerParam none := by decide +kernel
  exact ⟨w, w', hw, hw', hmono _ _ hbytes w w' hw hw'⟩

end InferenceX.WeightPrecision
