import InferenceX.VllmPoolConfig

/-!
# Estimates from a well-formed hub

A configuration of the hub gives its sizes as natural numbers where it gives
them. Then no estimate raises, every weight estimate is positive, and the
footprint lies above the weights.
-/

set_option autoImplicit false

namespace InferenceX.HubEstimates
open Library.JsonText Library.CharClasses
open InferenceX.PythonValues InferenceX.JsonAccess InferenceX.VllmPoolConfig

def sizeNames : List String :=
  ["num_parameters", "n_params", "hidden_size", "n_embd", "num_hidden_layers", "n_layer",
    "num_layers", "vocab_size", "intermediate_size"]

def SizedConfig (config : HfConfig) : Prop :=
  ∀ name ∈ sizeNames, ∀ value, member name config = some value →
    value = .null ∨ ∃ n : ℕ, value = .int n

/-- Every configuration of the hub has sizes for its sizes. -/
def Sized (hub : Hub) : Prop :=
  ∀ path config, hub.autoConfig path = some config → SizedConfig config

/-- What is taken from a configuration is the fallback or a true member of one of the names. -/
theorem firstTruthy_source (config : HfConfig) (fallback : Json) (names : List String) :
    firstTruthy config fallback names = fallback ∨
      ∃ name ∈ names, member name config = some (firstTruthy config fallback names) ∧
        truthy (firstTruthy config fallback names) = true := by
  induction names with
  | nil => exact Or.inl rfl
  | cons name names ih =>
    rw [firstTruthy]
    split_ifs with ht
    · cases hm : member name config with
      | none =>
        rw [hm] at ht
        cases ht
      | some value =>
        rw [hm] at ht
        exact Or.inr ⟨name, List.mem_cons_self, hm, ht⟩
    · rcases ih with hf | ⟨other, ho, h⟩
      · exact Or.inl hf
      · exact Or.inr ⟨other, List.mem_cons_of_mem name ho, h⟩

section Sizes
variable (k : CharTable) {config : HfConfig} (h : SizedConfig config)
include h

theorem firstTruthy_sized (names : List String) (hn : ∀ name ∈ names, name ∈ sizeNames)
    (fallback : Json) :
    firstTruthy config fallback names = fallback ∨
      ∃ n : ℕ, firstTruthy config fallback names = .int n := by
  rcases firstTruthy_source config fallback names with hf | ⟨name, hname, hm, ht⟩
  · exact Or.inl hf
  · rcases h name (hn name hname) _ hm with heq | ⟨n, heq⟩
    · rw [heq] at ht
      cases ht
    · exact Or.inr ⟨n, heq⟩

theorem readInt_sized (names : List String) (hn : ∀ name ∈ names, name ∈ sizeNames)
    (fallback : ℤ) (hf : 0 ≤ fallback) : ∃ n, 0 ≤ n ∧ readInt k config names fallback = .ok n := by
  rw [readInt]
  rcases firstTruthy_sized h names hn (.int fallback) with heq | ⟨n, heq⟩
  · exact ⟨fallback, hf, by rw [heq]; rfl⟩
  · exact ⟨n, Int.natCast_nonneg n, by rw [heq]; rfl⟩

theorem parameterCountFromArch_sized : ∃ n, 0 ≤ n ∧ parameterCountFromArch k config = .ok n := by
  obtain ⟨hidden, hh0, hh⟩ := readInt_sized k h ["hidden_size", "n_embd"] (by decide) 4096 (by simp)
  obtain ⟨layers, hl0, hl⟩ := readInt_sized k h layerNames (by decide) 32 (by simp)
  obtain ⟨vocab, hv0, hv⟩ := readInt_sized k h ["vocab_size"] (by decide) 32000 (by simp)
  obtain ⟨inner, hi0, hi⟩ := readInt_sized k h ["intermediate_size"] (by decide) (hidden*4)
    (by positivity)
  refine ⟨layers*(12*hidden*hidden+13*hidden*inner)+vocab*hidden, by positivity, ?_⟩
  simp only [parameterCountFromArch, hh, hl, hv, hi, bind, Except.bind]
  rfl

theorem embeddingParamCount_sized (total : ℤ) (ht : 0 ≤ total) :
    ∃ n, 0 ≤ n ∧ n ≤ total ∧ embeddingParamCount k (some config) total = .ok n := by
  obtain ⟨hidden, hh0, hh⟩ := readInt_sized k h ["hidden_size", "n_embd"] (by decide) 0 (le_refl 0)
  obtain ⟨vocab, hv0, hv⟩ := readInt_sized k h ["vocab_size"] (by decide) 0 (le_refl 0)
  cases config with
  | nil => exact ⟨0, le_refl 0, ht, rfl⟩
  | cons m members =>
    simp only [embeddingParamCount, hh, hv, bind, Except.bind]
    split_ifs with hzero htied
    · exact ⟨0, le_refl 0, ht, rfl⟩
    · exact ⟨_, le_min (by positivity) ht, min_le_right _ _, rfl⟩
    · exact ⟨_, le_min (by positivity) ht, min_le_right _ _, rfl⟩

theorem estimateKvCacheGib_config (hub : Hub) (path : String)
    (hc : hfConfigDict hub path = some config) (window : ℤ) (hw : 0 ≤ window) :
    ∃ kv, 0 ≤ kv ∧ estimateKvCacheGib hub path window = .ok kv := by
  obtain ⟨hidden, hh0, hh⟩ :=
    readInt_sized hub.classes h ["hidden_size", "n_embd"] (by decide) 4096 (by simp)
  obtain ⟨layers, hl0, hl⟩ := readInt_sized hub.classes h layerNames (by decide) 32 (by simp)
  have hw' : (0 : ℚ) ≤ window := by exact_mod_cast hw
  rw [estimateKvCacheGib, hc]
  cases config with
  | nil => exact ⟨_, by unfold defaultKvGib; positivity, rfl⟩
  | cons m members =>
    simp only [hh, hl, bind, Except.bind]
    refine ⟨_, ?_, rfl⟩
    have hcells : (0 : ℚ) ≤ (2*layers*hidden*window : ℤ) := by exact_mod_cast (by positivity)
    unfold defaultBytesPerParam gib
    positivity

end Sizes

theorem quantBytesPerParam_pos : ∀ p ∈ quantBytesPerParam, 0 < p.2 := by
  decide +kernel

theorem bytesPerParam_pos (quantization : Option String) : 0 < bytesPerParam quantization := by
  have hdefault : 0 < defaultBytesPerParam := by decide +kernel
  unfold bytesPerParam
  split
  · exact hdefault
  split
  · exact hdefault
  dsimp only
  split
  · exact quantBytesPerParam_pos _ (List.mem_of_find?_eq_some ‹_›)
  split
  · exact quantBytesPerParam_pos _ (List.mem_of_find?_eq_some ‹_›)
  · exact hdefault

theorem truncate_nonneg (q : ℚ) (h : 0 ≤ q) : 0 ≤ truncate q := by
  rw [truncate_of_nonneg q h]
  exact Int.floor_nonneg.mpr h

theorem factor_nonneg (x : ℚ) (factor : Option ℕ) (n : ℤ) (hx : 0 ≤ x)
    (h : Option.map (fun f : ℚ => truncate (x*f)) (factor >>= fun f => pure (f : ℚ)) = some n) :
    0 ≤ n := by
  cases factor with
  | none => cases h
  | some f =>
    obtain rfl : truncate (x*f) = n := Option.some.inj h
    exact truncate_nonneg _ (mul_nonneg hx (Nat.cast_nonneg f))

theorem paramsHere_nonneg (hub : Hub) (text : List Char) (n : ℤ)
    (h : paramsHere hub text = some n) : 0 ≤ n := by
  unfold paramsHere at h
  split at h
  · cases h
  split at h
  · split at h
    · cases h
    · exact factor_nonneg _ _ n (by positivity) h
  · exact factor_nonneg _ _ n (by positivity) h

theorem hfConfigDict_sized (hub : Hub) (hs : Sized hub) (path : String) (config : HfConfig)
    (h : hfConfigDict hub path = some config) : SizedConfig config := by
  rw [hfConfigDict] at h
  split_ifs at h
  exact hs path config h

theorem paramCount_sized (hub : Hub) (hs : Sized hub) (path : String) :
    paramCount hub path (hfConfigDict hub path) = .ok .null ∨
      ∃ n, 0 ≤ n ∧ paramCount hub path (hfConfigDict hub path) = .ok (.int n) := by
  cases hn : paramsFromNameOrPath hub path with
  | some n =>
    obtain ⟨text, -, ht⟩ := List.exists_of_findSome?_eq_some hn
    exact Or.inr ⟨n, paramsHere_nonneg hub text n ht, by simp only [paramCount, hn]⟩
  | none =>
    cases hc : hfConfigDict hub path with
    | none => exact Or.inl (by simp only [paramCount, hn])
    | some config =>
      have hsized := hfConfigDict_sized hub hs path config hc
      cases config with
      | nil => exact Or.inl (by simp only [paramCount, hn])
      | cons m members =>
        obtain ⟨count, hcount, harch⟩ := parameterCountFromArch_sized hub.classes hsized
        simp only [paramCount, hn]
        right
        split_ifs with ht
        · rcases firstTruthy_sized hsized ["num_parameters"] (by decide)
            ((member "n_params" (m::members)).getD .null) with heq | ⟨n, heq⟩
          · rw [heq] at ht ⊢
            cases hp : member "n_params" (m::members) with
            | none =>
              rw [hp] at ht
              cases ht
            | some value =>
              rcases hsized "n_params" (by decide) value hp with rfl | ⟨n, rfl⟩
              · rw [hp] at ht
                cases ht
              · exact ⟨n, Int.natCast_nonneg n, rfl⟩
          · exact ⟨n, Int.natCast_nonneg n, by rw [heq]⟩
        · exact ⟨count, hcount, by rw [harch]; rfl⟩

section Weights
variable (hub : Hub) (hs : Sized hub) (path : String) (quantization : Option String)
include hs

theorem embeddings_sized (total : ℤ) (ht : 0 ≤ total) :
    ∃ n, 0 ≤ n ∧ n ≤ total ∧
      embeddingParamCount hub.classes (hfConfigDict hub path) total = .ok n := by
  cases hc : hfConfigDict hub path with
  | none => exact ⟨0, le_refl 0, ht, rfl⟩
  | some config =>
    exact embeddingParamCount_sized hub.classes (hfConfigDict_sized hub hs path config hc) total ht

theorem estimateWeightGib_sized : ∃ w, 0 < w ∧ estimateWeightGib hub path quantization = .ok w := by
  have hgib : 0 < gib := by unfold gib; positivity
  have hprice := bytesPerParam_pos quantization
  rcases paramCount_sized hub hs path with hc | ⟨n, hn, hc⟩
  · exact ⟨defaultWeightGib, by decide +kernel, by simp only [estimateWeightGib, hc]; rfl⟩
  by_cases hzero : n = 0
  · refine ⟨defaultWeightGib, by decide +kernel, ?_⟩
    simp only [estimateWeightGib, hc, hzero]
    rfl
  have hpos : (0 : ℚ) < n := by exact_mod_cast lt_of_le_of_ne hn (Ne.symm hzero)
  obtain ⟨e, he, hle, hembed⟩ := embeddings_sized hub hs path n hn
  have htrue : truthy (.int n) = true := by simpa [truthy] using hzero
  have hint : toInt hub.classes (.int n) = .ok n := rfl
  simp only [estimateWeightGib, hc, bind, Except.bind, htrue, hint, hembed]
  by_cases hfull : bytesPerParam quantization ≥ defaultBytesPerParam
  · exact ⟨n*bytesPerParam quantization/gib, by positivity, by simp [hfull]; rfl⟩
  · refine ⟨((n-e : ℤ)*bytesPerParam quantization+e*defaultBytesPerParam)/gib, ?_,
      by simp [hfull]; rfl⟩
    have he' : (0 : ℚ) ≤ e := by exact_mod_cast he
    have hcheap := not_le.mp hfull
    apply div_pos _ hgib
    push_cast
    nlinarith

theorem estimateKvCacheGib_sized (window : ℤ) (hw : 0 ≤ window) :
    ∃ kv, 0 ≤ kv ∧ estimateKvCacheGib hub path window = .ok kv := by
  cases hc : hfConfigDict hub path with
  | none =>
    have hw' : (0 : ℚ) ≤ window := by exact_mod_cast hw
    refine ⟨defaultKvGib*(window/2048), ?_, by rw [estimateKvCacheGib, hc]⟩
    unfold defaultKvGib
    positivity
  | some config =>
    exact estimateKvCacheGib_config (hfConfigDict_sized hub hs path config hc) hub path hc window hw

theorem estimateEngineFootprintGib_sized (window : ℤ) (hw : 0 ≤ window) :
    ∃ f, estimateEngineFootprintGib hub path quantization window = .ok f := by
  obtain ⟨w, -, hweights⟩ := estimateWeightGib_sized hub hs path quantization
  obtain ⟨kv, -, hkv⟩ := estimateKvCacheGib_sized hub hs path window hw
  simp only [estimateEngineFootprintGib, hweights, hkv, bind, Except.bind]
  exact ⟨_, rfl⟩

end Weights

end InferenceX.HubEstimates
