import InferenceX.UtilizationCap

/-!
# Whether a sized engine holds its weights

The share of an engine is at least its weights' and at most the safe share of
the free memory, since the check in front of the chain puts the first below
the second. Only the headroom of the pool comes behind both: a model whose
weights lie above it is accepted and gets less than its weights.
-/

set_option autoImplicit false

namespace InferenceX.SizingSound
open InferenceX.PythonValues InferenceX.ModelRegistry InferenceX.VllmPoolConfig
open InferenceX.UtilizationCap

theorem headroom_rounded : roundPlaces 4 poolGpuHeadroom = 92/100 := by decide +kernel

section Chain
variable (footprint weights share : ℚ) (cap : Option ℚ)

theorem chain_le_share : chain footprint weights (some share) cap ≤ share :=
  (min_le_left _ _).trans (min_le_right _ _)

theorem chain_le_headroom : chain footprint weights (some share) cap ≤ poolGpuHeadroom :=
  min_le_right _ _

theorem le_chain (h : weights ≤ share) :
    min weights poolGpuHeadroom ≤ chain footprint weights (some share) cap :=
  min_le_min_right _ (le_min (le_max_right _ _) h)

end Chain

section Sizing
variable (hub : Hub) (config : EngineConfig) (weights footprint total free : ℚ)

theorem singleEngineUtilization_eq (htotal : 0 < total)
    (hweights : estimateWeightGib hub config.entry.modelPath config.entry.quantization =
      .ok weights)
    (hfootprint : estimateEngineFootprintGib hub config.entry.modelPath config.entry.quantization
      (windowOf config) = .ok footprint) :
    singleEngineUtilization hub config total (some free) =
      if weights > free*freeVramSafety then
        .error (noRoomError config.entry.name free weights)
      else .ok (roundPlaces 4 (chain (footprint/total) (weights/total)
        (some (freeVramSafety*free/total)) (userUtilCap config))) := by
  have hw : weightsOnlyUtilization hub config.entry.modelPath config.entry.quantization total =
      .ok (weights/total) := by
    rw [weightsOnlyUtilization, if_neg (not_le.mpr htotal), hweights]
    rfl
  have hf : minimumUtilization hub config.entry.modelPath config.entry.quantization
      (windowOf config) total = .ok (footprint/total) := by
    rw [minimumUtilization, if_neg (not_le.mpr htotal), hfootprint]
    rfl
  have hfree : maxFromFree total (some free) = some (freeVramSafety*free/total) := if_pos htotal
  have hcheck : weightsFit hub config total (some free) = (if weights > free*freeVramSafety then
      .error (noRoomError config.entry.name free weights) else .ok ()) := by
    simp only [weightsFit, if_pos htotal, hweights]
    rfl
  rw [singleEngineUtilization, hw, hf, hfree, hcheck]
  split_ifs
  · rfl
  · rfl

/-- The memory handed to the engine holds the weights and keeps to the safe
share of the free memory, to four decimals of the share; and the model is
refused exactly where its weights do not fit the free memory. -/
def SizedSoundly : Prop :=
  (∀ u, singleEngineUtilization hub config total (some free) = .ok u →
    weights ≤ u*total+total/20000 ∧ u*total ≤ 98/100*free+total/20000) ∧
  ((∃ message, singleEngineUtilization hub config total (some free) =
    .error (.valueError message)) ↔ 98/100*free < weights)

/-- Sizing is sound exactly where the weights are refused or fit the headroom
of the pool, to four decimals of the share. -/
theorem sized_soundly_iff (htotal : 0 < total)
    (hweights : estimateWeightGib hub config.entry.modelPath config.entry.quantization =
      .ok weights)
    (hfootprint : estimateEngineFootprintGib hub config.entry.modelPath config.entry.quantization
      (windowOf config) = .ok footprint) :
    SizedSoundly hub config weights total free ↔
      98/100*free < weights ∨ weights ≤ 92/100*total+total/20000 := by
  have heq := singleEngineUtilization_eq hub config weights footprint total free htotal hweights
    hfootprint
  have hsafety : free*freeVramSafety = 98/100*free := mul_comm _ _
  rw [hsafety] at heq
  rw [SizedSoundly, heq]
  by_cases hfull : 98/100*free < weights
  · rw [if_pos hfull]
    exact iff_of_true ⟨by simp, iff_of_true ⟨_, rfl⟩ hfull⟩ (Or.inl hfull)
  rw [if_neg hfull]
  let x := chain (footprint/total) (weights/total) (some (freeVramSafety*free/total))
    (userUtilCap config)
  have hnear := abs_le.mp (roundPlaces_near 4 x)
  norm_num at hnear
  have hshare : weights/total ≤ freeVramSafety*free/total :=
    div_le_div_of_nonneg_right (not_lt.mp hfull) htotal.le
  have hlow : min (weights/total) poolGpuHeadroom ≤ x := le_chain _ _ _ _ hshare
  have hhigh : x*total ≤ 98/100*free := (le_div_iff₀ htotal).mp (chain_le_share _ _ _ _)
  have hhead : roundPlaces 4 x ≤ 92/100 :=
    (roundPlaces_mono 4 (chain_le_headroom _ _ _ _)).trans_eq headroom_rounded
  constructor
  · rintro ⟨hsound, -⟩
    have hu := (hsound _ rfl).1
    refine Or.inr (hu.trans ?_)
    gcongr
  · intro h
    have hfits := h.resolve_left hfull
    refine ⟨fun u hu => ?_, iff_of_false (by simp) hfull⟩
    obtain rfl : roundPlaces 4 x = u := Except.ok.inj hu
    refine ⟨?_, by nlinarith⟩
    rcases min_le_iff.mp hlow with hw | hp
    · have hw' : weights ≤ x*total := (div_le_iff₀ htotal).mp hw
      nlinarith
    · have hp' : 92/100 ≤ roundPlaces 4 x := headroom_rounded.symm.le.trans (roundPlaces_mono 4 hp)
      nlinarith

end Sizing

def bulkyConfig : EngineConfig :=
  modelDump { localEntry .auto with name := "bulky-4b", modelPath := "/models/bulky-4b" }

def bulkyWeights : ℚ := 4000000000*2/gib

theorem bulky_weights : estimateWeightGib localHub bulkyConfig.entry.modelPath
    bulkyConfig.entry.quantization = .ok bulkyWeights := by decide +kernel

theorem bulky_footprint : estimateEngineFootprintGib localHub bulkyConfig.entry.modelPath
    bulkyConfig.entry.quantization (windowOf bulkyConfig) =
      .ok (bulkyWeights+16/10+35/100+45/100) := by decide +kernel

theorem sized_soundly_spacious : SizedSoundly localHub bulkyConfig bulkyWeights 12 11 :=
  (sized_soundly_iff localHub bulkyConfig bulkyWeights _ 12 11 (by norm_num) bulky_weights
    bulky_footprint).mpr (Or.inr (by norm_num [bulkyWeights, gib]))

/-- On a card of 7.8 GiB, all of it free, the model passes the check and its
engine gets less memory than the weights take. -/
theorem sized_below_weights :
    singleEngineUtilization localHub bulkyConfig (78/10) (some (78/10)) = .ok (92/100) ∧
    92/100*(78/10)+78/10/20000 < bulkyWeights ∧
    ¬ SizedSoundly localHub bulkyConfig bulkyWeights (78/10) (78/10) := by
  have hu : singleEngineUtilization localHub bulkyConfig (78/10) (some (78/10)) =
      .ok (92/100) := by decide +kernel
  have hbig : 92/100*(78/10)+78/10/20000 < bulkyWeights := by norm_num [bulkyWeights, gib]
  refine ⟨hu, hbig, fun h => ?_⟩
  exact absurd (h.1 _ hu).1 (not_le.mpr hbig)

end InferenceX.SizingSound
