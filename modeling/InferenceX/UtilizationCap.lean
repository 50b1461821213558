import InferenceX.VllmPoolConfig

/-!
# The utilization ceiling of a tier

No step of the sizing reads the tier's ceiling: the one constant bound of the
chain is the headroom of the pool. So the share of an engine keeps a ceiling
only where some other bound of the chain does. Rounding is monotone and goes
through the chain bound by bound.
-/

set_option autoImplicit false

namespace InferenceX.UtilizationCap
open Library.CharClasses
open InferenceX.PythonValues InferenceX.ModelRegistry InferenceX.VllmPoolConfig

section Chain
variable (r : ℚ → ℚ) (hr : Monotone r) (c : ℚ)
include hr

theorem lowered_le (x : ℚ) (bound : Option ℚ) :
    r (lowered x bound) ≤ c ↔ r x ≤ c ∨ ∃ b ∈ bound, r b ≤ c := by
  cases bound with
  | none => simp [lowered]
  | some b => simp [lowered, hr.map_min]

/-- The chain is low where the free share or the headroom is, or else where
the weights are and one of the other two bounds is. -/
theorem chain_le (footprint weights : ℚ) (fromFree cap : Option ℚ) :
    r (chain footprint weights fromFree cap) ≤ c ↔
      (∃ share ∈ fromFree, r share ≤ c) ∨ r poolGpuHeadroom ≤ c ∨
        (r weights ≤ c ∧ (r footprint ≤ c ∨ ∃ own ∈ cap, r own ≤ c)) := by
  rw [chain, hr.map_min, min_le_iff, lowered_le r hr, hr.map_max, max_le_iff, lowered_le r hr,
    lowered_le r hr]
  by_cases hfree : ∃ share ∈ fromFree, r share ≤ c
  · simp only [hfree, or_true, true_or]
  · simp only [hfree, or_false, false_or]
    rw [or_comm, and_comm]

end Chain

theorem applyTierKnobs_sizing (config : EngineConfig) (tier : Option VramTier) :
    (applyTierKnobs config tier).entry.modelPath = config.entry.modelPath ∧
      (applyTierKnobs config tier).entry.quantization = config.entry.quantization ∧
      windowOf (applyTierKnobs config tier) = windowOf config ∧
      userUtilCap (applyTierKnobs config tier) = userUtilCap config := by
  cases tier <;> exact ⟨rfl, rfl, rfl, rfl⟩

section Sizing
variable (hub : Hub) (config : EngineConfig) (total : ℚ) (free : Option ℚ)

theorem singleEngineUtilization_ok (u : ℚ)
    (h : singleEngineUtilization hub config total free = .ok u) : ∃ weights footprint,
      weightsOnlyUtilization hub config.entry.modelPath config.entry.quantization total =
        .ok weights ∧
      minimumUtilization hub config.entry.modelPath config.entry.quantization (windowOf config)
        total = .ok footprint ∧
      u = roundPlaces 4 (chain footprint weights (maxFromFree total free)
        (userUtilCap config)) := by
  obtain ⟨weights, hw, h⟩ := bind_ok h
  obtain ⟨footprint, hf, h⟩ := bind_ok h
  obtain ⟨-, -, h⟩ := bind_ok h
  exact ⟨weights, footprint, hw, hf, (Except.ok.inj h).symm⟩

theorem scaleModelConfig_ok (scaled : EngineConfig)
    (h : scaleModelConfig hub config total free = .ok scaled) :
    ∃ u, singleEngineUtilization hub config total free = .ok u ∧
      scaled.entry.gpuMemoryUtilization = some (.fixed u) := by
  obtain ⟨u, hu, rfl⟩ := map_ok h
  exact ⟨u, hu, rfl⟩

end Sizing

def Within (ceiling share : ℚ) : Prop := roundPlaces 4 share ≤ roundPlaces 4 ceiling

/-- Some bound of the chain other than the ceiling itself keeps the share of
an entry low: the safe share of the free memory, the headroom of the pool, or
with the weights the footprint or the entry's own cap. -/
def StaysLow (hub : Hub) (entry : ModelEntry) (total : ℚ) (free : Option ℚ) (ceiling : ℚ) : Prop :=
  (∃ share ∈ maxFromFree total free, Within ceiling share) ∨ Within ceiling poolGpuHeadroom ∨
    ((∃ weights, weightsOnlyUtilization hub entry.modelPath entry.quantization total = .ok weights ∧
        Within ceiling weights) ∧
      ((∃ footprint, minimumUtilization hub entry.modelPath entry.quantization
          (windowOf (modelDump entry)) total = .ok footprint ∧ Within ceiling footprint) ∨
        ∃ own ∈ userUtilCap (modelDump entry), Within ceiling own))

/-- The share an engine is built with keeps the ceiling of its tier exactly
where one of the other bounds does. -/
theorem utilization_ceiling_iff (hub : Hub) (entry : ModelEntry) (tier : VramTier)
    (probe again : Probe) (config : EngineConfig)
    (h : prepareEngine hub entry (some tier) probe again = .ok config) :
    ∃ u, config.entry.gpuMemoryUtilization = some (.fixed u) ∧
      (u ≤ roundPlaces 4 tier.gpuMemoryUtilizationCeiling ↔
        StaysLow hub entry (engineTotal probe again) probe.free
          tier.gpuMemoryUtilizationCeiling) := by
  obtain ⟨-, -, h⟩ := bind_ok h
  obtain ⟨u, hu, hconfig⟩ := scaleModelConfig_ok hub _ _ _ config h
  obtain ⟨weights, footprint, hw, hf, rfl⟩ := singleEngineUtilization_ok hub _ _ _ u hu
  obtain ⟨hpath, hquant, hwindow, hcap⟩ := applyTierKnobs_sizing (modelDump entry) (some tier)
  rw [hpath, hquant] at hw hf
  rw [hwindow] at hf
  have hw' : weightsOnlyUtilization hub entry.modelPath entry.quantization
      (engineTotal probe again) = .ok weights := hw
  have hf' : minimumUtilization hub entry.modelPath entry.quantization
      (windowOf (modelDump entry)) (engineTotal probe again) = .ok footprint := hf
  refine ⟨_, hconfig, ?_⟩
  rw [hcap, chain_le (roundPlaces 4) (roundPlaces_mono 4), StaysLow, hw', hf']
  simp [Within]

def localHub : Hub := ⟨fun _ => none, ascii⟩

def localEntry (own : GpuUtilization) : ModelEntry :=
  ⟨"acme-3b", "/models/acme-3b", none, some own, some 8192, none, none, none, true, none, none⟩

def smallTier : VramTier := ⟨"6gb", 0, 9/10, 2048, 4, 16, "auto", some 2048, false⟩

def builtConfig (own : GpuUtilization) (u : ℚ) : EngineConfig :=
  ⟨{ localEntry own with
      gpuMemoryUtilization := some (.fixed u), maxNumSeqs := some 4,
      maxNumBatchedTokens := some 2048 }, some 16, some "auto", some false⟩

/-- With a cap of its own the entry stays below the ceiling. -/
theorem utilization_ceiling_capped :
    StaysLow localHub (localEntry (.fixed (85/100))) 8 (some (78/10)) (9/10) := by
  obtain ⟨u, hu, hiff⟩ := utilization_ceiling_iff localHub (localEntry (.fixed (85/100)))
    smallTier ⟨some (78/10), some 8⟩ ⟨none, none⟩ (builtConfig (.fixed (85/100)) (85/100))
    (by decide +kernel)
  obtain rfl : 85/100 = u := by simpa [builtConfig] using hu
  exact hiff.mp (by decide +kernel)

/-- Sized automatically it gets more than the ceiling of its tier. -/
theorem utilization_over_ceiling :
    prepareEngine localHub (localEntry .auto) (some smallTier) ⟨some (78/10), some 8⟩ ⟨none, none⟩ =
      .ok (builtConfig .auto (92/100)) ∧
    roundPlaces 4 smallTier.gpuMemoryUtilizationCeiling < 92/100 := by
  decide +kernel

end InferenceX.UtilizationCap
