import InferenceX.ClampOutcome
import InferenceX.PermitConservation
import InferenceX.UtilizationCap

/-!
# The limits of admission and of the engine

The knobs of a tier reach the engine as members of a dictionary, and admission
through lookups in the registry. Both take the smaller of the tier's number of
sequences and the entry's own, and the ceiling of the context never lies above
the window that the entry sets.
-/

set_option autoImplicit false

namespace InferenceX.LimitAgreement
open Library.StepRuns Library.SlotSemaphore
open InferenceX.PythonValues InferenceX.ChatSchema InferenceX.ModelRegistry
open InferenceX.AdmissionGates InferenceX.AdmissionMachine InferenceX.AdmissionSteps
open InferenceX.PermitConservation InferenceX.VllmPoolConfig InferenceX.UtilizationCap

/-- The keyword arguments of `AsyncEngineArgs`; an absent one is left to vLLM. -/
structure EngineArgs where
  model : String
  dtype : String
  trustRemoteCode : Bool
  hfToken : Option String
  gpuMemoryUtilization : Option GpuUtilization
  maxModelLen : Option ℤ
  maxNumSeqs : Option ℤ
  maxNumBatchedTokens : Option ℤ
  blockSize : Option ℤ
  kvCacheDtype : Option String
  enablePrefixCaching : Option Bool
  quantization : Option String
  deriving DecidableEq, Repr

/-- A text that `if text:` lets through. -/
def nonEmpty (text : Option String) : Option String := text.filter (· ≠ "")

def engineArgs (config : EngineConfig) (hfToken : Option String) : EngineArgs where
  model := config.entry.modelPath
  dtype := "auto"
  trustRemoteCode := true
  hfToken := nonEmpty hfToken
  gpuMemoryUtilization := config.entry.gpuMemoryUtilization
  maxModelLen := config.entry.maxModelLen
  maxNumSeqs := config.entry.maxNumSeqs
  maxNumBatchedTokens := config.entry.maxNumBatchedTokens
  blockSize := config.blockSize
  kvCacheDtype := config.kvCacheDtype
  enablePrefixCaching := config.enablePrefixCaching
  quantization := nonEmpty config.entry.quantization

theorem prepareEngine_ok (hub : Hub) (entry : ModelEntry) (tier : Option VramTier)
    (probe again : Probe) (config : EngineConfig)
    (h : prepareEngine hub entry tier probe again = .ok config) :
    ∃ u, config = { applyTierKnobs (modelDump entry) tier with
      entry := { (applyTierKnobs (modelDump entry) tier).entry with
        gpuMemoryUtilization := some (.fixed u) } } := by
  obtain ⟨-, -, h⟩ := bind_ok h
  obtain ⟨u, -, rfl⟩ := map_ok h
  exact ⟨u, rfl⟩

theorem lowered_tighter (ceiling : ℤ) (e : ValidEntry) (cap : ModelEntry → Option ℤ) :
    AdmissionController.lowered ceiling (some e) cap = tighter (cap e.val) ceiling := by
  rw [AdmissionController.lowered, tighter]
  cases cap e.val with
  | none => rfl
  | some n => exact min_comm ceiling n

theorem tighter_le (own : Option ℤ) (ceiling : ℤ) : tighter own ceiling ≤ ceiling := by
  cases own with
  | none => exact le_refl ceiling
  | some n => exact min_le_right n ceiling

theorem tighter_le_own (own : Option ℤ) (ceiling n : ℤ) (h : own = some n) :
    tighter own ceiling ≤ n := by
  subst h
  exact min_le_left n ceiling

section Registered
variable (c : AdmissionController) (model : String) (entry : ValidEntry)
  (found : c.registry.find model = some entry)
include found

theorem effectiveMaxNumSeqs_tighter (tier : VramTier) (ht : c.tier = some tier) :
    c.effectiveMaxNumSeqs model = some (tighter entry.val.maxNumSeqs tier.maxNumSeqs) := by
  rw [AdmissionController.effectiveMaxNumSeqs, ht, found]
  exact congrArg some (lowered_tighter tier.maxNumSeqs entry (·.maxNumSeqs))

/-- The window of the entry bounds what admission allows any request. -/
theorem requestCeiling_le (window : ℤ) (hw : entry.val.maxModelLen = some window)
    (r : ChatCompletionRequest) : c.requestCeiling model r ≤ window := by
  have hceiling : c.contextCeiling model ≤ window := by
    rw [AdmissionController.contextCeiling, found, lowered_tighter]
    exact tighter_le_own _ _ window hw
  rw [AdmissionController.requestCeiling]
  cases r.maxContextTokens with
  | none => exact hceiling
  | some n => exact (min_le_left _ n).trans hceiling

end Registered

/-- What a step admits for a model is within the ceiling of its own request. -/
theorem returned_within (c : AdmissionController) (s t : State) (e : Event)
    (result : AdmissionResult) (h : step c s e = some (t, .returned result)) :
    ∃ call prompt est, e.model s = some call.model ∧
      (e = .arrive call ∨ ∃ w, s.findWaiting call.id = some w ∧ w.call = call ∧
        e = .resume call.id) ∧
      promptTokens call.engine call.request.val = .ok (prompt, est) ∧
      prompt+result.effectiveMaxTokens ≤ c.requestCeiling call.model call.request.val := by
  cases step_effect c s t e _ h with
  | quiet _ _ silent => simp at silent
  | released a _ _ kind => simp at kind
  | admitted _ call ws _ origin early gate =>
    obtain ⟨prompt, est, hp, -⟩ := (gates_ok_iff c _ _ _ _ _ result).mp gate
    have hclean : StrictMode.Clean ws := by
      rcases early with rfl | rfl
      · exact StrictMode.clean_nil
      · simp [StrictMode.Clean, sequenceGateSkipped]
    obtain ⟨-, hreserved, hle, -⟩ := ClampOutcome.gates_numbers c call.model call.request.val
      call.engine ws _ prompt est result hclean hp gate
    refine ⟨call, prompt, est, ?_, origin, hp, hreserved ▸ hle⟩
    rcases origin with rfl | ⟨w, hw, rfl, rfl⟩
    · rfl
    · simp [Event.model, hw]

/-- An engine built for a registered model has as many sequences as the
semaphore of the model in every state that admission reaches, and no more than
the tier allows. The window that its entry sets is the engine's, and what is
admitted for the model fits it. -/
theorem limits_agree (c : AdmissionController) (model : String) (entry : ValidEntry)
    (found : c.registry.find model = some entry) (hub : Hub) (probe again : Probe)
    (config : EngineConfig) (built : prepareEngine hub entry.val c.tier probe again = .ok config)
    (hfToken : Option String) :
    (∀ tier, c.tier = some tier → ∃ n, (engineArgs config hfToken).maxNumSeqs = some n ∧
      n ≤ tier.maxNumSeqs ∧ c.effectiveMaxNumSeqs model = some n ∧
      ∀ es os s, run (step c) initial es = some (s, os) →
        ∀ sem, s.semaphores model = some sem → (sem.bound : ℤ) = n) ∧
    ∀ window, entry.val.maxModelLen = some window →
      (engineArgs config hfToken).maxModelLen = some window ∧
      (∀ r, c.requestCeiling model r ≤ window) ∧
      ∀ s t e result, step c s e = some (t, .returned result) → e.model s = some model →
        ∃ call prompt est, call.model = model ∧
          (e = .arrive call ∨ ∃ w, s.findWaiting call.id = some w ∧ w.call = call ∧
            e = .resume call.id) ∧
          promptTokens call.engine call.request.val = .ok (prompt, est) ∧
          prompt+result.effectiveMaxTokens ≤ window := by
  obtain ⟨u, rfl⟩ := prepareEngine_ok hub entry.val c.tier probe again config built
  constructor
  · intro tier ht
    have hlimit := effectiveMaxNumSeqs_tighter c model entry found tier ht
    refine ⟨tighter entry.val.maxNumSeqs tier.maxNumSeqs, ?_, tighter_le _ _, hlimit, ?_⟩
    · rw [ht]
      rfl
    · intro es os s hrun sem hsem
      have hbalance := (run_balanced c tier ht es os s hrun).1 model
      rw [hsem] at hbalance
      rw [hbalance.1, seqLimit, hlimit]
      rfl
  · intro window hw
    have hceiling := requestCeiling_le c model entry found window hw
    refine ⟨?_, hceiling, ?_⟩
    · cases c.tier with
      | none => exact hw
      | some tier => exact hw
    · intro s t e result hstep hmodel
      obtain ⟨call, prompt, est, hcall, origin, hp, hle⟩ := returned_within c s t e result hstep
      obtain rfl : call.model = model := Option.some.inj (hcall.symm.trans hmodel)
      exact ⟨call, prompt, est, rfl, origin, hp, hle.trans (hceiling _)⟩

def narrowEntry : ValidEntry :=
  ⟨{ plainEntry with
      modelPath := "/models/m-125m", maxModelLen := some 200, maxNumSeqs := some 1 }, by decide⟩

def narrowController : AdmissionController :=
  { smallController with registry := .ofModels [narrowEntry] }

def narrowConfig : EngineConfig :=
  ⟨{ narrowEntry.val with gpuMemoryUtilization := some (.fixed (134/1000)) }, some 16,
    some "auto", some false⟩

theorem narrow_built : prepareEngine localHub narrowEntry.val narrowController.tier
    ⟨some 8, some 8⟩ ⟨none, none⟩ = .ok narrowConfig := by decide +kernel

/-- The semaphore that the first call creates has room for the one sequence. -/
theorem limits_agree_narrow :
    (∃ s os, run (step narrowController) initial [.arrive (helloCall 0)] = some (s, os) ∧
      ∃ sem, s.semaphores "m" = some sem ∧
        some (sem.bound : ℤ) = (engineArgs narrowConfig none).maxNumSeqs) ∧
    ∀ r, narrowController.requestCeiling "m" r ≤ 200 := by
  have hagree := limits_agree narrowController "m" narrowEntry rfl localHub
    ⟨some 8, some 8⟩ ⟨none, none⟩ narrowConfig narrow_built none
  obtain ⟨n, hn, -, -, hbound⟩ := hagree.1 _ rfl
  refine ⟨?_, (hagree.2 200 rfl).2.1⟩
  have hrun : ((run (step narrowController) initial [.arrive (helloCall 0)]).map
      fun x => (x.1.semaphores "m").isSome) = some true := by decide +kernel
  obtain ⟨⟨s, os⟩, hrun, hsome⟩ := Option.map_eq_some_iff.mp hrun
  obtain ⟨sem, hsem⟩ := Option.isSome_iff_exists.mp hsome
  exact ⟨s, os, hrun, sem, hsem, by rw [hn, hbound _ os s hrun sem hsem]⟩

end InferenceX.LimitAgreement
