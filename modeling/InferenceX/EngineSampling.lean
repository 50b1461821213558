import InferenceX.AdmissionSteps
import InferenceX.ChatDispatch

/-!
# Sampling parameters of the vLLM engine

The engine takes its cap on completion tokens from the model entry and puts
it in the place of the request's `max_tokens`, also when it is larger. What
admission granted is computed here in closed form, so that the effect of this
override can be stated by the inputs of the request alone.
-/

set_option autoImplicit false

namespace InferenceX.EngineSampling
open Library.JsonText
open InferenceX.PythonValues InferenceX.ChatSchema InferenceX.ModelRegistry
open InferenceX.AdmissionGates InferenceX.AdmissionMachine InferenceX.AdmissionSteps
open InferenceX.ChatDispatch

/-- The engine fields that sampling reads, and its side of the engine boundary. -/
structure VLLMEngine where
  maxCompletionTokens : Option ℤ
  instructionTuned : Bool
  repetitionPenalty : Option ℚ
  boundary : BaseEngine

def VLLMEngine.ofEntry (e : ValidEntry) (boundary : BaseEngine) : VLLMEngine where
  maxCompletionTokens := e.val.maxCompletionTokens
  instructionTuned := e.val.instructionTuned
  repetitionPenalty := e.val.repetitionPenalty
  boundary := boundary

structure SamplingParams where
  temperature : FloatText
  maxTokens : ℤ
  topP : FloatText
  repetitionPenalty : Option ℚ
  seed : Option ℤ
  deriving DecidableEq, Repr

namespace VLLMEngine

def resolveMaxTokens (engine : VLLMEngine) (r : ChatCompletionRequest) : ℤ :=
  match engine.maxCompletionTokens with
  | some cap => cap
  | none => r.maxTokens.getD 512

def samplingParams (engine : VLLMEngine) (r : ChatCompletionRequest) : SamplingParams where
  temperature := r.temperature.getD defaultTemperature
  maxTokens := engine.resolveMaxTokens r
  topP := r.topP.getD defaultTopP
  repetitionPenalty :=
    if engine.instructionTuned then none
    else some (engine.repetitionPenalty.getD (23/20))
  seed := r.seed

end VLLMEngine

def kvFit (c : AdmissionController) (capacity : Option ℤ) (reservedNow prompt fitted : ℤ) : ℤ :=
  match capacity with
  | none => fitted
  | some n => min fitted (truncate (n*c.kvSafetyMargin-reservedNow-prompt))

def granted (c : AdmissionController) (model : String) (r : ChatCompletionRequest)
    (capacity : Option ℤ) (reservedNow prompt : ℤ) : ℤ :=
  kvFit c capacity reservedNow prompt
    (min (requestedOutput r) (c.requestCeiling model r-prompt))

def promptCount (engine : BaseEngine) (r : ChatCompletionRequest) : ℤ :=
  match engine.countPromptTokens r with
  | .ok (some n) => n
  | _ => promptEstimate r

theorem promptTokens_count (engine : BaseEngine) (r : ChatCompletionRequest) (prompt : ℤ)
    (ws : List ResponseWarning) (h : promptTokens engine r = .ok (prompt, ws)) :
    prompt = promptCount engine r := by
  rw [promptTokens] at h
  rw [promptCount]
  split at h
  · cases h
  · rename_i n hn
    rw [hn]
    exact (Prod.mk.inj (Except.ok.inj h)).1.symm
  · rename_i hn
    rw [hn]
    exact (Prod.mk.inj (Except.ok.inj h)).1.symm

theorem contextGate_granted (c : AdmissionController) (model : String)
    (r : ChatCompletionRequest) (prompt fitted : ℤ) (ws : List ResponseWarning)
    (h : contextGate c model r prompt = .ok (fitted, ws)) :
    fitted = min (requestedOutput r) (c.requestCeiling model r-prompt) := by
  simp only [contextGate] at h
  split_ifs at h with hp he hb hs
  · obtain ⟨rfl, -⟩ := Prod.mk.inj (Except.ok.inj h)
    omega
  · obtain ⟨rfl, -⟩ := Prod.mk.inj (Except.ok.inj h)
    omega

theorem kvFit_le (c : AdmissionController) (capacity : Option ℤ)
    (reservedNow prompt fitted : ℤ) : kvFit c capacity reservedNow prompt fitted ≤ fitted := by
  cases capacity with
  | none => exact le_refl _
  | some n => exact min_le_left _ _

theorem kvGate_granted (c : AdmissionController) (model : String) (r : ChatCompletionRequest)
    (capacity : Option ℤ) (reservedNow prompt fitted output : ℤ) (ws : List ResponseWarning)
    (hpos : 0 ≤ fitted)
    (h : kvGate c model r capacity reservedNow prompt fitted = .ok (output, ws)) :
    output = kvFit c capacity reservedNow prompt fitted := by
  cases capacity with
  | none => exact (Prod.mk.inj (Except.ok.inj h)).1.symm
  | some n =>
    simp only [kvGate] at h
    split_ifs at h with ha hb hs
    · obtain ⟨rfl, -⟩ := Prod.mk.inj (Except.ok.inj h)
      have hlow := not_lt.mp (not_or.mp hb).2
      have hnonneg : (0 : ℚ) ≤ n*c.kvSafetyMargin-reservedNow-prompt :=
        le_trans (by norm_num [minClampedOutputTokens]) hlow
      have htrunc := truncate_le _ hnonneg
      have hfloor := le_truncate _ 16 (by simpa [minClampedOutputTokens] using hlow)
      have hlt : truncate (n*c.kvSafetyMargin-reservedNow-prompt) < fitted := by
        exact_mod_cast htrunc.trans_lt ha
      rw [kvFit, max_eq_right (by simpa [minClampedOutputTokens] using hfloor),
        min_eq_right hlt.le]
    · obtain ⟨rfl, -⟩ := Prod.mk.inj (Except.ok.inj h)
      obtain ⟨k, rfl⟩ := Int.eq_ofNat_of_zero_le hpos
      have hle : ((k : ℕ) : ℚ) ≤ n*c.kvSafetyMargin-reservedNow-prompt := by
        simpa using not_lt.mp ha
      exact (min_eq_left (le_truncate _ k hle)).symm

/-- What a successful run of the gates hands out, by the inputs of the request. -/
theorem gates_granted (c : AdmissionController) (model : String) (r : ValidRequest)
    (engine : BaseEngine) (ws : List ResponseWarning) (reservedNow : ℤ)
    (result : AdmissionResult) (h : gates c model r.val engine ws reservedNow = .ok result) :
    let prompt := promptCount engine r.val
    result.effectiveMaxTokens =
        granted c model r.val engine.kvCapacityTokens reservedNow prompt ∧
      result.reservedTokens = prompt+result.effectiveMaxTokens ∧
      prompt+result.effectiveMaxTokens ≤ c.requestCeiling model r.val := by
  obtain ⟨prompt, est, hp, fitted, cl, hc, output, low, hk, rfl⟩ :=
    (gates_ok_iff c model r.val engine ws reservedNow result).mp h
  obtain rfl := promptTokens_count engine r.val prompt est hp
  have hreq := (requestedOutput_bounds r).1
  obtain ⟨hceil, hfit⟩ := contextGate_ok c model r.val _ fitted cl hc
  simp only [minClampedOutputTokens] at hfit
  have hout := kvGate_granted c model r.val engine.kvCapacityTokens reservedNow _ fitted output low
    (by omega) hk
  have hle : output ≤ fitted := hout ▸ kvFit_le c _ _ _ fitted
  refine ⟨?_, rfl, show promptCount engine r.val+output ≤ _ by omega⟩
  rw [granted, ← contextGate_granted c model r.val _ fitted cl hc]
  exact hout

def Admits (c : AdmissionController) (s : State) (call : Call) (result : AdmissionResult) :
    Prop :=
  ∃ e t, step c s e = some (t, .returned result) ∧
    (e = .arrive call ∨ ∃ w, s.findWaiting call.id = some w ∧ w.call = call ∧ e = .resume call.id)

theorem admits_gates (c : AdmissionController) (s : State) (call : Call)
    (result : AdmissionResult) (h : Admits c s call result) :
    ∃ ws, (ws = [] ∨ ws = [sequenceGateSkipped]) ∧
      gates c call.model call.request.val call.engine ws (s.tracker call.model) =
        .ok result := by
  obtain ⟨e, t, hstep, he⟩ := h
  cases step_effect c s t e _ hstep with
  | quiet _ _ silent => simp at silent
  | admitted _ call' ws _ origin early gate =>
    have hcall : call' = call := by
      rcases he with rfl | ⟨w, hw, rfl, rfl⟩ <;> rcases origin with h | ⟨v, hv, hvw, h⟩
      · exact (Event.arrive.inj h).symm
      · cases h
      · cases h
      · rw [← Event.resume.inj h, hw] at hv
        rw [← hvw, ← Option.some.inj hv]
    exact ⟨ws, early, hcall ▸ gate⟩
  | released a _ found kind => simp at kind

/-- The engine's bound on the generation keeps to the admitted output, so that
prompt and generation fit the reservation and the context ceiling. -/
def Covered (c : AdmissionController) (call : Call) (engine : VLLMEngine)
    (result : AdmissionResult) : Prop :=
  let prompt := promptCount call.engine call.request.val
  let bound := (engine.samplingParams (effectiveRequest call.request.val result)).maxTokens
  bound ≤ result.effectiveMaxTokens ∧ prompt+bound ≤ result.reservedTokens ∧
    prompt+bound ≤ c.requestCeiling call.model call.request.val

/-- The model's own cap, if it has one, is within what the request can be granted. -/
def CapFits (c : AdmissionController) (s : State) (call : Call) (entry : ValidEntry) : Prop :=
  ∀ cap, entry.val.maxCompletionTokens = some cap →
    cap ≤ granted c call.model call.request.val call.engine.kvCapacityTokens
      (s.tracker call.model) (promptCount call.engine call.request.val)

/-- The reservation covers the generation exactly when the model's cap does
not raise the admitted output. -/
theorem covered_iff (c : AdmissionController) (s : State) (call : Call)
    (result : AdmissionResult) (entry : ValidEntry) (h : Admits c s call result) :
    Covered c call (.ofEntry entry call.engine) result ↔ CapFits c s call entry := by
  obtain ⟨ws, -, hgate⟩ := admits_gates c s call result h
  obtain ⟨heff, hres, hceil⟩ :=
    gates_granted c call.model call.request call.engine ws _ result hgate
  cases hcap : entry.val.maxCompletionTokens with
  | none =>
    have hbound : ((VLLMEngine.ofEntry entry call.engine).samplingParams
        (effectiveRequest call.request.val result)).maxTokens = result.effectiveMaxTokens := by
      simp [VLLMEngine.samplingParams, VLLMEngine.resolveMaxTokens, VLLMEngine.ofEntry, hcap,
        effectiveRequest]
    simp only [Covered, CapFits, hbound, hcap]
    exact ⟨fun _ cap h => (by cases h), fun _ => ⟨le_refl _, hres.ge, hceil⟩⟩
  | some cap =>
    have hbound : ((VLLMEngine.ofEntry entry call.engine).samplingParams
        (effectiveRequest call.request.val result)).maxTokens = cap := by
      simp [VLLMEngine.samplingParams, VLLMEngine.resolveMaxTokens, VLLMEngine.ofEntry, hcap]
    simp only [Covered, CapFits, hbound, hcap, Option.some.injEq, forall_eq', ← heff]
    exact ⟨fun h => h.1, fun h => ⟨h, by omega, by omega⟩⟩

theorem admits_at_once (c : AdmissionController) (s : State) (call : Call)
    (result : AdmissionResult)
    (h : (step c s (.arrive call)).map Prod.snd = some (.returned result)) :
    Admits c s call result := by
  obtain ⟨⟨t, o⟩, hstep, rfl⟩ := Option.map_eq_some_iff.mp h
  exact ⟨_, t, hstep, Or.inl rfl⟩

def capped : ValidEntry := ⟨{ plainEntry with maxCompletionTokens := some 256 }, by decide⟩

def cappedController : AdmissionController :=
  { smallController with registry := .ofModels [capped] }

theorem covered_iff_uncapped : Covered smallController (helloCall 0)
    (.ofEntry uncapped (helloCall 0).engine) ⟨100, 110, []⟩ :=
  (covered_iff _ initial (helloCall 0) _ uncapped
    (admits_at_once _ _ _ _ (by decide +kernel))).mpr (fun _ h => by cases h)

/-- 100 tokens are admitted and reserved, and the engine may generate 256. -/
theorem capped_not_covered :
    Admits cappedController initial (helloCall 0) ⟨100, 110, []⟩ ∧
    ¬ Covered cappedController (helloCall 0) (.ofEntry capped (helloCall 0).engine)
      ⟨100, 110, []⟩ :=
  ⟨admits_at_once _ _ _ _ (by decide +kernel), fun h => absurd h.1 (by decide)⟩

end InferenceX.EngineSampling
