import InferenceX.ChatSchema
import InferenceX.ModelRegistry

/-!
# The synchronous gates of admission

What `admit` computes once it has a sequence slot: the prompt count, the
context gate and the KV gate. None of it suspends, so it is a function of the
request, the engine and the tokens reserved at that moment. Each gate either
passes, clamps the output with a warning, or raises; under `strict` the
branch that would clamp raises instead.
-/

set_option autoImplicit false

namespace InferenceX.AdmissionGates
open Library.JsonText
open InferenceX.PythonValues InferenceX.ChatSchema InferenceX.ModelRegistry

def defaultContextCap : ℤ := 4096

def minClampedOutputTokens : ℤ := 16

def charsPerTokenFallback : ℕ := 4

structure AdmissionController where
  registry : Registry
  tier : Option VramTier
  kvSafetyMargin : ℚ
  admissionWaitS : FloatText
  batchAdmissionWaitS : FloatText
  batchWaiterMultiplier : ℤ

/-- The part of the engine boundary that admission asks. A prompt count is a
count of the prompt, so it cannot depend on the other request fields. -/
structure BaseEngine where
  countPromptTokens : ChatCompletionRequest → Except PyError (Option ℤ)
  kvCapacityTokens : Option ℤ
  counts_prompt : ∀ r s, r.messages = s.messages → countPromptTokens r = countPromptTokens s

structure AdmissionResult where
  effectiveMaxTokens : ℤ
  reservedTokens : ℤ
  warnings : List ResponseWarning
  deriving DecidableEq, Repr

namespace AdmissionController

def lowered (ceiling : ℤ) (entry : Option ValidEntry) (cap : ModelEntry → Option ℤ) : ℤ :=
  match entry with
  | none => ceiling
  | some e =>
    match cap e.val with
    | none => ceiling
    | some n => min ceiling n

def contextCeiling (c : AdmissionController) (model : String) : ℤ :=
  let ceiling := match c.tier with
    | some t => t.maxModelLenCap
    | none => defaultContextCap
  lowered ceiling (c.registry.find model) (·.maxModelLen)

def effectiveMaxNumSeqs (c : AdmissionController) (model : String) : Option ℤ :=
  match c.tier with
  | none => none
  | some t => some (lowered t.maxNumSeqs (c.registry.find model) (·.maxNumSeqs))

def requestCeiling (c : AdmissionController) (model : String) (r : ChatCompletionRequest) : ℤ :=
  match r.maxContextTokens with
  | none => c.contextCeiling model
  | some n => min (c.contextCeiling model) n

end AdmissionController

/-- `request.max_output_tokens or request.max_tokens or 512`. -/
def requestedOutput (r : ChatCompletionRequest) : ℤ :=
  (pyOr (pyOr r.maxOutputTokens r.maxTokens) (some 512)).getD 512

def totalChars (r : ChatCompletionRequest) : ℕ := (r.messages.map fun m => m.content.length).sum

def promptEstimate (r : ChatCompletionRequest) : ℕ := max 1 (totalChars r / charsPerTokenFallback)

def sequenceGateSkipped : ResponseWarning where
  type := .degraded
  code := "sequence_gate_skipped"
  message := "No VRAM tier resolved; the sequence-concurrency gate did not " ++
    "run for this request."
  field := none

def promptTokensEstimated (estimate : ℕ) : ResponseWarning where
  type := .degraded
  code := "prompt_tokens_estimated"
  message := s!"Engine reported no prompt-token count; admission used a " ++
    s!"chars/{charsPerTokenFallback} estimate of {estimate} tokens."
  field := some "messages"

def clampedToContext (effective room ceiling : ℤ) : ResponseWarning where
  type := .substituted
  code := "max_tokens_clamped_to_context"
  message := s!"Requested {effective} output tokens; clamped to {room} to " ++
    s!"fit the {ceiling}-token context limit."
  field := some "max_tokens"

def kvGateSkipped : ResponseWarning where
  type := .degraded
  code := "kv_gate_skipped"
  message := "Engine reported no KV capacity; the KV-pressure gate did not " ++
    "run for this request."
  field := none

def clampedToKvBudget (effective clamped : ℤ) : ResponseWarning where
  type := .substituted
  code := "max_tokens_clamped_to_kv_budget"
  message := s!"Requested {effective} output tokens; clamped to " ++
    s!"{clamped} to fit the available KV budget."
  field := some "max_tokens"

def promptTooLong (model : String) (prompt ceiling : ℤ) : PyError :=
  .contextTooLong (s!"Prompt is {prompt} tokens, which exceeds the " ++
    s!"{ceiling}-token context limit for model '{model}'.")

def outputTooLong (model : String) (prompt effective ceiling : ℤ) : PyError :=
  .contextTooLong (s!"Prompt ({prompt} tokens) + requested output " ++
    s!"({effective} tokens) exceeds the {ceiling}-token " ++
    s!"context limit for model '{model}'.")

def strictContext (model : String) (prompt effective room ceiling : ℤ) : PyError :=
  .strictModeViolation (s!"strict: requested output ({effective} tokens) does not fit " ++
    s!"the {ceiling}-token context limit for model " ++
    s!"'{model}' with a {prompt}-token prompt; " ++
    s!"the server would have clamped it to {room}.")

def kvSaturated (model : String) (reservedNow : ℤ) (budget : ℚ) : PyError :=
  .engineSaturated (s!"Model '{model}' KV pool is at capacity " ++
    s!"({reservedNow}/{truncate budget} tokens reserved); retry shortly.") 1

def strictKv (model : String) (available : ℚ) (effective clamped : ℤ) : PyError :=
  .strictModeViolation (s!"strict: model '{model}' has {truncate available} tokens of " ++
    s!"KV budget available for {effective} requested output " ++
    s!"tokens; the server would have clamped it to {clamped}.")

def promptTokens (engine : BaseEngine) (r : ChatCompletionRequest) :
    Except PyError (ℤ × List ResponseWarning) :=
  match engine.countPromptTokens r with
  | .error e => .error e
  | .ok (some n) => .ok (n, [])
  | .ok none => .ok (promptEstimate r, [promptTokensEstimated (promptEstimate r)])

def contextGate (c : AdmissionController) (model : String) (r : ChatCompletionRequest)
    (prompt : ℤ) : Except PyError (ℤ × List ResponseWarning) :=
  let ceiling := c.requestCeiling model r
  let effective := requestedOutput r
  if prompt > ceiling then .error (promptTooLong model prompt ceiling)
  else if prompt+effective > ceiling then
    let room := ceiling-prompt
    if r.priority = .batch ∨ room < minClampedOutputTokens then
      .error (outputTooLong model prompt effective ceiling)
    else if r.strict then .error (strictContext model prompt effective room ceiling)
    else .ok (room, [clampedToContext effective room ceiling])
  else .ok (effective, [])

def kvGate (c : AdmissionController) (model : String) (r : ChatCompletionRequest)
    (capacity : Option ℤ) (reservedNow prompt effective : ℤ) :
    Except PyError (ℤ × List ResponseWarning) :=
  match capacity with
  | none => .ok (effective, [kvGateSkipped])
  | some capacity =>
    let budget : ℚ := capacity*c.kvSafetyMargin
    let available : ℚ := budget-reservedNow-prompt
    if available < effective then
      if r.priority = .batch ∨ available < minClampedOutputTokens then
        .error (kvSaturated model reservedNow budget)
      else
        let clamped := max minClampedOutputTokens (truncate available)
        if r.strict then .error (strictKv model available effective clamped)
        else .ok (clamped, [clampedToKvBudget effective clamped])
    else .ok (effective, [])

/-- Both gates in order; `warnings` are those raised before. -/
def gates (c : AdmissionController) (model : String) (r : ChatCompletionRequest)
    (engine : BaseEngine) (warnings : List ResponseWarning) (reservedNow : ℤ) :
    Except PyError AdmissionResult := do
  let (prompt, estimated) ← promptTokens engine r
  let (fitted, clamped) ← contextGate c model r prompt
  let (granted, lowered) ← kvGate c model r engine.kvCapacityTokens reservedNow prompt fitted
  return ⟨granted, prompt+granted, warnings++estimated++clamped++lowered⟩

variable (c : AdmissionController) (model : String) (r : ChatCompletionRequest)

theorem gates_ok_iff (engine : BaseEngine) (ws : List ResponseWarning) (reservedNow : ℤ)
    (result : AdmissionResult) :
    gates c model r engine ws reservedNow = .ok result ↔
      ∃ prompt est, promptTokens engine r = .ok (prompt, est) ∧
      ∃ fitted clamped, contextGate c model r prompt = .ok (fitted, clamped) ∧
      ∃ granted low, kvGate c model r engine.kvCapacityTokens reservedNow prompt fitted =
        .ok (granted, low) ∧ result = ⟨granted, prompt+granted, ws++est++clamped++low⟩ := by
  constructor
  · intro h
    obtain ⟨⟨prompt, est⟩, hp, h⟩ := bind_ok h
    obtain ⟨⟨fitted, clamped⟩, hc, h⟩ := bind_ok h
    obtain ⟨⟨granted, low⟩, hk, h⟩ := bind_ok h
    exact ⟨prompt, est, hp, fitted, clamped, hc, granted, low, hk, (Except.ok.inj h).symm⟩
  · rintro ⟨prompt, est, hp, fitted, clamped, hc, granted, low, hk, rfl⟩
    simp only [gates, hp, hc, hk, Bind.bind, Except.bind, Pure.pure, Except.pure]

theorem contextGate_ok (prompt fitted : ℤ) (ws : List ResponseWarning)
    (h : contextGate c model r prompt = .ok (fitted, ws)) :
    prompt+fitted ≤ c.requestCeiling model r ∧
      (fitted = requestedOutput r ∧ ws = [] ∨
        minClampedOutputTokens ≤ fitted ∧ fitted < requestedOutput r ∧
          ws = [clampedToContext (requestedOutput r) fitted (c.requestCeiling model r)]) := by
  simp only [contextGate] at h
  split_ifs at h with hp he hb hs
  · obtain ⟨rfl, rfl⟩ := Prod.mk.inj (Except.ok.inj h)
    exact ⟨by omega, Or.inr ⟨by omega, by omega, rfl⟩⟩
  · obtain ⟨rfl, rfl⟩ := Prod.mk.inj (Except.ok.inj h)
    exact ⟨by omega, Or.inl ⟨rfl, rfl⟩⟩

theorem kvGate_ok (capacity reservedNow prompt effective granted : ℤ)
    (ws : List ResponseWarning)
    (h : kvGate c model r (some capacity) reservedNow prompt effective = .ok (granted, ws)) :
    (reservedNow+prompt+granted : ℚ) ≤ capacity*c.kvSafetyMargin ∧
      (granted = effective ∧ ws = [] ∨
        minClampedOutputTokens ≤ granted ∧ granted < effective ∧
          ws = [clampedToKvBudget effective granted]) := by
  simp only [kvGate] at h
  split_ifs at h with ha hb hs
  · obtain ⟨rfl, rfl⟩ := Prod.mk.inj (Except.ok.inj h)
    have hlow := not_lt.mp (not_or.mp hb).2
    have hnonneg : (0 : ℚ) ≤ capacity*c.kvSafetyMargin-reservedNow-prompt :=
      le_trans (by norm_num [minClampedOutputTokens]) hlow
    have htrunc := truncate_le _ hnonneg
    have hfloor := le_truncate _ 16 (by simpa [minClampedOutputTokens] using hlow)
    have hmax : max minClampedOutputTokens
        (truncate (capacity*c.kvSafetyMargin-reservedNow-prompt)) =
        truncate (capacity*c.kvSafetyMargin-reservedNow-prompt) :=
      max_eq_right (by simpa [minClampedOutputTokens] using hfloor)
    rw [hmax]
    refine ⟨by linarith, Or.inr ⟨by simpa [minClampedOutputTokens] using hfloor, ?_, rfl⟩⟩
    exact_mod_cast htrunc.trans_lt ha
  · obtain ⟨rfl, rfl⟩ := Prod.mk.inj (Except.ok.inj h)
    exact ⟨by linarith [not_lt.mp ha], Or.inl ⟨rfl, rfl⟩⟩

/-- Validation leaves only positive limits, so the chain of `or` never falls through a zero. -/
theorem requestedOutput_bounds (r : ValidRequest) :
    1 ≤ requestedOutput r.val ∧ requestedOutput r.val ≤ 4096 := by
  obtain ⟨hm, ho⟩ := valid_limits r
  have hz (x : Option ℤ) (hx : intIn 1 4096 x = true) :
      x = none ∨ ∃ z, x = some z ∧ 1 ≤ z ∧ z ≤ 4096 := by
    cases x with
    | none => exact Or.inl rfl
    | some z => exact Or.inr ⟨z, rfl, by simpa [intIn] using hx⟩
  rw [requestedOutput]
  rcases hz _ ho with ho | ⟨o, ho, ho1, ho2⟩
  · rcases hz _ hm with hm | ⟨z, hm, hm1, hm2⟩
    · simp [ho, hm, pyOr]
    · have hne : z ≠ 0 := by omega
      simpa [ho, hm, pyOr, hne] using ⟨hm1, hm2⟩
  · have hne : o ≠ 0 := by omega
    simpa [ho, pyOr, hne] using ⟨ho1, ho2⟩

def smallTier : VramTier where
  name := "small"
  minVramGb := 0
  gpuMemoryUtilizationCeiling := 9/10
  maxModelLenCap := 256
  maxNumSeqs := 1
  blockSize := 16
  kvCacheDtype := "auto"
  maxNumBatchedTokens := none
  enablePrefixCaching := false

def plainEntry : ModelEntry where
  name := "m"
  modelPath := "org/m"
  family := none
  gpuMemoryUtilization := some .auto
  maxModelLen := none
  maxNumSeqs := none
  maxNumBatchedTokens := none
  quantization := none
  instructionTuned := true
  maxCompletionTokens := none
  repetitionPenalty := none

def uncapped : ValidEntry := ⟨plainEntry, by decide⟩

def smallController : AdmissionController where
  registry := .ofModels [uncapped]
  tier := some smallTier
  kvSafetyMargin := 9/10
  admissionWaitS := .short 5 0
  batchAdmissionWaitS := .decimal false 30 (.frac ⟨0, []⟩ none)
  batchWaiterMultiplier := 8

def countingEngine (prompt : ℤ) (capacity : Option ℤ) : BaseEngine where
  countPromptTokens := fun _ => .ok (some prompt)
  kvCapacityTokens := capacity
  counts_prompt := fun _ _ _ => rfl

def helloPayload (output : ℤ) (priority : Priority) (strict : Bool) : ChatPayload where
  model := "m"
  messages := [⟨.user, "hello"⟩]
  temperature := none
  maxTokens := none
  topP := none
  stream := none
  maxContextTokens := none
  maxOutputTokens := some (some output)
  priority := some priority
  streamOptions := none
  seed := none
  strict := some strict

def helloRequest : ValidRequest :=
  ⟨(helloPayload 100 .interactive false).request, by decide +kernel⟩

end InferenceX.AdmissionGates
