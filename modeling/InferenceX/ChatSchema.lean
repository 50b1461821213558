import InferenceX.PythonValues

/-!
# Wire types of the chat endpoint

A request carries the checks of its schema in `Valid`; `ValidRequest` is what
the route hands to the service. A payload keeps apart what the client left
out, sent as null and sent as a value, so that a substitution can be compared
with what was explicitly supplied.
-/

set_option autoImplicit false

namespace InferenceX.ChatSchema
open Library.JsonText

inductive Role where
  | system
  | user
  | assistant
  deriving DecidableEq, Repr

structure ChatMessage where
  role : Role
  content : String
  deriving DecidableEq, Repr

structure StreamOptions where
  includeUsage : Bool
  deriving DecidableEq, Repr

inductive Priority where
  | interactive
  | batch
  deriving DecidableEq, Repr

def Priority.text : Priority → String
  | .interactive => "interactive"
  | .batch => "batch"

structure ChatCompletionRequest where
  model : String
  messages : List ChatMessage
  temperature : Option FloatText
  maxTokens : Option ℤ
  topP : Option FloatText
  stream : Bool
  maxContextTokens : Option ℤ
  maxOutputTokens : Option ℤ
  priority : Priority
  streamOptions : Option StreamOptions
  seed : Option ℤ
  strict : Bool
  deriving DecidableEq, Repr

def floatIn (lo hi : ℚ) : Option FloatText → Bool
  | none => true
  | some x =>
    match x.value with
    | none => false
    | some q => decide (lo ≤ q) && decide (q ≤ hi)

def intAtLeast (lo : ℤ) : Option ℤ → Bool
  | none => true
  | some z => decide (lo ≤ z)

def intIn (lo hi : ℤ) : Option ℤ → Bool
  | none => true
  | some z => decide (lo ≤ z) && decide (z ≤ hi)

def ChatCompletionRequest.valid (r : ChatCompletionRequest) : Bool :=
  decide (1 ≤ r.messages.length) && decide (r.messages.length ≤ 50) &&
  r.messages.all (fun m => decide (m.content.length ≤ 32000)) &&
  floatIn 0 2 r.temperature &&
  intIn 1 4096 r.maxTokens &&
  floatIn 0 1 r.topP &&
  intAtLeast 1 r.maxContextTokens &&
  intIn 1 4096 r.maxOutputTokens

abbrev ValidRequest := { r : ChatCompletionRequest // r.valid = true }

/-- The body of a request: the outer option says whether a field was sent. -/
structure ChatPayload where
  model : String
  messages : List ChatMessage
  temperature : Option (Option FloatText)
  maxTokens : Option (Option ℤ)
  topP : Option (Option FloatText)
  stream : Option Bool
  maxContextTokens : Option (Option ℤ)
  maxOutputTokens : Option (Option ℤ)
  priority : Option Priority
  streamOptions : Option (Option StreamOptions)
  seed : Option (Option ℤ)
  strict : Option Bool
  deriving DecidableEq, Repr

def defaultTemperature : FloatText := .short 0 7

def defaultTopP : FloatText := .decimal false 0 (.frac ⟨9, [5]⟩ none)

/-- Defaults for every field the client left out; null stays null. -/
def ChatPayload.request (p : ChatPayload) : ChatCompletionRequest where
  model := p.model
  messages := p.messages
  temperature := p.temperature.getD (some defaultTemperature)
  maxTokens := p.maxTokens.getD (some 512)
  topP := p.topP.getD (some defaultTopP)
  stream := p.stream.getD false
  maxContextTokens := p.maxContextTokens.getD none
  maxOutputTokens := p.maxOutputTokens.getD none
  priority := p.priority.getD .interactive
  streamOptions := p.streamOptions.getD none
  seed := p.seed.getD none
  strict := p.strict.getD false

theorem defaults_valid (p : ChatPayload) (ht : p.temperature = none) (hm : p.maxTokens = none)
    (hp : p.topP = none) (hc : p.maxContextTokens = none) (ho : p.maxOutputTokens = none)
    (hl : 1 ≤ p.messages.length ∧ p.messages.length ≤ 50)
    (hs : ∀ m ∈ p.messages, m.content.length ≤ 32000) : p.request.valid = true := by
  have h7 : floatIn 0 2 (some defaultTemperature) = true := by decide +kernel
  have h95 : floatIn 0 1 (some defaultTopP) = true := by decide +kernel
  simp only [ChatCompletionRequest.valid, ChatPayload.request, ht, hm, hp, hc, ho,
    Option.getD_none, h7, h95, intIn, intAtLeast, Bool.and_true, Bool.and_eq_true,
    decide_eq_true_eq, List.all_eq_true]
  exact ⟨⟨⟨hl.1, hl.2⟩, hs⟩, by decide, by decide⟩

inductive WarningType where
  | substituted
  | degraded
  deriving DecidableEq, Repr

def WarningType.text : WarningType → String
  | .substituted => "substituted"
  | .degraded => "degraded"

structure ResponseWarning where
  type : WarningType
  code : String
  message : String
  field : Option String
  deriving DecidableEq, Repr

structure ResolvedRequest where
  model : String
  temperature : Option FloatText
  maxTokens : Option ℤ
  topP : Option FloatText
  maxContextTokens : Option ℤ
  maxOutputTokens : Option ℤ
  priority : Priority
  seed : Option ℤ
  deriving DecidableEq, Repr

inductive FinishReason where
  | stop
  | length
  | error
  deriving DecidableEq, Repr

def FinishReason.text : FinishReason → String
  | .stop => "stop"
  | .length => "length"
  | .error => "error"

structure ChatCompletionUsage where
  promptTokens : ℤ
  completionTokens : ℤ
  totalTokens : ℤ
  deriving DecidableEq, Repr

structure EngineTiming where
  queueTimeMs : FloatText
  prefillTimeMs : FloatText
  decodeTimeMs : FloatText
  inferenceTimeMs : FloatText
  deriving DecidableEq, Repr

structure ChatStreamChunk where
  content : String
  finishReason : Option FinishReason
  usage : Option ChatCompletionUsage
  timing : Option EngineTiming
  deriving DecidableEq, Repr

structure ChatCompletionChoice where
  index : ℕ
  content : String
  finishReason : FinishReason
  deriving DecidableEq, Repr

structure ChatCompletionResponse where
  model : String
  choices : List ChatCompletionChoice
  usage : ChatCompletionUsage
  timing : Option EngineTiming
  resolved : Option ResolvedRequest
  warnings : List ResponseWarning
  deriving DecidableEq, Repr

theorem valid_limits (r : ValidRequest) :
    intIn 1 4096 r.val.maxTokens = true ∧ intIn 1 4096 r.val.maxOutputTokens = true := by
  have h := r.property
  simp only [ChatCompletionRequest.valid, Bool.and_eq_true] at h
  exact ⟨h.1.1.1.2, h.2⟩

end InferenceX.ChatSchema
