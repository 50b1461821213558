import InferenceX.JsonAccess
import InferenceX.StreamFrames

/-!
# The readers of one data line

The metrics middleware, the playground and the benchmark runner each read an
event in their own way: other defaults for missing members, other exceptions
caught. What each makes of the producer's events is one lemma per reader.
-/

set_option autoImplicit false

namespace InferenceX.SseReaders
open Library.JsonText Library.TextLines Library.Utf8Text Library.CharClasses
open InferenceX.PythonValues InferenceX.ChatSchema InferenceX.JsonAccess
open InferenceX.StreamEvents InferenceX.StreamFrames

def dataField : List Char := ['d', 'a', 't', 'a', ':']

/-- What stands behind `data:`, unless it is nothing or the end marker. -/
def dataText (text : List Char) : Option (List Char) :=
  if dataField.isPrefixOf text then
    let data := strip (text.drop dataField.length)
    if data = [] ∨ data = doneText then none else some data
  else none

def readUsage (k : CharTable) (payload : Json) : Except PyError (Option (ℤ × ℤ)) := do
  let usage ← dictGet payload "usage" .null
  match usage with
  | .obj _ =>
    let prompt ← toInt k (← dictGet usage "prompt_tokens" (.int 0))
    let completion ← toInt k (← dictGet usage "completion_tokens" (.int 0))
    return some (prompt, completion)
  | _ => return none

def extractSseUsage (k : CharTable) (line : List UInt8) : Option (ℤ × ℤ) :=
  match dataText (strip (decodeIgnore line)) with
  | none => none
  | some data =>
    match parse data >>= readUsage k with
    | .ok usage => usage
    | .error _ => none

def readContentDelta (payload : Json) : Except PyError Bool := do
  let choices ← dictGet payload "choices" .null
  if truthy choices then
    let delta ← dictGet (← item0 choices) "delta" (.obj [])
    let content ← dictGet delta "content" .null
    return truthy content
  else return false

def hasContentDelta (line : List UInt8) : Bool :=
  match dataText (strip (decodeIgnore line)) with
  | none => false
  | some data =>
    match parse data >>= readContentDelta with
    | .ok found => found
    | .error _ => false

def readToken (payload : Json) : Except PyError (Option String) := do
  let choices ← dictGet payload "choices" .null
  if truthy choices then
    let delta ← dictGet (← item0 choices) "delta" .null
    let content ← dictGet (if truthy delta then delta else .obj []) "content" .null
    match content with
    | .str s => return some s
    | _ => return none
  else return none

def parseSseLine (line : List Char) : Except PyError (Option String) :=
  match dataText (strip line) with
  | none => .ok none
  | some data =>
    match parse data >>= readToken with
    | .error .jsonDecodeError => .ok none
    | .error .attributeError => .ok none
    | .error .typeError => .ok none
    | outcome => outcome

inductive RunnerLine where
  | skipped
  | counted (completionTokens : ℤ)
  | delta (hasContent : Bool)
  deriving DecidableEq, Repr

def readRunnerLine (k : CharTable) (chunk : Json) : Except PyError RunnerLine := do
  let usage ← dictGet chunk "usage" .null
  match usage with
  | .obj _ =>
    let completion ← toInt k (← dictGet usage "completion_tokens" (.int 0))
    return .counted completion
  | _ =>
    let choices ← dictGet chunk "choices" .null
    let choice ← item0 (if truthy choices then choices else .arr [.obj []])
    let delta ← dictGet choice "delta" (.obj [])
    let content ← dictGet delta "content" (.str "")
    return .delta (truthy content)

/-- The body of the loop over lines; it catches two exceptions. -/
def runnerLine (k : CharTable) (line : List Char) : Except PyError RunnerLine :=
  match dataText line with
  | none => .ok .skipped
  | some data =>
    match parse data >>= readRunnerLine k with
    | .error .jsonDecodeError => .ok .skipped
    | .error .indexError => .ok .skipped
    | outcome => outcome

theorem dataText_frame (e : SseEvent) :
    dataText (frame e) = e.payload.map fun _ => eventData e := by
  have hp : dataField.isPrefixOf (frame e) = true := rfl
  have hdrop : (frame e).drop dataField.length = ' '::eventData e := rfl
  rw [dataText, if_pos hp, hdrop]
  simp only [strip_data]
  cases h : e.payload with
  | none => simp [eventData, h]
  | some payload =>
    obtain ⟨c, inner, d, hd, -⟩ := data_bracketed e
    have hne : eventData e ≠ [] := by simp [hd]
    simp [hne, data_ne_done e payload h]

theorem dataText_stripped (e : SseEvent) :
    dataText (strip (frame e)) = e.payload.map fun _ => eventData e := by
  rw [strip_frame, dataText_frame]

theorem parse_event (e : SseEvent) (payload : Json) (h : e.payload = some payload) :
    parse (eventData e) = .ok payload := by
  rw [parse, loads_data e payload h]

section Payloads
variable (e : SseEvent) (payload : Json) (h : e.payload = some payload)
include h

theorem readUsage_payload (k : CharTable) :
    readUsage k payload = .ok ((usageFigures e).map fun figures =>
      (figures.promptTokens, figures.completionTokens)) := by
  cases e with
  | usage id figures timing => cases timing <;> cases h <;> rfl
  | _ => cases h <;> rfl

theorem readContentDelta_payload : readContentDelta payload = .ok (carriesText e) := by
  cases e with
  | usage id figures timing => cases timing <;> cases h <;> rfl
  | _ => cases h <;> rfl

theorem readToken_payload : readToken payload = .ok (contentText e) := by
  cases e with
  | usage id figures timing => cases timing <;> cases h <;> rfl
  | _ => cases h <;> rfl

theorem readRunnerLine_payload (k : CharTable) :
    readRunnerLine k payload = .ok (match usageFigures e with
      | some figures => .counted figures.completionTokens
      | none => .delta (carriesText e)) := by
  cases e with
  | usage id figures timing => cases timing <;> cases h <;> rfl
  | _ => cases h <;> rfl

end Payloads

theorem extractSseUsage_event (k : CharTable) (e : SseEvent) :
    extractSseUsage k (encode (frame e)) =
      (usageFigures e).map fun figures => (figures.promptTokens, figures.completionTokens) := by
  rw [extractSseUsage, decodeIgnore_encode, dataText_stripped]
  cases h : e.payload with
  | none => cases e <;> first | rfl | cases h
  | some payload =>
    simp only [Option.map_some, parse_event e payload h]
    show (match readUsage k payload with | .ok usage => usage | .error _ => none) = _
    rw [readUsage_payload e payload h k]

theorem hasContentDelta_event (e : SseEvent) :
    hasContentDelta (encode (frame e)) = carriesText e := by
  rw [hasContentDelta, decodeIgnore_encode, dataText_stripped]
  cases h : e.payload with
  | none => cases e <;> first | rfl | cases h
  | some payload =>
    simp only [Option.map_some, parse_event e payload h]
    show (match readContentDelta payload with | .ok found => found | .error _ => false) = _
    rw [readContentDelta_payload e payload h]

theorem parseSseLine_event (e : SseEvent) : parseSseLine (frame e) = .ok (contentText e) := by
  rw [parseSseLine, dataText_stripped]
  cases h : e.payload with
  | none => cases e <;> first | rfl | cases h
  | some payload =>
    have hread : parse (eventData e) >>= readToken = .ok (contentText e) := by
      rw [parse_event e payload h]
      exact readToken_payload e payload h
    simp only [Option.map_some, hread]

def runnerReading (e : SseEvent) : RunnerLine :=
  match e.payload, usageFigures e with
  | none, _ => .skipped
  | some _, some figures => .counted figures.completionTokens
  | some _, none => .delta (carriesText e)

theorem runnerLine_event (k : CharTable) (e : SseEvent) :
    runnerLine k (frame e) = .ok (runnerReading e) := by
  rw [runnerLine, dataText_frame]
  cases h : e.payload with
  | none => simp [runnerReading, h]
  | some payload =>
    have hread : parse (eventData e) >>= readRunnerLine k = .ok (runnerReading e) := by
      rw [parse_event e payload h]
      show readRunnerLine k payload = _
      rw [readRunnerLine_payload e payload h k, runnerReading, h]
      cases usageFigures e <;> rfl
    simp only [Option.map_some, hread]

end InferenceX.SseReaders
