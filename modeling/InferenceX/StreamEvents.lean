import InferenceX.Library.JsonPrintable
import InferenceX.ChatSchema

/-!
# The events of a chat stream

Six kinds of events are yielded. All but the timeout and the end marker are a
JSON payload built by the service; the timeout event is written out as text.
The text of an event is what the generator yields.
-/

set_option autoImplicit false

namespace InferenceX.StreamEvents
open Library.JsonText
open InferenceX.ChatSchema

inductive SseEvent where
  | prologue (id : String) (resolved : ResolvedRequest) (warnings : List ResponseWarning)
  | content (id : String) (text : String)
  | terminal (id : String) (reason : FinishReason)
  | usage (id : String) (figures : ChatCompletionUsage) (timing : Option EngineTiming)
  | error (timeoutS : FloatText)
  | done
  deriving DecidableEq, Repr

def contentText : SseEvent → Option String
  | .content _ text => some text
  | _ => none

def usageFigures : SseEvent → Option ChatCompletionUsage
  | .usage _ figures _ => some figures
  | _ => none

def carriesText (e : SseEvent) : Bool := (contentText e).any fun text => text ≠ ""

def nullable {A : Type} (f : A → Json) : Option A → Json
  | none => .null
  | some a => f a

def ResolvedRequest.dump (r : ResolvedRequest) : Json :=
  .obj [("model", .str r.model), ("temperature", nullable .float r.temperature),
    ("max_tokens", nullable .int r.maxTokens), ("top_p", nullable .float r.topP),
    ("max_context_tokens", nullable .int r.maxContextTokens),
    ("max_output_tokens", nullable .int r.maxOutputTokens),
    ("priority", .str r.priority.text), ("seed", nullable .int r.seed)]

def ResponseWarning.dump (w : ResponseWarning) : Json :=
  .obj [("type", .str w.type.text), ("code", .str w.code), ("message", .str w.message),
    ("field", nullable .str w.field)]

def ChatCompletionUsage.dump (u : ChatCompletionUsage) : Json :=
  .obj [("prompt_tokens", .int u.promptTokens), ("completion_tokens", .int u.completionTokens),
    ("total_tokens", .int u.totalTokens)]

def EngineTiming.dump (t : EngineTiming) : Json :=
  .obj [("queue_time_ms", .float t.queueTimeMs), ("prefill_time_ms", .float t.prefillTimeMs),
    ("decode_time_ms", .float t.decodeTimeMs), ("inference_time_ms", .float t.inferenceTimeMs)]

def chunkHead (id : String) (choices : List Json) : List (String × Json) :=
  [("id", .str id), ("object", .str "chat.completion.chunk"), ("choices", .arr choices)]

def choice (delta : List (String × Json)) (reason : Json) : Json :=
  .obj [("delta", .obj delta), ("index", .int 0), ("finish_reason", reason)]

def timingMember : Option EngineTiming → List (String × Json)
  | none => []
  | some t => [("timing", EngineTiming.dump t)]

/-- The payload of an event; the end marker has none. -/
def SseEvent.payload : SseEvent → Option Json
  | .prologue id resolved warnings =>
    some (.obj (chunkHead id [] ++ [("resolved", ResolvedRequest.dump resolved),
      ("warnings", .arr (warnings.map ResponseWarning.dump))]))
  | .content id text =>
    some (.obj (chunkHead id [choice [("content", .str text)] .null]))
  | .terminal id reason =>
    some (.obj (chunkHead id [choice [] (.str reason.text)]))
  | .usage id figures timing =>
    some (.obj (chunkHead id [] ++
      ("usage", ChatCompletionUsage.dump figures)::timingMember timing))
  | .error timeoutS =>
    some (.obj [("error", .str ("stream timed out after " ++
      String.ofList timeoutS.repr ++ "s"))])
  | .done => none

def dataPrefix : List Char := ['d', 'a', 't', 'a', ':', ' ']

def eventText (payload : Json) : List Char := dataPrefix ++ asciiDumps payload ++ ['\n', '\n']

def SseEvent.text (e : SseEvent) : List Char :=
  match e with
  | .error timeoutS =>
    dataPrefix ++ "\x7b\"error\":\"stream timed out after ".toList ++ timeoutS.repr ++
      "s\"\x7d\n\n".toList
  | .done => dataPrefix ++ ['[', 'D', 'O', 'N', 'E', ']', '\n', '\n']
  | e =>
    match e.payload with
    | some payload => eventText payload
    | none => []

end InferenceX.StreamEvents
