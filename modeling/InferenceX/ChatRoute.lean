import InferenceX.AdmissionMachine
import InferenceX.StreamMachine

/-!
# The chat route and its error handlers

A request with `stream` set is answered by a streaming response around the
generator, any other by the result of `complete`. An exception of the route is
turned into a response by the handler of its class, and the middleware passes
the head on. What the framework does is a structure with the things assumed of it.
-/

set_option autoImplicit false

namespace InferenceX.ChatRoute
open Library.StepRuns Library.JsonText
open InferenceX.PythonValues InferenceX.ChatSchema InferenceX.AdmissionGates
open InferenceX.StreamEvents InferenceX.StreamMachine

structure Head where
  status : ℕ
  headers : List (String × String)
  deriving DecidableEq, Repr

inductive Message where
  | start (head : Head)
  | body (text : List Char)
  deriving DecidableEq, Repr

structure JsonResponse where
  head : Head
  content : Json

def JsonResponse.messages (r : JsonResponse) : List Message :=
  [.start r.head, .body (asciiDumps r.content)]

def clientHead : List Message → Option Head
  | [] => none
  | .start head::_ => some head
  | .body _::rest => clientHead rest

def retryAfterHeader : String := "Retry-After"

def Head.retryAfter (h : Head) : Option String := h.headers.lookup retryAfterHeader

/-- `ErrorResponse(error=ErrorDetail(message, type)).model_dump()`. -/
def errorResponse (message type : String) : Json :=
  .obj [("error", .obj [("message", .str message), ("type", .str type), ("code", .null)])]

def clientErrorMessage : String := "Request could not be processed."

def runtimeErrorHandler : JsonResponse :=
  ⟨⟨500, []⟩, errorResponse clientErrorMessage "internal_error"⟩

def valueErrorHandler : JsonResponse :=
  ⟨⟨400, []⟩, errorResponse clientErrorMessage "invalid_request_error"⟩

/-- `max(1, round(exc.retry_after_s))`. -/
def retryAfter (retryAfterS : ℚ) : ℤ := max 1 (roundHalfEven retryAfterS)

def engineSaturatedErrorHandler (message : String) (retryAfterS : ℚ) : JsonResponse :=
  ⟨⟨429, [(retryAfterHeader, toString (retryAfter retryAfterS))]⟩,
    errorResponse message "rate_limit_error"⟩

def handlerFor (e : PyError) : Option JsonResponse :=
  match e with
  | .engineSaturated message retryAfterS => some (engineSaturatedErrorHandler message retryAfterS)
  | .runtimeError _ => some runtimeErrorHandler
  | .noVariantFits _ => some runtimeErrorHandler
  | e => if e.isValueError then some valueErrorHandler else none

/-- The serving framework, with what the route relies on: a streaming response
sends its head before it first advances its body, a handled exception becomes
the handler's response, a head that was sent stays, and a response has the
status it was made with. -/
structure Framework where
  streaming : String → List (List Char) → Option PyError → List Message
  rendered : ChatCompletionResponse → List Message
  onException : (PyError → Option JsonResponse) → List Message → PyError → List Message
  response : ℕ → List (String × String) → Head
  starts_first : ∀ mediaType chunks exit, ∃ headers rest,
    streaming mediaType chunks exit = .start ⟨200, headers⟩::rest
  handled : ∀ handlers e r, handlers e = some r → onException handlers [] e = r.messages
  started_stays : ∀ handlers head sent e, ∃ more,
    onException handlers (.start head::sent) e = .start head::(sent++more)
  response_status : ∀ status headers, (response status headers).status = status

/-- The framework's behaviour on chunks, exceptions and started responses, with
a bare response for a result and for an exception without a handler. -/
def starlette : Framework where
  streaming mediaType chunks _ :=
    .start ⟨200, [("content-type", mediaType)]⟩::chunks.map .body
  rendered _ := [.start ⟨200, []⟩]
  onException handlers sent e :=
    match sent, handlers e with
    | [], some r => r.messages
    | [], none => [.start ⟨500, []⟩, .body "Internal Server Error".toList]
    | sent, _ => sent
  response status headers := ⟨status, headers⟩
  starts_first _ _ _ := ⟨_, _, rfl⟩
  handled _ _ _ h := by simp [h]
  started_stays _ _ sent _ := ⟨[], by simp⟩
  response_status _ _ := rfl

section Route
variable {E : Type} (F : Framework) (job : Job E)

/-- `return await service.complete(request)`. -/
def completeMessages (exit : Except PyError ChatCompletionResponse) : List Message :=
  match exit with
  | .ok response => F.rendered response
  | .error e => F.onException handlerFor [] e

/-- `StreamingResponse(service.stream_response(request), media_type="text/event-stream")`. -/
def streamMessages (yielded : List SseEvent) (exit : Option PyError) : List Message :=
  let sent := F.streaming "text/event-stream" (yielded.map SseEvent.text) exit
  match exit with
  | none => sent
  | some e => F.onException handlerFor sent e

def completeHead (es : List CompleteInput) : Option Head :=
  match run (completeStep job) .created es with
  | some (.finished exit, _) => clientHead (completeMessages F exit)
  | _ => none

def streamHead (es : List Input) : Option Head :=
  match run (step job) .created es with
  | some (.finished exit, oss) => clientHead (streamMessages F (events oss.flatten) exit)
  | _ => none

def chatCompletions (es : List CompleteInput) (es' : List Input) : Option Head :=
  if job.request.val.stream then streamHead F job es' else completeHead F job es

end Route

def dictOf (items : List (String × String)) : List (String × String) :=
  items.foldl (fun d p =>
    if d.any (fun q => q.1 = p.1) then d.map fun q => if q.1 = p.1 then p else q
    else d++[p]) []

def isEventStream (h : Head) : Bool :=
  (h.headers.find? fun p => p.1.toLower = "content-type").any fun p =>
    p.2.toList.tails.any fun t => "text/event-stream".toList.isPrefixOf t

/-- What `ObservabilityMiddleware.dispatch` makes of the head of a chat
response: it wraps the body of an event stream, rebuilds a plain 200 response,
and leaves every other as it is. -/
def dispatchHead (F : Framework) (streamRequested : Bool) (h : Head) : Head :=
  if h.status = 200 ∧ isEventStream h = true then h
  else if h.status = 200 ∧ streamRequested = false then
    F.response h.status (dictOf (h.headers.filter fun p => p.1.toLower ≠ "content-length"))
  else h

theorem dispatchHead_status (F : Framework) (streamRequested : Bool) (h : Head) :
    (dispatchHead F streamRequested h).status = h.status := by
  rw [dispatchHead]
  split_ifs
  · rfl
  · exact F.response_status _ _
  · rfl

theorem dispatchHead_error (F : Framework) (streamRequested : Bool) (h : Head)
    (hs : h.status ≠ 200) : dispatchHead F streamRequested h = h := by
  rw [dispatchHead, if_neg fun hh => hs hh.1, if_neg fun hh => hs hh.1]

end InferenceX.ChatRoute
