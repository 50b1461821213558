import InferenceX.ChatDispatch
import InferenceX.StreamEvents
import InferenceX.Library.StepRuns

/-!
# The two chat coroutines as machines

`stream_response` is an async generator. It rests where it yields, where the
consumer resumes it or throws into it, and where it awaits, where admission,
the engine's iterator or the closing of that iterator answers. Any of these
may raise, a cancellation included. A step runs from one rest to the next and
lists what happened on the way, in order. `complete` awaits twice.
-/

set_option autoImplicit false

namespace InferenceX.StreamMachine
open Library.JsonText
open InferenceX.PythonValues InferenceX.ChatSchema InferenceX.AdmissionGates
open InferenceX.ChatDispatch InferenceX.StreamEvents

/-- One call of the service, with what it reads besides its awaits. `openStream`
is the call of `generate_stream`, which may raise before it gives an iterator. -/
structure Job (E : Type) where
  service : ChatService E
  request : ValidRequest
  completionId : String
  streamTimeoutS : Except PyError FloatText
  openStream : E → ChatCompletionRequest → Option PyError

structure Admitted (E : Type) where
  model : String
  engine : E
  result : AdmissionResult

inductive Output (E : Type) where
  | event (e : SseEvent)
  | invoke (model : String) (engine : E) (effective : ChatCompletionRequest)
  | release (model : String) (reserved : ℤ)

variable {E : Type}

def Job.effective (job : Job E) (a : Admitted E) : ChatCompletionRequest :=
  effectiveRequest job.request.val a.result

def Job.includeUsage (job : Job E) : Bool :=
  match job.request.val.streamOptions with
  | none => false
  | some options => options.includeUsage

/-- `release(routed_model, admitted.reserved_tokens)`. -/
def Admitted.release (a : Admitted E) : Output E := .release a.model a.result.reservedTokens

/-- An exception leaves an async generator as it is, except that one that
would end the iteration becomes a `RuntimeError`. -/
def surfaced : PyError → PyError
  | .stopAsyncIteration => .runtimeError "async generator raised StopAsyncIteration"
  | e => e

/-- Where the generator rests. The rests from `prologue` to `closing` lie
inside the `try`; `closing` is the await of `gen.aclose()`. -/
inductive Pc (E : Type) where
  | created
  | admitting (model : String) (engine : E)
  | prologue (a : Admitted E)
  | pulling (a : Admitted E)
  | content (a : Admitted E) (chunk : ChatStreamChunk)
  | terminal (a : Admitted E) (chunk : ChatStreamChunk)
  | usage (a : Admitted E)
  | timedOut (a : Admitted E)
  | closing (a : Admitted E) (exit : Option PyError)
  | done
  | finished (exit : Option PyError)

inductive Input where
  | next
  | throw (e : PyError)
  | admitted (result : AdmissionResult)
  | admitRaised (e : PyError)
  | chunk (c : ChatStreamChunk)
  | pullRaised (e : PyError)
  | closed
  | closeRaised (e : PyError)
  deriving DecidableEq, Repr

def prologueEvent (job : Job E) (a : Admitted E) : SseEvent :=
  .prologue job.completionId (resolved (job.effective a)) a.result.warnings

def afterContent (job : Job E) (a : Admitted E) (c : ChatStreamChunk) : Pc E × List (Output E) :=
  match c.finishReason with
  | none => (.pulling a, [])
  | some reason => (.terminal a c, [.event (.terminal job.completionId reason)])

def afterPull (job : Job E) (a : Admitted E) (c : ChatStreamChunk) : Pc E × List (Output E) :=
  if c.content = "" then afterContent job a c
  else (.content a c, [.event (.content job.completionId c.content)])

def afterTerminal (job : Job E) (a : Admitted E) (c : ChatStreamChunk) :
    Pc E × List (Output E) :=
  match c.usage with
  | none => (.pulling a, [])
  | some figures =>
    if job.includeUsage then
      (.usage a, [.event (.usage job.completionId figures c.timing)])
    else (.pulling a, [])

/-- A raising `__anext__`: the end of the iteration, the timeout of one token,
or an exception that leaves the loop. -/
def afterPullRaised (job : Job E) (a : Admitted E) : PyError → Pc E × List (Output E)
  | .stopAsyncIteration => (.closing a none, [])
  | .timeoutError =>
    match job.streamTimeoutS with
    | .ok bound => (.timedOut a, [.event (.error bound)])
    | .error e => (.closing a (some e), [])
  | e => (.closing a (some e), [])

def afterClosed (a : Admitted E) : Option PyError → Pc E × List (Output E)
  | none => (.done, [a.release, .event .done])
  | some e => (.finished (some (surfaced e)), [a.release])

def step (job : Job E) : Pc E → Input → Option (Pc E × List (Output E))
  | .created, .next =>
    match job.service.resolveEngine job.request.val with
    | .error e => some (.finished (some e), [])
    | .ok (model, engine) => some (.admitting model engine, [])
  | .created, .throw e => some (.finished (some e), [])
  | .admitting model engine, .admitted result =>
    match job.streamTimeoutS with
    | .error e => some (.finished (some (surfaced e)), [.release model result.reservedTokens])
    | .ok _ =>
      some (.prologue ⟨model, engine, result⟩, [.event (prologueEvent job ⟨model, engine, result⟩)])
  | .admitting _ _, .admitRaised e => some (.finished (some (surfaced e)), [])
  | .prologue a, .next =>
    match job.openStream a.engine (job.effective a) with
    | some e => some (.finished (some (surfaced e)),
        [.invoke a.model a.engine (job.effective a), a.release])
    | none => some (.pulling a, [.invoke a.model a.engine (job.effective a)])
  | .prologue a, .throw e => some (.finished (some (surfaced e)), [a.release])
  | .pulling a, .chunk c => some (afterPull job a c)
  | .pulling a, .pullRaised e => some (afterPullRaised job a e)
  | .content a c, .next => some (afterContent job a c)
  | .content a _, .throw e => some (.closing a (some e), [])
  | .terminal a c, .next => some (afterTerminal job a c)
  | .terminal a _, .throw e => some (.closing a (some e), [])
  | .usage a, .next => some (.pulling a, [])
  | .usage a, .throw e => some (.closing a (some e), [])
  | .timedOut a, .next => some (.closing a none, [])
  | .timedOut a, .throw e => some (.closing a (some e), [])
  | .closing a exit, .closed => some (afterClosed a exit)
  | .closing _ _, .closeRaised e => some (.finished (some (surfaced e)), [])
  | .done, .next => some (.finished none, [])
  | .done, .throw e => some (.finished (some (surfaced e)), [])
  | _, _ => none

inductive CompletePc (E : Type) where
  | created
  | admitting (model : String) (engine : E)
  | generating (a : Admitted E)
  | finished (exit : Except PyError ChatCompletionResponse)

inductive CompleteInput where
  | start
  | admitted (result : AdmissionResult)
  | admitRaised (e : PyError)
  | generated (response : ChatCompletionResponse)
  | generateRaised (e : PyError)
  deriving DecidableEq, Repr

def completeStep (job : Job E) :
    CompletePc E → CompleteInput → Option (CompletePc E × List (Output E))
  | .created, .start =>
    match job.service.resolveEngine job.request.val with
    | .error e => some (.finished (.error e), [])
    | .ok (model, engine) => some (.admitting model engine, [])
  | .admitting model engine, .admitted result =>
    let a : Admitted E := ⟨model, engine, result⟩
    some (.generating a, [.invoke model engine (job.effective a)])
  | .admitting _ _, .admitRaised e => some (.finished (.error e), [])
  | .generating a, .generated response =>
    some (.finished (.ok (attach response (job.effective a) a.result)), [a.release])
  | .generating a, .generateRaised e => some (.finished (.error e), [a.release])
  | _, _ => none

def releases : List (Output E) → List (String × ℤ)
  | [] => []
  | .release model reserved::os => (model, reserved)::releases os
  | _::os => releases os

def events : List (Output E) → List SseEvent
  | [] => []
  | .event e::os => e::events os
  | _::os => events os

@[simp] theorem releases_append (xs ys : List (Output E)) :
    releases (xs++ys) = releases xs++releases ys := by
  induction xs with
  | nil => rfl
  | cons x xs ih => cases x <;> simp [releases, ih]

@[simp] theorem events_append (xs ys : List (Output E)) :
    events (xs++ys) = events xs++events ys := by
  induction xs with
  | nil => rfl
  | cons x xs ih => cases x <;> simp [events, ih]

def smallJob (engine : E) (request : ValidRequest) : Job E where
  service := smallService engine
  request := request
  completionId := "chatcmpl-0"
  streamTimeoutS := .ok (.decimal false 30 (.frac ⟨0, []⟩ none))
  openStream := fun _ _ => none

def helloJob : Job Unit := smallJob () helloRequest

def helloResult : AdmissionResult := ⟨100, 110, []⟩

end InferenceX.StreamMachine
