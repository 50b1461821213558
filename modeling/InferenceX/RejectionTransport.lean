import InferenceX.ChatRoute

/-!
# What a rejected client is told

Without `stream` a rejection is raised in the route and becomes the response
of its handler. With `stream` the response has started before admission runs,
so the client reads status 200 and a body that breaks off. No rejection is told
the same on both paths.
-/

set_option autoImplicit false

namespace InferenceX.RejectionTransport
open Library.StepRuns
open InferenceX.PythonValues InferenceX.ChatSchema InferenceX.AdmissionGates
open InferenceX.AdmissionMachine (Call State admitCall afterSlot enter)
open InferenceX.ChatDispatch InferenceX.StreamEvents InferenceX.StreamMachine InferenceX.ChatRoute

def withStream (r : ValidRequest) (b : Bool) : ValidRequest :=
  ⟨{ r.val with stream := b }, r.property⟩

def streamJob {E : Type} (job : Job E) (b : Bool) : Job E :=
  { job with request := withStream job.request b }

inductive AdmitRaises (c : AdmissionController) (s : State) (call : Call) (e : PyError) : Prop
  | starting (t : State) (h : AdmissionMachine.step c s (.arrive call) = some (t, .raised e))
  | resuming (t : State) (w : AdmissionMachine.WaitingCall) (hw : s.findWaiting call.id = some w)
      (hc : w.call = call) (h : AdmissionMachine.step c s (.resume call.id) = some (t, .raised e))

/-- A request is rejected with `e`, before admission or by it; the index is
what `admit` raises when it is called. -/
inductive Rejection (job : Job BaseEngine) (s : State) (e : PyError) : Option PyError → Prop
  | unresolved (h : job.service.resolveEngine job.request.val = .error e) : Rejection job s e none
  | refused (id : ℕ) (model : String) (engine : BaseEngine)
      (h : job.service.resolveEngine job.request.val = .ok (model, engine))
      (hraise : AdmitRaises job.service.admission s ⟨id, model, job.request, engine⟩ e) :
      Rejection job s e (some e)

def completeInputs (answer : Option PyError) : List CompleteInput :=
  .start::(answer.map CompleteInput.admitRaised).toList

def streamInputs (answer : Option PyError) : List Input :=
  .next::(answer.map Input.admitRaised).toList

/-- What the client is to be told: the status and the `Retry-After` header. -/
def expected : PyError → Option (ℕ × Option String)
  | .engineSaturated _ retryAfterS => some (429, some (toString (retryAfter retryAfterS)))
  | .contextTooLong _ => some (400, none)
  | .strictModeViolation _ => some (400, none)
  | .valueError _ => some (400, none)
  | _ => none

def Head.view (h : Head) : ℕ × Option String := (h.status, h.retryAfter)

/-- The answer to a request with `stream` set to `b`; `requested` is what the
middleware took from the raw body. -/
def clientView (F : Framework) (job : Job BaseEngine) (answer : Option PyError)
    (requested b : Bool) : Option (ℕ × Option String) :=
  (chatCompletions F (streamJob job b) (completeInputs answer) (streamInputs answer)).map
    fun head => Head.view (dispatchHead F requested head)

def Transported (F : Framework) (job : Job BaseEngine) (answer : Option PyError) (e : PyError) :
    Prop :=
  ∀ b, clientView F job answer b b = expected e

theorem expected_handler (e : PyError) (view : ℕ × Option String) (h : expected e = some view) :
    ∃ r, handlerFor e = some r ∧ Head.view r.head = view ∧ r.head.status ≠ 200 := by
  cases e <;>
    first
      | exact ⟨_, rfl, Option.some.inj h, by
          simp [engineSaturatedErrorHandler, valueErrorHandler]⟩
      | cases h

section Told
variable (F : Framework) (job : Job BaseEngine) (s : State) (e : PyError)
  (answer : Option PyError) (h : Rejection job s e answer)
include h

theorem told_plain (hk : expected e ≠ none) (requested : Bool) :
    clientView F job answer requested false = expected e := by
  obtain ⟨view, hview⟩ := Option.ne_none_iff_exists'.mp hk
  obtain ⟨r, hr, hrview, hstatus⟩ := expected_handler e view hview
  have hrun : ∃ oss, run (completeStep (streamJob job false)) .created (completeInputs answer) =
      some (.finished (.error e), oss) := by
    cases h with
    | unresolved hres =>
      have hres' : (streamJob job false).service.resolveEngine
        (streamJob job false).request.val = .error e := hres
      simp [completeInputs, run, completeStep, hres']
    | refused id model engine hres hraise =>
      have hres' : (streamJob job false).service.resolveEngine
        (streamJob job false).request.val = .ok (model, engine) := hres
      simp [completeInputs, run, completeStep, hres']
  obtain ⟨oss, hrun⟩ := hrun
  have hplain : chatCompletions F (streamJob job false) (completeInputs answer)
      (streamInputs answer) = completeHead F (streamJob job false) (completeInputs answer) := rfl
  rw [clientView, hplain, completeHead, hrun]
  simp only [completeMessages, F.handled handlerFor e r hr, JsonResponse.messages, clientHead,
    Option.map_some, dispatchHead_error F requested r.head hstatus, hrview, hview]

theorem told_stream (requested : Bool) :
    ∃ retry, clientView F job answer requested true = some (200, retry) := by
  have hrun : ∃ exit oss, run (step (streamJob job true)) .created (streamInputs answer) =
      some (.finished (some exit), oss) := by
    cases h with
    | unresolved hres =>
      have hres' : (streamJob job true).service.resolveEngine
        (streamJob job true).request.val = .error e := hres
      simp [streamInputs, run, step, hres']
    | refused id model engine hres hraise =>
      have hres' : (streamJob job true).service.resolveEngine
        (streamJob job true).request.val = .ok (model, engine) := hres
      simp [streamInputs, run, step, hres']
  obtain ⟨exit, oss, hrun⟩ := hrun
  obtain ⟨headers, rest, hstart⟩ := F.starts_first "text/event-stream"
    ((events oss.flatten).map SseEvent.text) (some exit)
  obtain ⟨more, hstays⟩ := F.started_stays handlerFor ⟨200, headers⟩ rest exit
  have hstream : chatCompletions F (streamJob job true) (completeInputs answer)
      (streamInputs answer) = streamHead F (streamJob job true) (streamInputs answer) := rfl
  refine ⟨(dispatchHead F requested ⟨200, headers⟩).retryAfter, ?_⟩
  rw [clientView, hstream, streamHead, hrun]
  simp only [streamMessages, hstart, hstays, clientHead, Option.map_some, Head.view,
    dispatchHead_status]

end Told

/-- Every rejection is told to a plain client, and none is told the same on
both paths. -/
theorem never_transported (F : Framework) (job : Job BaseEngine) (s : State) (e : PyError)
    (answer : Option PyError) (h : Rejection job s e answer) (hk : expected e ≠ none) :
    clientView F job answer false false = expected e ∧ ¬ Transported F job answer e := by
  refine ⟨told_plain F job s e answer h hk false, fun htold => ?_⟩
  obtain ⟨retry, hstream⟩ := told_stream F job s e answer h true
  have hboth : expected e = some (200, retry) := (htold true).symm.trans hstream
  cases e <;> simp [expected] at hboth

def longJob : Job BaseEngine := smallJob (countingEngine 300 (some 400)) helloRequest

def tooLong : PyError := promptTooLong "m" 300 256

theorem tooLong_rejected : Rejection longJob AdmissionMachine.initial tooLong (some tooLong) := by
  have hraise : ((AdmissionMachine.step longJob.service.admission AdmissionMachine.initial
      (.arrive ⟨0, "m", helloRequest, countingEngine 300 (some 400)⟩)).map Prod.snd) =
        some (.raised tooLong) := by decide +kernel
  obtain ⟨⟨t, o⟩, hstep, ho⟩ := Option.map_eq_some_iff.mp hraise
  obtain rfl : o = .raised tooLong := ho
  exact .refused 0 "m" _ rfl (.starting t hstep)

theorem never_transported_long :
    clientView starlette longJob (some tooLong) false false = expected tooLong ∧
    ¬ Transported starlette longJob (some tooLong) tooLong :=
  never_transported starlette longJob AdmissionMachine.initial tooLong (some tooLong)
    tooLong_rejected (by decide)

/-- A streaming client reads status 200 for the prompt that is refused. -/
theorem long_stream_starts :
    Rejection longJob AdmissionMachine.initial tooLong (some tooLong) ∧
    clientView starlette longJob (some tooLong) false false = some (400, none) ∧
    clientView starlette longJob (some tooLong) true true = some (200, none) ∧
    ¬ Transported starlette longJob (some tooLong) tooLong := by
  refine ⟨tooLong_rejected, by decide +kernel, by decide +kernel, fun h => ?_⟩
  exact absurd (h true) (by decide +kernel)

end InferenceX.RejectionTransport
