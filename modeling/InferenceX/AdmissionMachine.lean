import InferenceX.AdmissionGates
import InferenceX.Library.SlotSemaphore
import InferenceX.Library.StepRuns

/-!
# Admission as a state machine

Between two suspension points the event loop runs one task without
interruption, so a step is one stretch of one call: it starts, its wait is
timed out or cancelled, it resumes, or its reservation is released. A call
whose wait bound is not positive never reaches the semaphore: the inner task
is cancelled before its first statement. Every task of a queued call keeps
both signals, because `wait_for` turns a cancellation into a timeout only if
no other cancellation was requested.
-/

set_option autoImplicit false

namespace InferenceX.AdmissionMachine
open Library.JsonText Library.SlotSemaphore
open InferenceX.PythonValues InferenceX.ChatSchema InferenceX.ModelRegistry
open InferenceX.AdmissionGates

/-- `_PerModelCounter`: a model that was never counted has zero, and the floor
in `add` keeps every count a natural number. -/
abbrev Counter := String → ℕ

def Counter.add (counts : Counter) (model : String) (amount : ℤ) : Counter :=
  Function.update counts model (max 0 ((counts model : ℤ)+amount)).toNat

/-- One `admit` call; the identifier names its task. -/
structure Call where
  id : ℕ
  model : String
  request : ValidRequest
  engine : BaseEngine

structure WaitingCall where
  call : Call
  expired : Bool
  timedOut : Bool
  cancelled : Bool

structure Admission where
  id : ℕ
  model : String
  reserved : ℤ
  deriving DecidableEq, Repr

structure State where
  tracker : Counter
  batchWaiters : Counter
  semaphores : String → Option (Semaphore ℕ)
  waiting : List WaitingCall
  outstanding : List Admission

def initial : State where
  tracker := fun _ => 0
  batchWaiters := fun _ => 0
  semaphores := fun _ => none
  waiting := []
  outstanding := []

inductive Event where
  | arrive (call : Call)
  | timeout (id : ℕ)
  | cancel (id : ℕ)
  | resume (id : ℕ)
  | release (id : ℕ)

inductive Outcome where
  | suspended
  | signalled
  | returned (result : AdmissionResult)
  | raised (e : PyError)
  | released
  | releaseRaised (e : PyError)
  deriving DecidableEq, Repr

def waitBound (c : AdmissionController) : Priority → FloatText
  | .interactive => c.admissionWaitS
  | .batch => c.batchAdmissionWaitS

def queueFull (model : String) (cap : ℤ) : PyError :=
  .engineSaturated (s!"Model '{model}' batch queue is full " ++
    s!"({cap} requests already waiting); retry shortly.") 1

def noSlotFreed (c : AdmissionController) (call : Call) : PyError :=
  let bound := String.ofList (waitBound c call.request.val.priority).repr
  .engineSaturated (s!"Model '{call.model}' is at its concurrent-sequence limit; " ++
    s!"no slot freed within {bound}s; retry shortly.") 1

def negativeBound : PyError := .valueError "Semaphore initial value must be >= 0"

def overReleased : PyError := .valueError "BoundedSemaphore released too many times"

namespace State

def setSemaphore (s : State) (model : String) (sem : Semaphore ℕ) : State :=
  { s with semaphores := Function.update s.semaphores model (some sem) }

/-- `_get_semaphore`; `none` is the `ValueError` of a negative bound. -/
def getSemaphore (s : State) (model : String) (limit : ℤ) : Option (State × Semaphore ℕ) :=
  match s.semaphores model with
  | some sem => some (s, sem)
  | none =>
    if limit < 0 then none
    else some (s.setSemaphore model (.create limit.toNat), .create limit.toNat)

/-- `sem.release()` on the semaphore of the model, if there is one. -/
def releasePermit (s : State) (model : String) : Option State :=
  match s.semaphores model with
  | none => some s
  | some sem => sem.release.map (s.setSemaphore model)

def countWaiter (s : State) (call : Call) (amount : ℤ) : State :=
  match call.request.val.priority with
  | .interactive => s
  | .batch => { s with batchWaiters := s.batchWaiters.add call.model amount }

def wait (s : State) (call : Call) (expired : Bool) : State :=
  { s with waiting := ⟨call, expired, false, false⟩::s.waiting }

def leave (s : State) (id : ℕ) : State :=
  { s with waiting := s.waiting.eraseP fun w => w.call.id = id }

def live (s : State) (id : ℕ) : Bool :=
  s.waiting.any (fun w => w.call.id = id) || s.outstanding.any (fun a => a.id = id)

/-- `task.cancel()` by the timer or from outside, noted by `mark`. -/
def signal (s : State) (w : WaitingCall) (mark : WaitingCall → WaitingCall) : State :=
  { s with
    waiting := s.waiting.map fun v => if v.call.id = w.call.id then mark v else v
    semaphores :=
      if w.expired then s.semaphores
      else Function.update s.semaphores w.call.model
        ((s.semaphores w.call.model).map (Semaphore.interrupt w.call.id)) }

end State

/-- Gates 2 and 3 and the commit; `slot` says that a permit is held. -/
def afterSlot (c : AdmissionController) (s : State) (call : Call) (slot : Bool)
    (warnings : List ResponseWarning) : State × Outcome :=
  match gates c call.model call.request.val call.engine warnings (s.tracker call.model) with
  | .ok result =>
    ({ s with
      tracker := s.tracker.add call.model result.reservedTokens
      outstanding := ⟨call.id, call.model, result.reservedTokens⟩::s.outstanding },
      .returned result)
  | .error e =>
    match if slot then s.releasePermit call.model else some s with
    | none => (s, .raised overReleased)
    | some t => (t, .raised e)

def enter (c : AdmissionController) (s : State) (call : Call) (limit : ℤ) : State × Outcome :=
  match s.getSemaphore call.model limit with
  | none => (s, .raised negativeBound)
  | some (s, sem) =>
    let s := s.countWaiter call 1
    if (waitBound c call.request.val.priority).nonpositive then (s.wait call true, .suspended)
    else if sem.locked then
      ((s.setSemaphore call.model (sem.enqueue call.id)).wait call false, .suspended)
    else
      afterSlot c ((s.setSemaphore call.model sem.acquireNow).countWaiter call (-1)) call true []

def admitCall (c : AdmissionController) (s : State) (call : Call) : State × Outcome :=
  match c.effectiveMaxNumSeqs call.model with
  | none => afterSlot c s call false [sequenceGateSkipped]
  | some limit =>
    match call.request.val.priority with
    | .interactive => enter c s call limit
    | .batch =>
      let cap := c.batchWaiterMultiplier*limit
      if cap ≤ s.batchWaiters call.model then (s, .raised (queueFull call.model cap))
      else enter c s call limit

def interruption (c : AdmissionController) (w : WaitingCall) : PyError :=
  if w.cancelled then .cancelledError else noSlotFreed c w.call

/-- The rest of `admit` after its wait; `none` while the future is pending. -/
def resume (c : AdmissionController) (s : State) (w : WaitingCall) : Option (State × Outcome) :=
  let left := (s.leave w.call.id).countWaiter w.call (-1)
  if w.expired then some (left, .raised (interruption c w))
  else
    match s.semaphores w.call.model with
    | none => none
    | some sem =>
      match sem.resume w.call.id (w.timedOut || w.cancelled) with
      | none => none
      | some (t, true) => some (afterSlot c (left.setSemaphore w.call.model t) w.call true [])
      | some (t, false) => some (left.setSemaphore w.call.model t, .raised (interruption c w))

/-- `release(routed_model, reserved_tokens)`. -/
def release (s : State) (model : String) (reserved : ℤ) : State × Outcome :=
  let counted := { s with tracker := s.tracker.add model (-reserved) }
  match counted.releasePermit model with
  | none => (counted, .releaseRaised overReleased)
  | some t => (t, .released)

def State.findWaiting (s : State) (id : ℕ) : Option WaitingCall :=
  s.waiting.find? fun w => w.call.id = id

def State.findOutstanding (s : State) (id : ℕ) : Option Admission :=
  s.outstanding.find? fun a => a.id = id

def State.settle (s : State) (id : ℕ) : State :=
  { s with outstanding := s.outstanding.eraseP fun a => a.id = id }

def step (c : AdmissionController) (s : State) : Event → Option (State × Outcome)
  | .arrive call => if s.live call.id then none else some (admitCall c s call)
  | .timeout id =>
    match s.findWaiting id with
    | none => none
    | some w =>
      if w.expired || w.timedOut then none
      else some (s.signal w fun v => { v with timedOut := true }, .signalled)
  | .cancel id =>
    match s.findWaiting id with
    | none => none
    | some w => some (s.signal w fun v => { v with cancelled := true }, .signalled)
  | .resume id =>
    match s.findWaiting id with
    | none => none
    | some w => resume c s w
  | .release id =>
    match s.findOutstanding id with
    | none => none
    | some a => some (release (s.settle id) a.model a.reserved)

def Event.model (s : State) : Event → Option String
  | .arrive call => some call.model
  | .timeout id => (s.findWaiting id).map (·.call.model)
  | .cancel id => (s.findWaiting id).map (·.call.model)
  | .resume id => (s.findWaiting id).map (·.call.model)
  | .release id => (s.findOutstanding id).map (·.model)

def helloCall (id : ℕ) : Call := ⟨id, "m", helloRequest, countingEngine 10 (some 400)⟩

end InferenceX.AdmissionMachine
