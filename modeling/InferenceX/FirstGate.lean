import InferenceX.AdmissionSteps

/-!
# Gate 1 by itself

Gate 1 reads of a call only its name, its model and its priority. Its result
is a passage: the call is refused, it waits, or it enters the later gates.
What a call does is its passage finished by those gates, so two calls that
look alike to Gate 1 differ by the later gates alone.
-/

set_option autoImplicit false

namespace InferenceX.FirstGate
open Library.SlotSemaphore Library.StepRuns
open InferenceX.PythonValues InferenceX.ChatSchema
open InferenceX.AdmissionGates InferenceX.AdmissionMachine InferenceX.AdmissionSteps

inductive Passage where
  | refused (u : State) (e : PyError)
  | waits (u : State) (expired : Bool)
  | entered (lent : State) (slot : Bool) (warnings : List ResponseWarning)

def Passage.finish (c : AdmissionController) (call : Call) : Passage → State × Outcome
  | .refused u e => (u, .raised e)
  | .waits u expired => (u.wait call expired, .suspended)
  | .entered lent slot warnings => afterSlot c lent call slot warnings

def enterPassage (c : AdmissionController) (s : State) (call : Call) (limit : ℤ) : Passage :=
  match s.getSemaphore call.model limit with
  | none => .refused s negativeBound
  | some (u, sem) =>
    let u := u.countWaiter call 1
    if (waitBound c call.request.val.priority).nonpositive then .waits u true
    else if sem.locked then .waits (u.setSemaphore call.model (sem.enqueue call.id)) false
    else .entered ((u.setSemaphore call.model sem.acquireNow).countWaiter call (-1)) true []

def passage (c : AdmissionController) (s : State) (call : Call) : Passage :=
  match c.effectiveMaxNumSeqs call.model with
  | none => .entered s false [sequenceGateSkipped]
  | some limit =>
    if call.request.val.priority = .batch ∧
        c.batchWaiterMultiplier*limit ≤ s.batchWaiters call.model then
      .refused s (queueFull call.model (c.batchWaiterMultiplier*limit))
    else enterPassage c s call limit

def resumePassage (c : AdmissionController) (s : State) (w : WaitingCall) : Option Passage :=
  let left := (s.leave w.call.id).countWaiter w.call (-1)
  if w.expired then some (.refused left (interruption c w))
  else
    match s.semaphores w.call.model with
    | none => none
    | some sem =>
      match sem.resume w.call.id (w.timedOut || w.cancelled) with
      | none => none
      | some (t, true) => some (.entered (left.setSemaphore w.call.model t) true [])
      | some (t, false) => some (.refused (left.setSemaphore w.call.model t) (interruption c w))

theorem enter_passage (c : AdmissionController) (s : State) (call : Call) (limit : ℤ) :
    enter c s call limit = (enterPassage c s call limit).finish c call := by
  rw [enter, enterPassage]
  rcases s.getSemaphore call.model limit with _ | ⟨u, sem⟩
  · rfl
  · simp only
    split_ifs <;> rfl

theorem admitCall_passage (c : AdmissionController) (s : State) (call : Call) :
    admitCall c s call = (passage c s call).finish c call := by
  rw [admitCall, passage]
  cases c.effectiveMaxNumSeqs call.model with
  | none => rfl
  | some limit =>
    cases hp : call.request.val.priority with
    | interactive => simp [enter_passage]
    | batch =>
      simp only [true_and]
      split_ifs
      · rfl
      · exact enter_passage c s call limit

theorem resume_passage (c : AdmissionController) (s : State) (w : WaitingCall) :
    resume c s w = (resumePassage c s w).map fun p => p.finish c w.call := by
  rw [resume, resumePassage]
  split_ifs
  · rfl
  · cases s.semaphores w.call.model with
    | none => rfl
    | some sem =>
      rcases hr : sem.resume w.call.id (w.timedOut || w.cancelled) with _ | ⟨t, _ | _⟩ <;>
        simp only [hr] <;> rfl

inductive Passes (c : AdmissionController) (s : State) (call : Call) : Passage → Prop
  | skipped (noTier : c.effectiveMaxNumSeqs call.model = none) :
      Passes c s call (.entered s false [sequenceGateSkipped])
  | capped (limit : ℤ) (ceiling : c.effectiveMaxNumSeqs call.model = some limit)
      (batch : call.request.val.priority = .batch)
      (full : c.batchWaiterMultiplier*limit ≤ s.batchWaiters call.model) :
      Passes c s call (.refused s (queueFull call.model (c.batchWaiterMultiplier*limit)))
  | unbounded (limit : ℤ) (ceiling : c.effectiveMaxNumSeqs call.model = some limit)
      (got : s.getSemaphore call.model limit = none) : Passes c s call (.refused s negativeBound)
  | expired (limit : ℤ) (u : State) (sem : Semaphore ℕ)
      (ceiling : c.effectiveMaxNumSeqs call.model = some limit)
      (space : call.request.val.priority = .batch →
        s.batchWaiters call.model < c.batchWaiterMultiplier*limit)
      (got : s.getSemaphore call.model limit = some (u, sem))
      (bound : (waitBound c call.request.val.priority).nonpositive = true) :
      Passes c s call (.waits (u.countWaiter call 1) true)
  | queued (limit : ℤ) (u : State) (sem : Semaphore ℕ)
      (ceiling : c.effectiveMaxNumSeqs call.model = some limit)
      (space : call.request.val.priority = .batch →
        s.batchWaiters call.model < c.batchWaiterMultiplier*limit)
      (got : s.getSemaphore call.model limit = some (u, sem))
      (bound : (waitBound c call.request.val.priority).nonpositive = false)
      (busy : sem.locked = true) :
      Passes c s call
        (.waits ((u.countWaiter call 1).setSemaphore call.model (sem.enqueue call.id)) false)
  | served (limit : ℤ) (u : State) (sem : Semaphore ℕ)
      (ceiling : c.effectiveMaxNumSeqs call.model = some limit)
      (space : call.request.val.priority = .batch →
        s.batchWaiters call.model < c.batchWaiterMultiplier*limit)
      (got : s.getSemaphore call.model limit = some (u, sem))
      (bound : (waitBound c call.request.val.priority).nonpositive = false)
      (free : sem.locked = false) :
      Passes c s call (.entered (((u.countWaiter call 1).setSemaphore call.model
        sem.acquireNow).countWaiter call (-1)) true [])

theorem passage_passes (c : AdmissionController) (s : State) (call : Call) :
    Passes c s call (passage c s call) := by
  rw [passage]
  cases hl : c.effectiveMaxNumSeqs call.model with
  | none => exact .skipped hl
  | some limit =>
    simp only
    split_ifs with hcap
    · exact .capped limit hl hcap.1 hcap.2
    · have hspace : call.request.val.priority = .batch →
          s.batchWaiters call.model < c.batchWaiterMultiplier*limit :=
        fun hp => not_le.mp fun hle => hcap ⟨hp, hle⟩
      rw [enterPassage]
      rcases hget : s.getSemaphore call.model limit with _ | ⟨u, sem⟩
      · exact .unbounded limit hl hget
      · simp only
        split_ifs with hb hlock
        · exact .expired limit u sem hl hspace hget hb
        · exact .queued limit u sem hl hspace hget (by simpa using hb) hlock
        · exact .served limit u sem hl hspace hget (by simpa using hb) (by simpa using hlock)

/-- Gate 1 leaves the reservations alone and warns only when it is skipped. -/
theorem passage_entered (c : AdmissionController) (s lent : State) (call : Call) (slot : Bool)
    (ws : List ResponseWarning) (h : passage c s call = .entered lent slot ws) :
    lent.tracker = s.tracker ∧
      ws = if c.effectiveMaxNumSeqs call.model = none then [sequenceGateSkipped] else [] := by
  have hpass := passage_passes c s call
  rw [h] at hpass
  cases hpass with
  | skipped noTier => exact ⟨rfl, (if_pos noTier).symm⟩
  | served limit u sem ceiling space got bound free =>
    have ht := (getSemaphore_fields s u _ _ sem got).1
    exact ⟨by simp [ht], by simp [ceiling]⟩

theorem resumePassage_entered (c : AdmissionController) (s lent : State) (w : WaitingCall)
    (slot : Bool) (ws : List ResponseWarning)
    (h : resumePassage c s w = some (.entered lent slot ws)) :
    lent.tracker = s.tracker ∧ ws = [] := by
  rw [resumePassage] at h
  split_ifs at h
  · cases h
  · rcases hs : s.semaphores w.call.model with _ | sem
    · simp [hs] at h
    · simp only [hs] at h
      rcases hr : sem.resume w.call.id (w.timedOut || w.cancelled) with _ | ⟨t, _ | _⟩
      · simp [hr] at h
      · simp [hr] at h
      · simp only [hr, Option.some.injEq, Passage.entered.injEq] at h
        obtain ⟨rfl, -, rfl⟩ := h
        exact ⟨by simp [State.leave], rfl⟩

theorem finish_returned (c : AdmissionController) (call : Call) (p : Passage) (t : State)
    (result : AdmissionResult) (h : p.finish c call = (t, .returned result)) :
    ∃ lent slot ws, p = .entered lent slot ws ∧
      gates c call.model call.request.val call.engine ws (lent.tracker call.model) =
        .ok result := by
  cases p with
  | refused u e => cases (Prod.mk.inj h).2
  | waits u expired => cases (Prod.mk.inj h).2
  | entered lent slot ws =>
    cases afterSlot_end c lent t call slot ws _ h with
    | commit _ gate => exact ⟨lent, slot, ws, rfl, gate⟩

structure Alike (call call' : Call) : Prop where
  id : call'.id = call.id
  model : call'.model = call.model
  priority : call'.request.val.priority = call.request.val.priority

theorem countWaiter_alike {call call' : Call} (h : Alike call call') (s : State) (n : ℤ) :
    s.countWaiter call' n = s.countWaiter call n := by
  rw [State.countWaiter, State.countWaiter, h.model, h.priority]

theorem passage_alike {call call' : Call} (h : Alike call call') (c : AdmissionController)
    (s : State) : passage c s call' = passage c s call := by
  simp only [passage, enterPassage, h.id, h.model, h.priority, countWaiter_alike h]

theorem interruption_alike {call call' : Call} (h : Alike call call') (c : AdmissionController)
    (w : WaitingCall) (hw : w.call = call) :
    interruption c { w with call := call' } = interruption c w := by
  simp only [interruption, noSlotFreed, h.model, h.priority, hw]

theorem resumePassage_alike {call call' : Call} (h : Alike call call') (c : AdmissionController)
    (s : State) (w : WaitingCall) (hw : w.call = call) :
    resumePassage c s { w with call := call' } = resumePassage c s w := by
  have hint := interruption_alike h c w hw
  subst hw
  simp only [resumePassage, h.id, h.model, countWaiter_alike h, hint]

def recalled (f : Call → Call) (s : State) : State :=
  { s with waiting := s.waiting.map fun w => { w with call := f w.call } }

def Passage.recalled (f : Call → Call) : Passage → Passage
  | .refused u e => .refused (FirstGate.recalled f u) e
  | .waits u expired => .waits (FirstGate.recalled f u) expired
  | .entered lent slot warnings => .entered (FirstGate.recalled f lent) slot warnings

section Recalled
variable (f : Call → Call) (s : State) (c : AdmissionController) (call : Call)

theorem recalled_setSemaphore (model : String) (sem : Semaphore ℕ) :
    (recalled f s).setSemaphore model sem = recalled f (s.setSemaphore model sem) := rfl

theorem recalled_getSemaphore (model : String) (limit : ℤ) :
    (recalled f s).getSemaphore model limit =
      (s.getSemaphore model limit).map fun x => (recalled f x.1, x.2) := by
  simp only [State.getSemaphore, recalled]
  cases s.semaphores model with
  | some sem => rfl
  | none =>
    simp only
    split_ifs <;> rfl

theorem recalled_countWaiter (n : ℤ) :
    (recalled f s).countWaiter call n = recalled f (s.countWaiter call n) := by
  rw [State.countWaiter, State.countWaiter]
  cases call.request.val.priority <;> rfl

theorem recalled_releasePermit (model : String) :
    (recalled f s).releasePermit model = (s.releasePermit model).map (recalled f) := by
  simp only [State.releasePermit, recalled]
  cases s.semaphores model with
  | none => rfl
  | some sem => cases hr : sem.release <;> simp only [hr] <;> rfl

theorem release_recalled (model : String) (reserved : ℤ) :
    release (recalled f s) model reserved =
      (recalled f (release s model reserved).1, (release s model reserved).2) := by
  have hnone (u : State) (h : (uncounted u model reserved).releasePermit model = none) :
      release u model reserved = (uncounted u model reserved, .releaseRaised overReleased) := by
    unfold uncounted at h ⊢
    simp only [release, h]
  have hsome (u t : State) (h : (uncounted u model reserved).releasePermit model = some t) :
      release u model reserved = (t, .released) := by
    unfold uncounted at h
    simp only [release, h]
  have hback : (uncounted (recalled f s) model reserved).releasePermit model = _ :=
    recalled_releasePermit f (uncounted s model reserved) model
  cases hp : (uncounted s model reserved).releasePermit model with
  | none =>
    rw [hp] at hback
    rw [hnone s hp, hnone (recalled f s) hback]
    rfl
  | some t =>
    rw [hp] at hback
    rw [hsome s t hp, hsome (recalled f s) (recalled f t) hback]

theorem enterPassage_recalled (limit : ℤ) :
    enterPassage c (recalled f s) call limit = (enterPassage c s call limit).recalled f := by
  rw [enterPassage, enterPassage, recalled_getSemaphore]
  rcases s.getSemaphore call.model limit with _ | ⟨u, sem⟩
  · rfl
  · simp only [Option.map_some, recalled_countWaiter, recalled_setSemaphore]
    split_ifs <;> rfl

theorem passage_recalled :
    passage c (recalled f s) call = (passage c s call).recalled f := by
  rw [passage, passage]
  cases c.effectiveMaxNumSeqs call.model with
  | none => rfl
  | some limit =>
    simp only [enterPassage_recalled, show (recalled f s).batchWaiters = s.batchWaiters from rfl]
    split_ifs <;> rfl

variable (hf : ∀ call, Alike call (f call))
include hf

theorem recalled_leave (id : ℕ) : (recalled f s).leave id = recalled f (s.leave id) := by
  simp only [State.leave, recalled, List.eraseP_map, Function.comp_def, (hf _).id]

theorem recalled_findWaiting (id : ℕ) :
    (recalled f s).findWaiting id =
      (s.findWaiting id).map fun w => { w with call := f w.call } := by
  simp only [State.findWaiting, recalled, List.find?_map, Function.comp_def, (hf _).id]

theorem recalled_live (id : ℕ) : (recalled f s).live id = s.live id := by
  simp only [State.live, recalled, List.any_map, Function.comp_def, (hf _).id]

theorem resumePassage_recalled (w : WaitingCall) :
    resumePassage c (recalled f s) { w with call := f w.call } =
      (resumePassage c s w).map (Passage.recalled f) := by
  rw [resumePassage_alike (hf w.call) c (recalled f s) w rfl, resumePassage, resumePassage,
    recalled_leave f s hf, recalled_countWaiter]
  split_ifs
  · rfl
  · rw [show (recalled f s).semaphores = s.semaphores from rfl]
    cases s.semaphores w.call.model with
    | none => rfl
    | some sem =>
      rcases hr : sem.resume w.call.id (w.timedOut || w.cancelled) with _ | ⟨t, _ | _⟩ <;>
        simp only [hr] <;> rfl

end Recalled

end InferenceX.FirstGate
