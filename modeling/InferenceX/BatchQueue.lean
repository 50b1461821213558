import InferenceX.AdmissionSteps

/-!
# The queue of batch calls is counted and bounded

The counter of batch waiters is raised just before a call suspends and
lowered as the first thing when it resumes, or in the same stretch when it is
served at once. Between two stretches it therefore equals the number of
suspended batch calls, and the check made before each rise bounds it.
-/

set_option autoImplicit false

namespace InferenceX.BatchQueue
open Library.StepRuns Library.SlotSemaphore
open InferenceX.PythonValues InferenceX.ChatSchema InferenceX.ModelRegistry
open InferenceX.AdmissionGates InferenceX.AdmissionMachine InferenceX.AdmissionSteps

def ofBatch (model : String) (call : Call) : Bool :=
  decide (call.model = model) && decide (call.request.val.priority = .batch)

def waitingBatch (s : State) (model : String) : ℕ :=
  s.waiting.countP fun w => ofBatch model w.call

def waiterCap (c : AdmissionController) (limit : ℤ) : ℤ := c.batchWaiterMultiplier*limit

/-- The priority of the call a step works on; a release belongs to no call. -/
def priorityOf (s : State) : Event → Option Priority
  | .arrive call => some call.request.val.priority
  | .timeout id => (s.findWaiting id).map (·.call.request.val.priority)
  | .cancel id => (s.findWaiting id).map (·.call.request.val.priority)
  | .resume id => (s.findWaiting id).map (·.call.request.val.priority)
  | .release _ => none

def Counted (s : State) : Prop := ∀ m, s.batchWaiters m = waitingBatch s m

section Parts
variable (s : State) (call : Call) (m : String)

/-- The counter of a model counts the batch calls for it, down to zero. -/
theorem countWaiter_counts (n : ℤ) : ((s.countWaiter call n).batchWaiters m : ℤ) =
    max 0 (s.batchWaiters m+(if ofBatch m call then n else 0)) := by
  rw [State.countWaiter]
  cases hp : call.request.val.priority with
  | interactive => simp [ofBatch, hp]
  | batch =>
    by_cases hm : call.model = m
    · subst hm
      simpa [ofBatch, hp] using add_same s.batchWaiters call.model n
    · simp [ofBatch, hm, add_other s.batchWaiters call.model m n (Ne.symm hm)]

theorem countWaiter_up :
    (s.countWaiter call 1).batchWaiters m =
      s.batchWaiters m+(if ofBatch m call then 1 else 0) := by
  have hcount := countWaiter_counts s call m 1
  split_ifs at hcount ⊢ <;> omega

theorem countWaiter_down :
    (s.countWaiter call (-1)).batchWaiters m =
      s.batchWaiters m-(if ofBatch m call then 1 else 0) := by
  have hcount := countWaiter_counts s call m (-1)
  split_ifs at hcount ⊢ <;> omega

theorem waitingBatch_wait (expired : Bool) :
    waitingBatch (s.wait call expired) m = waitingBatch s m+(if ofBatch m call then 1 else 0) :=
  List.countP_cons

theorem waitingBatch_leave (w : WaitingCall) (h : s.findWaiting w.call.id = some w) :
    waitingBatch (s.leave w.call.id) m+(if ofBatch m w.call then 1 else 0) = waitingBatch s m :=
  find_erase_counts _ (fun v : WaitingCall => ofBatch m v.call) s.waiting w h

theorem waitingBatch_signal (w : WaitingCall) (mark : WaitingCall → WaitingCall)
    (hmark : ∀ v, (mark v).call = v.call) :
    waitingBatch (s.signal w mark) m = waitingBatch s m := by
  simp only [waitingBatch, State.signal, List.countP_map]
  congr 1
  funext v
  simp only [Function.comp_apply]
  split_ifs
  · rw [hmark]
  · rfl

end Parts

def Still (s t : State) : Prop :=
  t.batchWaiters = s.batchWaiters ∧ ∀ m, waitingBatch t m = waitingBatch s m

theorem still_of_waiting (s t : State) (hb : t.batchWaiters = s.batchWaiters)
    (hw : t.waiting = s.waiting) : Still s t :=
  ⟨hb, fun m => by rw [waitingBatch, hw, waitingBatch]⟩

theorem SlotEnd.still {c : AdmissionController} {s t : State} {call : Call} {slot : Bool}
    {ws : List ResponseWarning} {o : Outcome} (h : SlotEnd c s call slot ws t o) : Still s t := by
  refine still_of_waiting s t ?_ h.waiting
  cases h with
  | commit result gate => rfl
  | reject e t gate back =>
    split_ifs at back
    · exact (releasePermit_fields s t call.model back).2.2.2
    · obtain rfl := Option.some.inj back
      rfl
  | broken back => rfl

/-- A call either leaves both as they were or raises both by itself. -/
theorem entry_queue {c : AdmissionController} {s t : State} {call : Call} {limit : ℤ}
    {o : Outcome} (h : Entry c s call limit t o) :
    Still s t ∨ ∀ m,
      t.batchWaiters m = s.batchWaiters m+(if ofBatch m call then 1 else 0) ∧
        waitingBatch t m = waitingBatch s m+(if ofBatch m call then 1 else 0) := by
  cases h with
  | refused e => exact Or.inl ⟨rfl, fun _ => rfl⟩
  | expired u sem got =>
    obtain ⟨-, -, hw, hb⟩ := getSemaphore_fields s u _ _ sem got
    refine Or.inr fun m => ⟨?_, ?_⟩
    · rw [← hb]
      exact countWaiter_up u call m
    · rw [waitingBatch_wait, waitingBatch, countWaiter_waiting, hw, waitingBatch]
  | queued u sem got =>
    obtain ⟨-, -, hw, hb⟩ := getSemaphore_fields s u _ _ sem got
    refine Or.inr fun m => ⟨?_, ?_⟩
    · rw [← hb]
      exact countWaiter_up u call m
    · rw [waitingBatch_wait, waitingBatch, setSemaphore_waiting, countWaiter_waiting, hw,
        waitingBatch]
  | served u t sem o got free rest =>
    obtain ⟨-, -, hw, hb⟩ := getSemaphore_fields s u _ _ sem got
    obtain ⟨hrb, hrw⟩ := SlotEnd.still rest
    refine Or.inl ⟨?_, fun m => ?_⟩
    · funext m
      have hup := countWaiter_up u call m
      rw [hrb, countWaiter_down, ← hb]
      exact (congrArg (· - _) hup).trans (Nat.add_sub_cancel _ _)
    · rw [hrw, waitingBatch, countWaiter_waiting, setSemaphore_waiting, countWaiter_waiting, hw,
        waitingBatch]

theorem resumption_queue {c : AdmissionController} {s t : State} {w : WaitingCall} {o : Outcome}
    (h : Resumption c s w t o) (m : String) :
    t.batchWaiters m = s.batchWaiters m-(if ofBatch m w.call then 1 else 0) ∧
      waitingBatch t m = waitingBatch (s.leave w.call.id) m := by
  have hcount := countWaiter_down (s.leave w.call.id) w.call m
  have hlist : waitingBatch ((s.leave w.call.id).countWaiter w.call (-1)) m =
      waitingBatch (s.leave w.call.id) m := by
    rw [waitingBatch, countWaiter_waiting, waitingBatch]
  cases h with
  | expired => exact ⟨hcount, hlist⟩
  | interrupted sem sem' found back => exact ⟨hcount, hlist⟩
  | served sem sem' t o found back rest =>
    obtain ⟨hb, hw⟩ := SlotEnd.still rest
    exact ⟨by rw [hb]; exact hcount, by rw [hw]; exact hlist⟩

theorem resume_counted {c : AdmissionController} {s t : State} {w : WaitingCall} {o : Outcome}
    (hs : Counted s) (found : s.findWaiting w.call.id = some w) (h : Resumption c s w t o) :
    Counted t := by
  intro m
  obtain ⟨hb, hw⟩ := resumption_queue h m
  have hleave := waitingBatch_leave s m w found
  rw [hb, hw, hs m]
  omega

theorem admitCall_capped (c : AdmissionController) (s : State) (call : Call) (limit : ℤ)
    (hl : c.effectiveMaxNumSeqs call.model = some limit)
    (hp : call.request.val.priority = .batch)
    (hcap : waiterCap c limit ≤ s.batchWaiters call.model) :
    admitCall c s call = (s, .raised (queueFull call.model (waiterCap c limit))) := by
  simp only [admitCall, hl, hp]
  exact if_pos hcap

theorem release_still (s t : State) (model : String) (reserved : ℤ) (o : Outcome)
    (h : release s model reserved = (t, o)) : Still s t := by
  rcases release_cases s t model reserved o h with ⟨rfl, -, -⟩ | ⟨hr, -⟩
  · exact ⟨rfl, fun _ => rfl⟩
  · obtain ⟨-, -, hw, hb⟩ := releasePermit_fields _ t model hr
    exact still_of_waiting s t hb hw

structure Queue (c : AdmissionController) (s : State) : Prop where
  counted : Counted s
  bounded : ∀ m limit, c.effectiveMaxNumSeqs m = some limit →
    (waitingBatch s m : ℤ) ≤ max 0 (waiterCap c limit)

theorem Queue.still {c : AdmissionController} {s t : State} (h : Queue c s) (k : Still s t) :
    Queue c t where
  counted m := by rw [k.1, k.2]; exact h.counted m
  bounded m limit hl := by rw [k.2]; exact h.bounded m limit hl

/-- Only a batch call below the cap makes the queue longer, by itself. -/
theorem arrive_queue (c : AdmissionController) (s t : State) (call : Call) (o : Outcome)
    (hs : Queue c s) (h : admitCall c s call = (t, o)) : Queue c t := by
  rcases admit_cases c s t call o h with ⟨-, hend⟩ | ⟨limit, hl, he⟩
  · exact hs.still (SlotEnd.still hend)
  · rcases entry_queue he with hstill | hup
    · exact hs.still hstill
    · refine ⟨fun m => by rw [(hup m).1, (hup m).2, hs.counted m], fun m l hm => ?_⟩
      rw [(hup m).2]
      cases hc : ofBatch m call with
      | false => simpa [hc] using hs.bounded m l hm
      | true =>
        obtain ⟨rfl, hp⟩ : call.model = m ∧ call.request.val.priority = .batch := by
          simpa [ofBatch] using hc
        obtain rfl : limit = l := Option.some.inj (hl.symm.trans hm)
        have hlt : ¬ waiterCap c limit ≤ s.batchWaiters call.model := by
          intro hcap
          obtain ⟨rfl, -⟩ := Prod.mk.inj ((admitCall_capped c s call limit hl hp hcap).symm.trans h)
          have := (hup call.model).1
          simp [hc] at this
        have := hs.counted call.model
        rw [if_pos rfl]
        push_cast
        omega

theorem step_queue (c : AdmissionController) (s t : State) (e : Event) (o : Outcome)
    (hs : Queue c s) (h : step c s e = some (t, o)) : Queue c t := by
  cases step_stepped c s t e o h with
  | arrive call t o fresh h => exact arrive_queue c s t call o hs h
  | timeout w found => exact hs.still ⟨rfl, fun m => waitingBatch_signal s m w _ fun _ => rfl⟩
  | cancel w found => exact hs.still ⟨rfl, fun m => waitingBatch_signal s m w _ fun _ => rfl⟩
  | resume w t o found h =>
    have hr := resume_cases c s t w o h
    refine ⟨resume_counted hs.counted found hr, fun m limit hl => ?_⟩
    have hle := waitingBatch_leave s m w found
    have := hs.bounded m limit hl
    rw [(resumption_queue hr m).2]
    omega
  | release a t o found h =>
    exact hs.still (release_still (s.settle a.id) t a.model a.reserved o h)

theorem run_queue (c : AdmissionController) (es : List Event) (os : List Outcome) (s : State)
    (h : run (step c) initial es = some (s, os)) : Queue c s := by
  refine run_preserves (fun _ => True) (Queue c) (fun s e t o _ hs => step_queue c s t e o hs)
    initial s es os (fun _ _ => trivial) ⟨fun _ => rfl, fun m limit _ => ?_⟩ h
  exact le_max_left _ _

/-- A step that does not work on a batch call leaves the counter alone. -/
theorem step_other (c : AdmissionController) (s t : State) (e : Event) (o : Outcome)
    (h : step c s e = some (t, o)) (hp : priorityOf s e ≠ some .batch) :
    t.batchWaiters = s.batchWaiters := by
  have hno : ∀ call : Call, call.request.val.priority ≠ .batch → ∀ m, ofBatch m call = false := by
    intro call hc m
    simp [ofBatch, hc]
  cases step_stepped c s t e o h with
  | arrive call t o fresh h =>
    have hc := hno call fun hb => hp (congrArg some hb)
    rcases admit_cases c s t call o h with ⟨-, hend⟩ | ⟨limit, hl, he⟩
    · exact (SlotEnd.still hend).1
    · rcases entry_queue he with hstill | hup
      · exact hstill.1
      · funext m
        simpa [hc] using (hup m).1
  | timeout w found => rfl
  | cancel w found => rfl
  | resume w t o found h =>
    have hc := hno w.call fun hb => hp (by simp [priorityOf, found, hb])
    funext m
    simpa [hc] using (resumption_queue (resume_cases c s t w o h) m).1
  | release a t o found h => exact (release_still _ t a.model a.reserved o h).1

/-- In every state that a run reaches, the counter of a model is the number of
its batch calls that are suspended at the wait for a slot, and at most the cap,
or zero where the cap is negative. No step on an interactive call and no step
on another model changes it. -/
theorem batch_queue_bounded (c : AdmissionController) (es : List Event) (os : List Outcome)
    (s : State) (hrun : run (step c) initial es = some (s, os)) :
    (∀ m, s.batchWaiters m = waitingBatch s m ∧
      ((∀ w ∈ s.waiting, ofBatch m w.call = false) → s.batchWaiters m = 0) ∧
      ∀ limit, c.effectiveMaxNumSeqs m = some limit →
        (s.batchWaiters m : ℤ) ≤ max 0 (c.batchWaiterMultiplier*limit)) ∧
    ∀ e t o, step c s e = some (t, o) →
      (priorityOf s e ≠ some .batch → t.batchWaiters = s.batchWaiters) ∧
      ∀ m, e.model s ≠ some m → t.batchWaiters m = s.batchWaiters m := by
  have hq := run_queue c es os s hrun
  refine ⟨fun m => ⟨hq.counted m, fun hnone => ?_, fun limit hl => ?_⟩, fun e t o h => ⟨?_, ?_⟩⟩
  · rw [hq.counted m, waitingBatch, List.countP_eq_zero]
    exact fun w hw => by simp [hnone w hw]
  · rw [hq.counted m]
    exact hq.bounded m limit hl
  · exact step_other c s t e o h
  · intro m hm
    obtain ⟨model, hmodel, hf⟩ := step_frame c s t e o h
    refine hf.batchWaiters m ?_
    rintro rfl
    exact hm hmodel

def batchCall (id : ℕ) : Call :=
  ⟨id, "m", ⟨(helloPayload 100 .batch false).request, by decide +kernel⟩, countingEngine 10 none⟩

/-- The second batch call waits for the slot of the first and is timed out. -/
theorem batch_queue_bounded_timeout : ∃ s t os, run (step smallController) initial
      [.arrive (batchCall 0), .arrive (batchCall 1)] = some (s, os) ∧
    step smallController s (.timeout 1) = some (t, .signalled) ∧
    s.batchWaiters "m" = 1 ∧ (s.batchWaiters "m" : ℤ) ≤ 8 ∧
    ∀ m, (Event.timeout 1).model s ≠ some m → t.batchWaiters m = s.batchWaiters m := by
  have h : ((run (step smallController) initial
      [.arrive (batchCall 0), .arrive (batchCall 1)]).bind fun x =>
        (step smallController x.1 (.timeout 1)).map fun y =>
          decide (y.2 = .signalled ∧ x.1.batchWaiters "m" = 1)) = some true := by
    decide +kernel
  obtain ⟨⟨s, os⟩, hrun, h⟩ := Option.bind_eq_some_iff.mp h
  obtain ⟨⟨t, o⟩, hstep, h⟩ := Option.map_eq_some_iff.mp h
  obtain ⟨rfl, hcount⟩ := of_decide_eq_true h
  obtain ⟨hstate, hsteps⟩ := batch_queue_bounded smallController _ os s hrun
  exact ⟨s, t, os, hrun, hstep, hcount, ((hstate "m").2.2 1 (by decide)).trans_eq (by decide),
    (hsteps _ t _ hstep).2⟩

/-- Tier values are not checked, and a negative ceiling makes a negative cap. -/
theorem batch_queue_negative_cap :
    ¬ ∀ (c : AdmissionController) (tier : VramTier), c.tier = some tier →
      0 ≤ c.batchWaiterMultiplier → ∀ (es : List Event) (os : List Outcome) (s : State),
        run (step c) initial es = some (s, os) → ∀ m, ∃ limit, c.effectiveMaxNumSeqs m = some limit ∧
          (s.batchWaiters m : ℤ) ≤ c.batchWaiterMultiplier*limit := by
  intro h
  obtain ⟨limit, hl, hle⟩ := h
    { smallController with tier := some { smallTier with maxNumSeqs := -1 } } _ rfl (by decide)
    [] [] initial rfl "m"
  obtain rfl : limit = -1 := by
    have : some limit = some (-1) := by rw [← hl]; decide
    exact Option.some.inj this
  revert hle
  decide

end InferenceX.BatchQueue
