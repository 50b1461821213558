import InferenceX.AdmissionMachine

/-!
# What one admission step can do

Every later invariant is read off three statements. A step on one model
leaves the data of all others alone. It touches the tracker and the
outstanding admissions only when it returns an admission or releases one.
Every call that waits after a step waited before or was started by it.
-/

set_option autoImplicit false

namespace InferenceX.AdmissionSteps
open Library.SlotSemaphore Library.StepRuns
open InferenceX.PythonValues InferenceX.ChatSchema
open InferenceX.AdmissionGates InferenceX.AdmissionMachine

def held (s : State) (model : String) : ℕ := s.outstanding.countP fun a => a.model = model

theorem add_same (counts : Counter) (model : String) (n : ℤ) :
    (counts.add model n model : ℤ) = max 0 ((counts model : ℤ)+n) := by
  rw [Counter.add, Function.update_self]
  exact Int.toNat_of_nonneg (le_max_left _ _)

theorem add_other (counts : Counter) (m model : String) (n : ℤ) (h : model ≠ m) :
    counts.add m n model = counts model := Function.update_of_ne h _ _

section Fields
variable (s : State) (model : String) (sem : Semaphore ℕ) (call : Call) (n : ℤ) (id : ℕ)

@[simp] theorem setSemaphore_tracker : (s.setSemaphore model sem).tracker = s.tracker := rfl

@[simp] theorem setSemaphore_outstanding :
    (s.setSemaphore model sem).outstanding = s.outstanding := rfl

@[simp] theorem setSemaphore_waiting : (s.setSemaphore model sem).waiting = s.waiting := rfl

@[simp] theorem setSemaphore_same : (s.setSemaphore model sem).semaphores model = some sem :=
  Function.update_self _ _ _

@[simp] theorem countWaiter_tracker : (s.countWaiter call n).tracker = s.tracker := by
  rw [State.countWaiter]
  split <;> rfl

@[simp] theorem countWaiter_outstanding : (s.countWaiter call n).outstanding = s.outstanding := by
  rw [State.countWaiter]
  split <;> rfl

@[simp] theorem countWaiter_waiting : (s.countWaiter call n).waiting = s.waiting := by
  rw [State.countWaiter]
  split <;> rfl

@[simp] theorem countWaiter_semaphores : (s.countWaiter call n).semaphores = s.semaphores := by
  rw [State.countWaiter]
  split <;> rfl

@[simp] theorem held_setSemaphore (m : String) : held (s.setSemaphore model sem) m = held s m := rfl

@[simp] theorem held_leave (m : String) : held (s.leave id) m = held s m := rfl

@[simp] theorem held_countWaiter (m : String) : held (s.countWaiter call n) m = held s m := by
  simp [held]

end Fields

/-- Getting a semaphore changes nothing but the dictionary of semaphores. -/
theorem getSemaphore_fields (s t : State) (model : String) (limit : ℤ) (sem : Semaphore ℕ)
    (h : s.getSemaphore model limit = some (t, sem)) :
    t.tracker = s.tracker ∧ t.outstanding = s.outstanding ∧ t.waiting = s.waiting ∧
      t.batchWaiters = s.batchWaiters := by
  rw [State.getSemaphore] at h
  split at h
  · obtain ⟨rfl, -⟩ := step_inj h
    exact ⟨rfl, rfl, rfl, rfl⟩
  · split_ifs at h
    obtain ⟨rfl, -⟩ := step_inj h
    exact ⟨rfl, rfl, rfl, rfl⟩

theorem releasePermit_fields (s t : State) (model : String)
    (h : s.releasePermit model = some t) :
    t.tracker = s.tracker ∧ t.outstanding = s.outstanding ∧ t.waiting = s.waiting ∧
      t.batchWaiters = s.batchWaiters := by
  rw [State.releasePermit] at h
  split at h
  · obtain rfl := Option.some.inj h
    exact ⟨rfl, rfl, rfl, rfl⟩
  · obtain ⟨sem, -, rfl⟩ := Option.map_eq_some_iff.mp h
    exact ⟨rfl, rfl, rfl, rfl⟩

inductive SlotEnd (c : AdmissionController) (s : State) (call : Call) (slot : Bool)
    (ws : List ResponseWarning) : State → Outcome → Prop
  | commit (result : AdmissionResult)
      (gate : gates c call.model call.request.val call.engine ws (s.tracker call.model) =
        .ok result) :
      SlotEnd c s call slot ws
        { s with
          tracker := s.tracker.add call.model result.reservedTokens
          outstanding := ⟨call.id, call.model, result.reservedTokens⟩::s.outstanding }
        (.returned result)
  | reject (e : PyError) (t : State)
      (gate : gates c call.model call.request.val call.engine ws (s.tracker call.model) =
        .error e)
      (back : (if slot then s.releasePermit call.model else some s) = some t) :
      SlotEnd c s call slot ws t (.raised e)
  | broken (back : (if slot then s.releasePermit call.model else some s) = none) :
      SlotEnd c s call slot ws s (.raised overReleased)

theorem afterSlot_end (c : AdmissionController) (s t : State) (call : Call) (slot : Bool)
    (ws : List ResponseWarning) (o : Outcome) (h : afterSlot c s call slot ws = (t, o)) :
    SlotEnd c s call slot ws t o := by
  rw [afterSlot] at h
  split at h
  · obtain ⟨rfl, rfl⟩ := Prod.mk.inj h
    exact .commit _ ‹_›
  · split at h
    · obtain ⟨rfl, rfl⟩ := Prod.mk.inj h
      exact .broken ‹_›
    · obtain ⟨rfl, rfl⟩ := Prod.mk.inj h
      exact .reject _ _ ‹_› ‹_›

inductive Entry (c : AdmissionController) (s : State) (call : Call) (limit : ℤ) :
    State → Outcome → Prop
  | refused (e : PyError) : Entry c s call limit s (.raised e)
  | expired (u : State) (sem : Semaphore ℕ)
      (got : s.getSemaphore call.model limit = some (u, sem)) :
      Entry c s call limit ((u.countWaiter call 1).wait call true) .suspended
  | queued (u : State) (sem : Semaphore ℕ) (got : s.getSemaphore call.model limit = some (u, sem)) :
      Entry c s call limit
        (((u.countWaiter call 1).setSemaphore call.model (sem.enqueue call.id)).wait call false)
        .suspended
  | served (u t : State) (sem : Semaphore ℕ) (o : Outcome)
      (got : s.getSemaphore call.model limit = some (u, sem)) (free : sem.locked = false)
      (rest : SlotEnd c (((u.countWaiter call 1).setSemaphore call.model
        sem.acquireNow).countWaiter call (-1)) call true [] t o) :
      Entry c s call limit t o

theorem enter_entry (c : AdmissionController) (s t : State) (call : Call) (limit : ℤ)
    (o : Outcome) (h : enter c s call limit = (t, o)) : Entry c s call limit t o := by
  rw [enter] at h
  split at h
  · obtain ⟨rfl, rfl⟩ := Prod.mk.inj h
    exact .refused _
  · rename_i u sem hget
    simp only at h
    split_ifs at h with hw hl
    · obtain ⟨rfl, rfl⟩ := Prod.mk.inj h
      exact .expired u sem hget
    · obtain ⟨rfl, rfl⟩ := Prod.mk.inj h
      exact .queued u sem hget
    · exact .served u t sem o hget (by simpa using hl) (afterSlot_end c _ t call true [] o h)

theorem admit_cases (c : AdmissionController) (s t : State) (call : Call) (o : Outcome)
    (h : admitCall c s call = (t, o)) :
    (c.effectiveMaxNumSeqs call.model = none ∧
        SlotEnd c s call false [sequenceGateSkipped] t o) ∨
      ∃ limit, c.effectiveMaxNumSeqs call.model = some limit ∧ Entry c s call limit t o := by
  rw [admitCall] at h
  split at h
  · exact Or.inl ⟨‹_›, afterSlot_end c s t call false _ o h⟩
  · rename_i limit hl
    refine Or.inr ⟨limit, hl, ?_⟩
    split at h
    · exact enter_entry c s t call limit o h
    · simp only at h
      split_ifs at h
      · obtain ⟨rfl, rfl⟩ := Prod.mk.inj h
        exact .refused _
      · exact enter_entry c s t call limit o h

inductive Resumption (c : AdmissionController) (s : State) (w : WaitingCall) :
    State → Outcome → Prop
  | expired : Resumption c s w ((s.leave w.call.id).countWaiter w.call (-1))
      (.raised (interruption c w))
  | interrupted (sem sem' : Semaphore ℕ) (found : s.semaphores w.call.model = some sem)
      (back : sem.resume w.call.id (w.timedOut || w.cancelled) = some (sem', false)) :
      Resumption c s w
        (((s.leave w.call.id).countWaiter w.call (-1)).setSemaphore w.call.model sem')
        (.raised (interruption c w))
  | served (sem sem' : Semaphore ℕ) (t : State) (o : Outcome)
      (found : s.semaphores w.call.model = some sem)
      (back : sem.resume w.call.id (w.timedOut || w.cancelled) = some (sem', true))
      (rest : SlotEnd c (((s.leave w.call.id).countWaiter w.call (-1)).setSemaphore
        w.call.model sem') w.call true [] t o) :
      Resumption c s w t o

theorem resume_cases (c : AdmissionController) (s t : State) (w : WaitingCall) (o : Outcome)
    (h : resume c s w = some (t, o)) : Resumption c s w t o := by
  simp only [resume] at h
  split_ifs at h with he
  · obtain ⟨rfl, rfl⟩ := step_inj h
    exact .expired
  · split at h
    · cases h
    · rename_i sem hsem
      split at h
      · cases h
      · exact .served sem _ t o hsem ‹_› (afterSlot_end c _ t w.call true [] o (Option.some.inj h))
      · obtain ⟨rfl, rfl⟩ := step_inj h
        exact .interrupted sem _ hsem ‹_›

def uncounted (s : State) (model : String) (reserved : ℤ) : State :=
  { s with tracker := s.tracker.add model (-reserved) }

theorem release_cases (s t : State) (model : String) (reserved : ℤ) (o : Outcome)
    (h : release s model reserved = (t, o)) :
    (t = uncounted s model reserved ∧ (uncounted s model reserved).releasePermit model = none ∧
        o = .releaseRaised overReleased) ∨
      ((uncounted s model reserved).releasePermit model = some t ∧ o = .released) := by
  rw [release] at h
  split at h
  · obtain ⟨rfl, rfl⟩ := Prod.mk.inj h
    exact Or.inl ⟨rfl, ‹_›, rfl⟩
  · obtain ⟨rfl, rfl⟩ := Prod.mk.inj h
    exact Or.inr ⟨‹_›, rfl⟩

theorem findWaiting_some (s : State) (id : ℕ) (w : WaitingCall) (h : s.findWaiting id = some w) :
    w ∈ s.waiting ∧ w.call.id = id :=
  ⟨List.mem_of_find?_eq_some h, by simpa using List.find?_some h⟩

theorem findOutstanding_some (s : State) (id : ℕ) (a : Admission)
    (h : s.findOutstanding id = some a) : a ∈ s.outstanding ∧ a.id = id :=
  ⟨List.mem_of_find?_eq_some h, by simpa using List.find?_some h⟩

inductive Stepped (c : AdmissionController) (s : State) : Event → State → Outcome → Prop
  | arrive (call : Call) (t : State) (o : Outcome) (fresh : s.live call.id = false)
      (h : admitCall c s call = (t, o)) : Stepped c s (.arrive call) t o
  | timeout (w : WaitingCall) (found : s.findWaiting w.call.id = some w) :
      Stepped c s (.timeout w.call.id) (s.signal w fun v => { v with timedOut := true }) .signalled
  | cancel (w : WaitingCall) (found : s.findWaiting w.call.id = some w) :
      Stepped c s (.cancel w.call.id) (s.signal w fun v => { v with cancelled := true }) .signalled
  | resume (w : WaitingCall) (t : State) (o : Outcome)
      (found : s.findWaiting w.call.id = some w)
      (h : AdmissionMachine.resume c s w = some (t, o)) : Stepped c s (.resume w.call.id) t o
  | release (a : Admission) (t : State) (o : Outcome)
      (found : s.findOutstanding a.id = some a)
      (h : AdmissionMachine.release (s.settle a.id) a.model a.reserved = (t, o)) :
      Stepped c s (.release a.id) t o

theorem step_stepped (c : AdmissionController) (s t : State) (e : Event) (o : Outcome)
    (h : step c s e = some (t, o)) : Stepped c s e t o := by
  cases e with
  | arrive call =>
    simp only [step] at h
    split_ifs at h with hf
    exact .arrive call t o (by simpa using hf) (Option.some.inj h)
  | timeout id =>
    simp only [step] at h
    split at h
    · cases h
    · rename_i w hw
      obtain ⟨-, rfl⟩ := findWaiting_some s id w hw
      split_ifs at h
      obtain ⟨rfl, rfl⟩ := step_inj h
      exact .timeout w hw
  | cancel id =>
    simp only [step] at h
    split at h
    · cases h
    · rename_i w hw
      obtain ⟨-, rfl⟩ := findWaiting_some s id w hw
      obtain ⟨rfl, rfl⟩ := step_inj h
      exact .cancel w hw
  | resume id =>
    simp only [step] at h
    split at h
    · cases h
    · rename_i w hw
      obtain ⟨-, rfl⟩ := findWaiting_some s id w hw
      exact .resume w t o hw h
  | release id =>
    simp only [step] at h
    split at h
    · cases h
    · rename_i a ha
      obtain ⟨-, rfl⟩ := findOutstanding_some s id a ha
      exact .release a t o ha (Option.some.inj h)

structure Frame (model : String) (s t : State) : Prop where
  semaphores : ∀ m, m ≠ model → t.semaphores m = s.semaphores m
  tracker : ∀ m, m ≠ model → t.tracker m = s.tracker m
  batchWaiters : ∀ m, m ≠ model → t.batchWaiters m = s.batchWaiters m
  held : ∀ m, m ≠ model → held t m = held s m

namespace Frame

theorem refl (model : String) (s : State) : Frame model s s :=
  ⟨fun _ _ => rfl, fun _ _ => rfl, fun _ _ => rfl, fun _ _ => rfl⟩

theorem trans (model : String) (s t u : State) (h : Frame model s t) (k : Frame model t u) :
    Frame model s u where
  semaphores m hm := (k.semaphores m hm).trans (h.semaphores m hm)
  tracker m hm := (k.tracker m hm).trans (h.tracker m hm)
  batchWaiters m hm := (k.batchWaiters m hm).trans (h.batchWaiters m hm)
  held m hm := (k.held m hm).trans (h.held m hm)

theorem setSemaphore (s : State) (model : String) (sem : Semaphore ℕ) :
    Frame model s (s.setSemaphore model sem) where
  semaphores _ hm := Function.update_of_ne hm _ _
  tracker _ _ := rfl
  batchWaiters _ _ := rfl
  held _ _ := rfl

theorem countWaiter (s : State) (call : Call) (n : ℤ) :
    Frame call.model s (s.countWaiter call n) where
  semaphores _ _ := by simp
  tracker _ _ := by simp
  batchWaiters _ hm := by
    rw [State.countWaiter]
    split
    · rfl
    · exact Function.update_of_ne hm _ _
  held _ _ := by simp

theorem wait (s : State) (call : Call) (expired : Bool) :
    Frame call.model s (s.wait call expired) :=
  ⟨fun _ _ => rfl, fun _ _ => rfl, fun _ _ => rfl, fun _ _ => rfl⟩

theorem leave (model : String) (s : State) (id : ℕ) : Frame model s (s.leave id) :=
  ⟨fun _ _ => rfl, fun _ _ => rfl, fun _ _ => rfl, fun _ _ => rfl⟩

theorem signal (s : State) (w : WaitingCall) (mark : WaitingCall → WaitingCall) :
    Frame w.call.model s (s.signal w mark) where
  semaphores _ hm := by
    simp only [State.signal]
    split_ifs
    · rfl
    · exact Function.update_of_ne hm _ _
  tracker _ _ := rfl
  batchWaiters _ _ := rfl
  held _ _ := rfl

theorem getSemaphore (s t : State) (model : String) (limit : ℤ) (sem : Semaphore ℕ)
    (h : s.getSemaphore model limit = some (t, sem)) : Frame model s t := by
  rw [State.getSemaphore] at h
  split at h
  · obtain ⟨rfl, -⟩ := step_inj h
    exact refl model s
  · split_ifs at h
    obtain ⟨rfl, -⟩ := step_inj h
    exact setSemaphore s model _

theorem releasePermit (s t : State) (model : String) (h : s.releasePermit model = some t) :
    Frame model s t := by
  rw [State.releasePermit] at h
  split at h
  · obtain rfl := Option.some.inj h
    exact refl model s
  · obtain ⟨sem, -, rfl⟩ := Option.map_eq_some_iff.mp h
    exact setSemaphore s model sem

end Frame

theorem settle_held (s : State) (a : Admission) (m : String)
    (h : s.findOutstanding a.id = some a) :
    held (s.settle a.id) m+(if a.model = m then 1 else 0) = held s m := by
  simpa [held, State.settle] using
    find_erase_counts (fun x : Admission => decide (x.id = a.id))
      (fun x => decide (x.model = m)) s.outstanding a h

theorem SlotEnd.frame {c : AdmissionController} {s t : State} {call : Call} {slot : Bool}
    {ws : List ResponseWarning} {o : Outcome} (h : SlotEnd c s call slot ws t o) :
    Frame call.model s t := by
  cases h with
  | commit result gate =>
    refine ⟨fun _ _ => rfl, fun m hm => Function.update_of_ne hm _ _, fun _ _ => rfl, ?_⟩
    intro m hm
    simp [held, Ne.symm hm]
  | reject e t gate back =>
    split_ifs at back
    · exact Frame.releasePermit s t call.model back
    · obtain rfl := Option.some.inj back
      exact Frame.refl _ _
  | broken back => exact Frame.refl _ _

theorem Entry.frame {c : AdmissionController} {s t : State} {call : Call} {limit : ℤ}
    {o : Outcome} (h : Entry c s call limit t o) : Frame call.model s t := by
  cases h with
  | refused e => exact Frame.refl _ _
  | expired u sem got =>
    exact (Frame.getSemaphore s u _ _ sem got).trans _ _ _ _ <|
      (Frame.countWaiter u call 1).trans _ _ _ _ (Frame.wait _ call true)
  | queued u sem got =>
    exact (Frame.getSemaphore s u _ _ sem got).trans _ _ _ _ <|
      (Frame.countWaiter u call 1).trans _ _ _ _ <|
      (Frame.setSemaphore _ call.model _).trans _ _ _ _ (Frame.wait _ call false)
  | served u t sem o got free rest =>
    exact (Frame.getSemaphore s u _ _ sem got).trans _ _ _ _ <|
      (Frame.countWaiter u call 1).trans _ _ _ _ <|
      (Frame.setSemaphore _ call.model _).trans _ _ _ _ <|
      (Frame.countWaiter _ call (-1)).trans _ _ _ _ rest.frame

theorem Resumption.frame {c : AdmissionController} {s t : State} {w : WaitingCall} {o : Outcome}
    (h : Resumption c s w t o) : Frame w.call.model s t := by
  have hl := (Frame.leave w.call.model s w.call.id).trans _ _ _ _
    (Frame.countWaiter (s.leave w.call.id) w.call (-1))
  cases h with
  | expired => exact hl
  | interrupted sem sem' found back => exact hl.trans _ _ _ _ (Frame.setSemaphore _ _ _)
  | served sem sem' t o found back rest =>
    exact hl.trans _ _ _ _ ((Frame.setSemaphore _ _ _).trans _ _ _ _ rest.frame)

/-- No step changes what is recorded for a model it does not work on. -/
theorem step_frame (c : AdmissionController) (s t : State) (e : Event) (o : Outcome)
    (h : step c s e = some (t, o)) : ∃ model, e.model s = some model ∧ Frame model s t := by
  cases step_stepped c s t e o h with
  | arrive call t o fresh h =>
    refine ⟨call.model, rfl, ?_⟩
    rcases admit_cases c s t call o h with ⟨-, hs⟩ | ⟨limit, -, he⟩
    · exact hs.frame
    · exact he.frame
  | timeout w found => exact ⟨w.call.model, by simp [Event.model, found], Frame.signal s w _⟩
  | cancel w found => exact ⟨w.call.model, by simp [Event.model, found], Frame.signal s w _⟩
  | resume w t o found h =>
    exact ⟨w.call.model, by simp [Event.model, found], (resume_cases c s t w o h).frame⟩
  | release a t o found h =>
    refine ⟨a.model, by simp [Event.model, found], ?_⟩
    have hs : Frame a.model s (uncounted (s.settle a.id) a.model a.reserved) := by
      refine ⟨fun _ _ => rfl, fun m hm => Function.update_of_ne hm _ _, fun _ _ => rfl, ?_⟩
      intro m hm
      have := settle_held s a m found
      rwa [if_neg (Ne.symm hm)] at this
    rcases release_cases _ t a.model a.reserved o h with ⟨rfl, -, -⟩ | ⟨hr, -⟩
    · exact hs
    · exact hs.trans _ _ _ _ (Frame.releasePermit _ _ a.model hr)

inductive Effect (c : AdmissionController) (s t : State) : Event → Outcome → Prop
  | quiet (e : Event) (o : Outcome) (silent : o = .suspended ∨ o = .signalled ∨ ∃ x, o = .raised x)
      (tracker : t.tracker = s.tracker) (outstanding : t.outstanding = s.outstanding) :
      Effect c s t e o
  | admitted (e : Event) (call : Call) (ws : List ResponseWarning) (result : AdmissionResult)
      (origin : e = .arrive call ∨
        ∃ w, s.findWaiting call.id = some w ∧ w.call = call ∧ e = .resume call.id)
      (early : ws = [] ∨ ws = [sequenceGateSkipped])
      (gate : gates c call.model call.request.val call.engine ws (s.tracker call.model) =
        .ok result)
      (tracker : t.tracker = s.tracker.add call.model result.reservedTokens)
      (outstanding : t.outstanding = ⟨call.id, call.model, result.reservedTokens⟩::s.outstanding) :
      Effect c s t e (.returned result)
  | released (a : Admission) (o : Outcome) (found : s.findOutstanding a.id = some a)
      (kind : o = .released ∨ o = .releaseRaised overReleased)
      (tracker : t.tracker = s.tracker.add a.model (-a.reserved))
      (outstanding : t.outstanding = s.outstanding.eraseP fun x => x.id = a.id) :
      Effect c s t (.release a.id) o

theorem SlotEnd.effect {c : AdmissionController} {s u t : State} {call : Call} {slot : Bool}
    {ws : List ResponseWarning} {o : Outcome} {e : Event} (h : SlotEnd c u call slot ws t o)
    (early : ws = [] ∨ ws = [sequenceGateSkipped]) (ht : u.tracker = s.tracker)
    (hout : u.outstanding = s.outstanding)
    (origin : e = .arrive call ∨
      ∃ w, s.findWaiting call.id = some w ∧ w.call = call ∧ e = .resume call.id) :
    Effect c s t e o := by
  cases h with
  | commit result gate =>
    rw [ht] at gate
    exact .admitted e call ws result origin early gate (by rw [ht]) (by rw [hout])
  | reject x t gate back =>
    split_ifs at back
    · obtain ⟨h1, h2, -⟩ := releasePermit_fields u t call.model back
      exact .quiet e _ (Or.inr (Or.inr ⟨x, rfl⟩)) (h1.trans ht) (h2.trans hout)
    · obtain rfl := Option.some.inj back
      exact .quiet e _ (Or.inr (Or.inr ⟨x, rfl⟩)) ht hout
  | broken back => exact .quiet e _ (Or.inr (Or.inr ⟨_, rfl⟩)) ht hout

theorem step_effect (c : AdmissionController) (s t : State) (e : Event) (o : Outcome)
    (h : step c s e = some (t, o)) : Effect c s t e o := by
  cases step_stepped c s t e o h with
  | arrive call t o fresh h =>
    rcases admit_cases c s t call o h with ⟨-, hs⟩ | ⟨limit, -, he⟩
    · exact hs.effect (Or.inr rfl) rfl rfl (Or.inl rfl)
    · cases he with
      | refused x => exact .quiet _ _ (Or.inr (Or.inr ⟨x, rfl⟩)) rfl rfl
      | expired u sem got =>
        obtain ⟨h1, h2, -⟩ := getSemaphore_fields s u _ _ sem got
        exact .quiet _ _ (Or.inl rfl) (by simp [State.wait, h1]) (by simp [State.wait, h2])
      | queued u sem got =>
        obtain ⟨h1, h2, -⟩ := getSemaphore_fields s u _ _ sem got
        exact .quiet _ _ (Or.inl rfl) (by simp [State.wait, h1]) (by simp [State.wait, h2])
      | served u t sem o got free rest =>
        obtain ⟨h1, h2, -⟩ := getSemaphore_fields s u _ _ sem got
        exact rest.effect (Or.inl rfl) (by simp [h1]) (by simp [h2]) (Or.inl rfl)
  | timeout w found => exact .quiet _ _ (Or.inr (Or.inl rfl)) rfl rfl
  | cancel w found => exact .quiet _ _ (Or.inr (Or.inl rfl)) rfl rfl
  | resume w t o found h =>
    cases resume_cases c s t w o h with
    | expired =>
      exact .quiet _ _ (Or.inr (Or.inr ⟨_, rfl⟩)) (by simp [State.leave]) (by simp [State.leave])
    | interrupted sem sem' found back =>
      exact .quiet _ _ (Or.inr (Or.inr ⟨_, rfl⟩)) (by simp [State.leave]) (by simp [State.leave])
    | served sem sem' t o hsem back rest =>
      exact rest.effect (Or.inl rfl) (by simp [State.leave]) (by simp [State.leave])
        (Or.inr ⟨w, found, rfl, rfl⟩)
  | release a t o found h =>
    rcases release_cases _ t a.model a.reserved o h with ⟨rfl, -, rfl⟩ | ⟨hr, rfl⟩
    · exact .released a _ found (Or.inr rfl) rfl rfl
    · obtain ⟨h1, h2, -⟩ := releasePermit_fields _ _ a.model hr
      exact .released a _ found (Or.inl rfl) h1 h2

theorem SlotEnd.waiting {c : AdmissionController} {s t : State} {call : Call} {slot : Bool}
    {ws : List ResponseWarning} {o : Outcome} (h : SlotEnd c s call slot ws t o) :
    t.waiting = s.waiting := by
  cases h with
  | commit result gate => rfl
  | reject e t gate back =>
    split_ifs at back
    · exact (releasePermit_fields s t call.model back).2.2.1
    · obtain rfl := Option.some.inj back
      rfl
  | broken back => rfl

theorem step_waiting (c : AdmissionController) (s t : State) (e : Event) (o : Outcome)
    (h : step c s e = some (t, o)) :
    ∀ w ∈ t.waiting, (∃ v ∈ s.waiting, v.call = w.call) ∨ e = .arrive w.call := by
  intro x hx
  cases step_stepped c s t e o h with
  | arrive call t o fresh h =>
    rcases admit_cases c s t call o h with ⟨-, hs⟩ | ⟨limit, -, he⟩
    · rw [hs.waiting] at hx
      exact Or.inl ⟨x, hx, rfl⟩
    · cases he with
      | refused y => exact Or.inl ⟨x, hx, rfl⟩
      | expired u sem got =>
        have hu := (getSemaphore_fields s u _ _ sem got).2.2.1
        simp only [State.wait, countWaiter_waiting, hu, List.mem_cons] at hx
        rcases hx with rfl | hx
        · exact Or.inr rfl
        · exact Or.inl ⟨x, hx, rfl⟩
      | queued u sem got =>
        have hu := (getSemaphore_fields s u _ _ sem got).2.2.1
        simp only [State.wait, setSemaphore_waiting, countWaiter_waiting, hu,
          List.mem_cons] at hx
        rcases hx with rfl | hx
        · exact Or.inr rfl
        · exact Or.inl ⟨x, hx, rfl⟩
      | served u t sem o got free rest =>
        have hu := (getSemaphore_fields s u _ _ sem got).2.2.1
        rw [rest.waiting] at hx
        exact Or.inl ⟨x, by simpa [hu] using hx, rfl⟩
  | timeout w found =>
    obtain ⟨v, hv, rfl⟩ := List.mem_map.mp hx
    exact Or.inl ⟨v, hv, by split_ifs <;> rfl⟩
  | cancel w found =>
    obtain ⟨v, hv, rfl⟩ := List.mem_map.mp hx
    exact Or.inl ⟨v, hv, by split_ifs <;> rfl⟩
  | resume w t o found h =>
    have hmem : x ∈ (s.leave w.call.id).waiting := by
      cases resume_cases c s t w o h with
      | expired => simpa using hx
      | interrupted sem sem' found back => simpa using hx
      | served sem sem' t o hsem back rest =>
        rw [rest.waiting] at hx
        simpa using hx
    exact Or.inl ⟨x, List.mem_of_mem_eraseP hmem, rfl⟩
  | release a t o found h =>
    rcases release_cases _ t a.model a.reserved o h with ⟨rfl, -, -⟩ | ⟨hr, -⟩
    · exact Or.inl ⟨x, hx, rfl⟩
    · rw [(releasePermit_fields _ _ a.model hr).2.2.1] at hx
      exact Or.inl ⟨x, hx, rfl⟩

end InferenceX.AdmissionSteps
