import InferenceX.BatchQueue
import InferenceX.FirstGate
import InferenceX.StrictMode

/-!
# When a free slot is taken

Every call that waits within a positive bound has a future in the line of its
model's semaphore. Where that line is empty, no batch call of the model waits
in it, so the cap on waiting batch calls refuses nobody unless it is zero. A
bound of zero refuses everybody, since `wait_for` then cancels the acquisition
before it starts.
-/

set_option autoImplicit false

namespace InferenceX.FreeSlot
open Library.StepRuns Library.SlotSemaphore
open InferenceX.PythonValues InferenceX.ChatSchema InferenceX.ModelRegistry
open InferenceX.AdmissionGates InferenceX.AdmissionMachine InferenceX.AdmissionSteps
open InferenceX.PermitConservation InferenceX.BatchQueue InferenceX.FirstGate
open InferenceX.StrictMode

def InLine (s : State) (model : String) (id : ℕ) : Prop :=
  ∃ sem, s.semaphores model = some sem ∧ id ∈ sem.tasks

def Keeps (s t : State) : Prop := ∀ model id, InLine s model id → InLine t model id

structure Lined (c : AdmissionController) (s : State) : Prop where
  distinct : (s.waiting.map fun w => w.call.id).Nodup
  early : ∀ w ∈ s.waiting, w.expired = (waitBound c w.call.request.val.priority).nonpositive
  queued : ∀ w ∈ s.waiting, w.expired = false → InLine s w.call.model w.call.id

theorem keeps_of_semaphores (s t : State) (h : t.semaphores = s.semaphores) : Keeps s t := by
  rintro model id ⟨sem, hs, hmem⟩
  exact ⟨sem, by rw [h]; exact hs, hmem⟩

theorem Keeps.trans {s t u : State} (h : Keeps s t) (k : Keeps t u) : Keeps s u :=
  fun model id hin => k model id (h model id hin)

theorem keeps_setSemaphore (s : State) (model : String) (sem sem' : Semaphore ℕ)
    (hs : s.semaphores model = some sem) (htasks : ∀ id ∈ sem.tasks, id ∈ sem'.tasks) :
    Keeps s (s.setSemaphore model sem') := by
  rintro m id ⟨v, hv, hmem⟩
  by_cases hm : m = model
  · subst hm
    obtain rfl := Option.some.inj (hs.symm.trans hv)
    exact ⟨sem', setSemaphore_same s m sem', htasks id hmem⟩
  · exact ⟨v, by rw [(Frame.setSemaphore s model sem').semaphores m hm]; exact hv, hmem⟩

theorem keeps_getSemaphore (s u : State) (model : String) (limit : ℤ) (sem : Semaphore ℕ)
    (h : s.getSemaphore model limit = some (u, sem)) :
    Keeps s u ∧ u.semaphores model = some sem := by
  rw [State.getSemaphore] at h
  split at h
  · obtain ⟨rfl, rfl⟩ := step_inj h
    exact ⟨fun _ _ hin => hin, ‹_›⟩
  · rename_i hnone
    split_ifs at h
    obtain ⟨rfl, rfl⟩ := step_inj h
    refine ⟨?_, setSemaphore_same s model _⟩
    rintro m id ⟨v, hv, hmem⟩
    have hm : m ≠ model := by
      rintro rfl
      rw [hnone] at hv
      cases hv
    exact ⟨v, by rw [(Frame.setSemaphore s model _).semaphores m hm]; exact hv, hmem⟩

theorem keeps_releasePermit (s t : State) (model : String) (h : s.releasePermit model = some t) :
    Keeps s t := by
  rw [State.releasePermit] at h
  split at h
  · obtain rfl := Option.some.inj h
    exact fun _ _ hin => hin
  · rename_i sem hs
    obtain ⟨sem', hrel, rfl⟩ := Option.map_eq_some_iff.mp h
    exact keeps_setSemaphore s model sem sem' hs fun id hid => by
      rwa [sem.release_tasks sem' hrel]

theorem slotEnd_keeps {c : AdmissionController} {s t : State} {call : Call} {slot : Bool}
    {ws : List ResponseWarning} {o : Outcome} (h : SlotEnd c s call slot ws t o) : Keeps s t := by
  cases h with
  | commit result gate => exact fun _ _ hin => hin
  | reject e t gate back =>
    split_ifs at back
    · exact keeps_releasePermit s t call.model back
    · obtain rfl := Option.some.inj back
      exact fun _ _ hin => hin
  | broken back => exact fun _ _ hin => hin

theorem Lined.same {c : AdmissionController} {s t : State} (h : Lined c s)
    (hw : t.waiting = s.waiting) (hk : Keeps s t) : Lined c t where
  distinct := hw ▸ h.distinct
  early := hw ▸ h.early
  queued w hmem hexp := hk _ _ (h.queued w (hw ▸ hmem) hexp)

/-- A new call joins the waiting ones, in line unless its bound is not positive. -/
theorem Lined.wait {c : AdmissionController} {s : State} (h : Lined c s) (call : Call)
    (expired : Bool) (fresh : ∀ w ∈ s.waiting, w.call.id ≠ call.id)
    (hexp : expired = (waitBound c call.request.val.priority).nonpositive)
    (hline : expired = false → InLine s call.model call.id) :
    Lined c (s.wait call expired) where
  distinct := by
    refine List.nodup_cons.mpr ⟨?_, h.distinct⟩
    rintro hmem
    obtain ⟨w, hw, hid⟩ := List.mem_map.mp hmem
    exact fresh w hw hid
  early := by
    intro w hmem
    rcases List.mem_cons.mp hmem with rfl | hmem
    · exact hexp
    · exact h.early w hmem
  queued := by
    intro w hmem he
    rcases List.mem_cons.mp hmem with rfl | hmem
    · exact hline he
    · exact h.queued w hmem he

/-- Where keys are distinct, erasing a key leaves no entry with it. -/
theorem key_ne_of_mem_erase {A : Type} (key : A → ℕ) (id : ℕ) (xs : List A) (a : A)
    (hd : (xs.map key).Nodup) (hmem : a ∈ xs.eraseP fun x => key x = id) : key a ≠ id := by
  induction xs with
  | nil => cases hmem
  | cons x xs ih =>
    rw [List.map_cons, List.nodup_cons] at hd
    by_cases hx : key x = id
    · rw [List.eraseP_cons_of_pos (by simpa using hx)] at hmem
      rintro rfl
      exact hd.1 (List.mem_map.mpr ⟨a, hmem, hx.symm⟩)
    · rw [List.eraseP_cons_of_neg (by simpa using hx)] at hmem
      rcases List.mem_cons.mp hmem with rfl | hmem
      · exact hx
      · exact ih hd.2 hmem

theorem mem_leave (c : AdmissionController) (s : State) (id : ℕ) (h : Lined c s)
    (w : WaitingCall) (hmem : w ∈ (s.leave id).waiting) : w ∈ s.waiting ∧ w.call.id ≠ id :=
  ⟨List.mem_of_mem_eraseP hmem,
    key_ne_of_mem_erase (fun w : WaitingCall => w.call.id) id s.waiting w h.distinct hmem⟩

/-- The call that resumes takes only its own future out of the line. -/
theorem Lined.leave {c : AdmissionController} {s t : State} (h : Lined c s) (id : ℕ)
    (hw : t.waiting = (s.leave id).waiting)
    (hk : ∀ model other, other ≠ id → InLine s model other → InLine t model other) :
    Lined c t where
  distinct := by
    rw [hw]
    exact h.distinct.sublist (List.eraseP_sublist.map _)
  early w hmem := h.early w (mem_leave c s id h w (hw ▸ hmem)).1
  queued w hmem he := by
    obtain ⟨hin, hne⟩ := mem_leave c s id h w (hw ▸ hmem)
    exact hk _ _ hne (h.queued w hin he)

theorem Lined.signal {c : AdmissionController} {s : State} (h : Lined c s) (v : WaitingCall)
    (mark : WaitingCall → WaitingCall)
    (hmark : ∀ w, (mark w).call = w.call ∧ (mark w).expired = w.expired) :
    Lined c (s.signal v mark) := by
  have hmem : ∀ w ∈ (s.signal v mark).waiting,
      ∃ u ∈ s.waiting, w.call = u.call ∧ w.expired = u.expired := by
    intro w hw
    obtain ⟨u, hu, rfl⟩ := List.mem_map.mp hw
    refine ⟨u, hu, ?_⟩
    split_ifs
    · exact hmark u
    · exact ⟨rfl, rfl⟩
  have hkeep : Keeps s (s.signal v mark) := by
    simp only [State.signal]
    split_ifs
    · exact keeps_of_semaphores _ _ rfl
    · cases hs : s.semaphores v.call.model with
      | none =>
        refine keeps_of_semaphores _ _ (Function.update_eq_self_iff.mpr ?_)
        simp [hs]
      | some sem => exact keeps_setSemaphore s _ sem _ hs fun id hid => by simpa using hid
  refine ⟨?_, fun w hw => ?_, fun w hw he => ?_⟩
  · have hids : (s.signal v mark).waiting.map (fun w => w.call.id) =
        s.waiting.map fun w => w.call.id := by
      simp only [State.signal, List.map_map]
      refine List.map_congr_left fun w _ => ?_
      simp only [Function.comp_apply]
      split_ifs
      · rw [(hmark w).1]
      · rfl
    rw [hids]
    exact h.distinct
  · obtain ⟨u, hu, hcall, hexp⟩ := hmem w hw
    rw [hexp, hcall]
    exact h.early u hu
  · obtain ⟨u, hu, hcall, hexp⟩ := hmem w hw
    rw [hcall]
    exact hkeep _ _ (h.queued u hu (hexp ▸ he))

theorem arrive_lined (c : AdmissionController) (s t : State) (call : Call) (o : Outcome)
    (hs : Lined c s) (hfresh : ∀ w ∈ s.waiting, w.call.id ≠ call.id)
    (h : (passage c s call).finish c call = (t, o)) : Lined c t := by
  have hpass := passage_passes c s call
  generalize passage c s call = p at h hpass
  cases hpass with
  | skipped noTier =>
    have hend := afterSlot_end c s t call false _ o h
    exact hs.same hend.waiting (slotEnd_keeps hend)
  | capped limit ceiling batch full =>
    obtain ⟨rfl, -⟩ := Prod.mk.inj h
    exact hs
  | unbounded limit ceiling got =>
    obtain ⟨rfl, -⟩ := Prod.mk.inj h
    exact hs
  | expired limit u sem ceiling space got bound =>
    obtain ⟨rfl, -⟩ := Prod.mk.inj h
    obtain ⟨hkeep, -⟩ := keeps_getSemaphore s u _ _ sem got
    have hw := (getSemaphore_fields s u _ _ sem got).2.2.1
    have hu : Lined c (u.countWaiter call 1) := hs.same (by simp [hw])
      (hkeep.trans (keeps_of_semaphores _ _ (by simp)))
    exact hu.wait call true (by simpa [hw] using hfresh) bound.symm (by simp)
  | queued limit u sem ceiling space got bound busy =>
    obtain ⟨rfl, -⟩ := Prod.mk.inj h
    obtain ⟨hkeep, hsem⟩ := keeps_getSemaphore s u _ _ sem got
    have hw := (getSemaphore_fields s u _ _ sem got).2.2.1
    have hu : Lined c ((u.countWaiter call 1).setSemaphore call.model (sem.enqueue call.id)) :=
      hs.same (by simp [hw]) <| hkeep.trans <| (keeps_of_semaphores _ _ (by simp)).trans <|
        keeps_setSemaphore _ _ sem _ (by simpa using hsem) fun id hid => by simp [hid]
    refine hu.wait call false (by simpa [hw] using hfresh) bound.symm fun _ => ?_
    exact ⟨_, setSemaphore_same _ _ _, by simp⟩
  | served limit u sem ceiling space got bound free =>
    obtain ⟨hkeep, hsem⟩ := keeps_getSemaphore s u _ _ sem got
    have hw := (getSemaphore_fields s u _ _ sem got).2.2.1
    have hend := afterSlot_end c _ t call true [] o h
    refine hs.same (by rw [hend.waiting]; simp [hw]) (hkeep.trans ?_)
    refine (keeps_of_semaphores u (u.countWaiter call 1) (by simp)).trans ?_
    refine (keeps_setSemaphore _ _ sem sem.acquireNow (by simpa using hsem)
      fun id hid => by simpa using hid).trans ?_
    exact (keeps_of_semaphores _ _ (by simp)).trans (slotEnd_keeps hend)

theorem resume_lined (c : AdmissionController) (s t : State) (w : WaitingCall) (o : Outcome)
    (hs : Lined c s) (h : Resumption c s w t o) : Lined c t := by
  have hset : ∀ (sem sem' : Semaphore ℕ) (thrown got : Bool),
      s.semaphores w.call.model = some sem → sem.resume w.call.id thrown = some (sem', got) →
      ∀ model other, other ≠ w.call.id → InLine s model other →
        InLine (((s.leave w.call.id).countWaiter w.call (-1)).setSemaphore w.call.model sem')
          model other := by
    rintro sem sem' thrown got found back model other hne ⟨v, hv, hmem⟩
    by_cases hm : model = w.call.model
    · subst hm
      obtain rfl := Option.some.inj (found.symm.trans hv)
      exact ⟨sem', setSemaphore_same _ _ _,
        sem.mem_resume_tasks _ other thrown sem' got back hne hmem⟩
    · refine ⟨v, ?_, hmem⟩
      rw [(Frame.setSemaphore _ _ _).semaphores model hm, countWaiter_semaphores]
      exact hv
  cases h with
  | expired =>
    refine hs.leave w.call.id (by simp) fun model other _ hin => ?_
    exact keeps_of_semaphores s _ (by simp [State.leave]) model other hin
  | interrupted sem sem' found back =>
    exact hs.leave w.call.id (by simp) (hset sem sem' _ _ found back)
  | served sem sem' t o found back rest =>
    refine hs.leave w.call.id (by rw [rest.waiting]; simp) fun model other hne hin => ?_
    exact slotEnd_keeps rest model other (hset sem sem' _ _ found back model other hne hin)

theorem step_lined (c : AdmissionController) (s t : State) (e : Event) (o : Outcome)
    (hs : Lined c s) (h : step c s e = some (t, o)) : Lined c t := by
  cases step_stepped c s t e o h with
  | arrive call t o fresh h =>
    rw [admitCall_passage] at h
    refine arrive_lined c s t call o hs (fun w hw hid => ?_) h
    have hlive := (Bool.or_eq_false_iff.mp fresh).1
    simpa [hid] using List.any_eq_false.mp hlive w hw
  | timeout w found => exact hs.signal w _ fun _ => ⟨rfl, rfl⟩
  | cancel w found => exact hs.signal w _ fun _ => ⟨rfl, rfl⟩
  | resume w t o found h => exact resume_lined c s t w o hs (resume_cases c s t w o h)
  | release a t o found h =>
    rcases release_cases _ t a.model a.reserved o h with ⟨rfl, -, -⟩ | ⟨hr, -⟩
    · exact hs.same rfl (keeps_of_semaphores _ _ rfl)
    · have hw := (releasePermit_fields _ t a.model hr).2.2.1
      refine hs.same hw ((keeps_of_semaphores s (uncounted (s.settle a.id) a.model a.reserved)
        rfl).trans ?_)
      exact keeps_releasePermit _ t a.model hr

theorem run_lined (c : AdmissionController) (es : List Event) (os : List Outcome) (s : State)
    (h : run (step c) initial es = some (s, os)) : Lined c s :=
  run_preserves (fun _ => True) (Lined c) (fun s e t o _ hs => step_lined c s t e o hs)
    initial s es os (fun _ _ => trivial) ⟨List.nodup_nil, by simp [initial], by simp [initial]⟩ h

/-- The semaphore has a free permit and an empty line; one that no call has
created yet has all its permits. -/
def Free (c : AdmissionController) (s : State) (model : String) : Prop :=
  match s.semaphores model with
  | some sem => 0 < sem.value ∧ sem.waiters = []
  | none => ∃ limit, c.effectiveMaxNumSeqs model = some limit ∧ 0 < limit

/-- Gate 1 lets the call through with one of the free permits. -/
def TakesFreePermit (c : AdmissionController) (s : State) (call : Call) : Prop :=
  ∃ lent, passage c s call = .entered lent true [] ∧
    freePermits c lent call.model+1 = freePermits c s call.model

/-- The wait bound of the priority is positive and its queue may hold a call. -/
def MayQueue (c : AdmissionController) (priority : Priority) : Prop :=
  (waitBound c priority).nonpositive = false ∧
    (priority = .interactive ∨ 1 ≤ c.batchWaiterMultiplier)

theorem free_semaphore (c : AdmissionController) (s : State) (model : String) (limit : ℤ)
    (hl : c.effectiveMaxNumSeqs model = some limit) (hfree : Free c s model) :
    ∃ u sem, s.getSemaphore model limit = some (u, sem) ∧ sem.waiters = [] ∧ 0 < sem.value ∧
      (sem.value : ℤ) = freePermits c s model := by
  rw [Free] at hfree
  rw [State.getSemaphore, freePermits]
  cases hs : s.semaphores model with
  | some sem =>
    simp only [hs] at hfree
    exact ⟨s, sem, rfl, hfree.2, hfree.1, rfl⟩
  | none =>
    simp only [hs] at hfree
    obtain ⟨limit', hl', hpos⟩ := hfree
    obtain rfl : limit = limit' := Option.some.inj (hl.symm.trans hl')
    refine ⟨_, _, if_neg (by omega), rfl, show 0 < limit.toNat by omega, ?_⟩
    rw [seqLimit, hl]
    exact Int.toNat_of_nonneg hpos.le

theorem locked_of_free (sem : Semaphore ℕ) (hw : sem.waiters = []) (hv : 0 < sem.value) :
    sem.locked = false := by
  simp [Semaphore.locked, hw, Nat.ne_of_gt hv]

/-- Nobody waits in an empty line, so with a positive bound no batch call waits at all. -/
theorem no_batch_waiting (c : AdmissionController) (s : State) (model : String)
    (hlined : Lined c s) (hfree : Free c s model)
    (hbound : (waitBound c .batch).nonpositive = false) : waitingBatch s model = 0 := by
  rw [waitingBatch, List.countP_eq_zero]
  intro w hw hof
  obtain ⟨rfl, hp⟩ : w.call.model = model ∧ w.call.request.val.priority = .batch := by
    simpa [ofBatch] using hof
  have hexp : w.expired = false := by rw [hlined.early w hw, hp, hbound]
  obtain ⟨sem, hs, hmem⟩ := hlined.queued w hw hexp
  rw [Free, hs] at hfree
  simp [Semaphore.tasks, hfree.2] at hmem

/-- With a free permit Gate 1 has three answers: the batch queue counts as
full, the wait ends before it begins, or the call takes the permit. -/
theorem passage_free (c : AdmissionController) (s : State) (call : Call) (limit : ℤ)
    (hl : c.effectiveMaxNumSeqs call.model = some limit) (hfree : Free c s call.model) :
    (call.request.val.priority = .batch ∧
      c.batchWaiterMultiplier*limit ≤ s.batchWaiters call.model ∧
      passage c s call = .refused s (queueFull call.model (c.batchWaiterMultiplier*limit))) ∨
    ((waitBound c call.request.val.priority).nonpositive = true ∧
      ∃ u, passage c s call = .waits u true) ∨
    ((waitBound c call.request.val.priority).nonpositive = false ∧
      (call.request.val.priority = .batch →
        s.batchWaiters call.model < c.batchWaiterMultiplier*limit) ∧
      TakesFreePermit c s call) := by
  obtain ⟨u', sem', hget, hw, hv, hval⟩ := free_semaphore c s call.model limit hl hfree
  have hlimit (limit' : ℤ) (hl' : c.effectiveMaxNumSeqs call.model = some limit') :
      limit' = limit := Option.some.inj (hl'.symm.trans hl)
  have hpass := passage_passes c s call
  rw [TakesFreePermit]
  generalize passage c s call = p at hpass
  cases hpass with
  | skipped noTier =>
    rw [hl] at noTier
    cases noTier
  | capped limit' ceiling batch full =>
    obtain rfl := hlimit limit' ceiling
    exact Or.inl ⟨batch, full, rfl⟩
  | unbounded limit' ceiling got =>
    obtain rfl := hlimit limit' ceiling
    rw [hget] at got
    cases got
  | expired limit' u sem ceiling space got bound => exact Or.inr (Or.inl ⟨bound, _, rfl⟩)
  | queued limit' u sem ceiling space got bound busy =>
    obtain rfl := hlimit limit' ceiling
    obtain ⟨rfl, rfl⟩ := step_inj (hget.symm.trans got)
    rw [locked_of_free _ hw hv] at busy
    cases busy
  | served limit' u sem ceiling space got bound free =>
    obtain rfl := hlimit limit' ceiling
    obtain ⟨rfl, rfl⟩ := step_inj (hget.symm.trans got)
    refine Or.inr (Or.inr ⟨bound, space, _, rfl, ?_⟩)
    rw [← hval, freePermits, countWaiter_semaphores, setSemaphore_same]
    exact show ((sem'.value-1 : ℕ) : ℤ)+1 = sem'.value by omega

/-- The cap on waiting batch calls is at least one when the multiplier is. -/
theorem takes_permit_of_mayQueue (c : AdmissionController) (s : State) (call : Call) (limit : ℤ)
    (hl : c.effectiveMaxNumSeqs call.model = some limit) (hpos : 0 < limit)
    (hlined : Lined c s) (hqueue : Queue c s) (hfree : Free c s call.model)
    (hmay : MayQueue c call.request.val.priority) : TakesFreePermit c s call := by
  obtain ⟨hbound, hmult⟩ := hmay
  rcases passage_free c s call limit hl hfree with ⟨batch, full, -⟩ | ⟨bound, -⟩ | ⟨-, -, htakes⟩
  · rw [batch] at hbound hmult
    have hone : 1 ≤ c.batchWaiterMultiplier := hmult.resolve_left (by simp)
    rw [hqueue.counted, no_batch_waiting c s call.model hlined hfree hbound] at full
    exact absurd full (not_le.mpr (mul_pos (by omega) hpos))
  · rw [hbound] at bound
    cases bound
  · exact htakes

theorem turned_away (c : AdmissionController) (s : State) (call : Call) (limit : ℤ)
    (hl : c.effectiveMaxNumSeqs call.model = some limit) (hpos : 0 < limit)
    (hfree : Free c s call.model) (hmay : ¬ MayQueue c call.request.val.priority) :
    ¬ TakesFreePermit c s call ∧
      ∃ t message, admitAlone c s call = some (t, .raised (.engineSaturated message 1)) := by
  have hadmit := admitCall_passage c s call
  rcases passage_free c s call limit hl hfree with
    ⟨-, -, hpass⟩ | ⟨-, u, hpass⟩ | ⟨hbound, hspace, -⟩
  · rw [hpass] at hadmit
    exact ⟨by simp [TakesFreePermit, hpass], s, _, admitAlone_done c s s call _ hadmit (by simp)⟩
  · rw [hpass] at hadmit
    exact ⟨by simp [TakesFreePermit, hpass], _, _, admitAlone_expired c s u call hadmit⟩
  · refine absurd ⟨hbound, ?_⟩ hmay
    cases hp : call.request.val.priority with
    | interactive => exact Or.inl rfl
    | batch =>
      have hcap : (0 : ℤ) < c.batchWaiterMultiplier*limit :=
        lt_of_le_of_lt (Nat.cast_nonneg _) (hspace hp)
      exact Or.inr (pos_of_mul_pos_left hcap hpos.le)

/-- In every reachable state in which the model has a free permit and nobody in
line, an arriving call takes the permit exactly if its wait bound is positive
and, for a batch call, the multiplier is; any other call is turned away with
the error of a saturated engine. -/
theorem takes_free_slot_iff (c : AdmissionController) (tier : VramTier) (ht : c.tier = some tier)
    (s : State) (hreach : Reachable (step c) initial s) (call : Call)
    (hfree : Free c s call.model) :
    (TakesFreePermit c s call ↔ MayQueue c call.request.val.priority) ∧
    (¬ MayQueue c call.request.val.priority →
      ∃ t message, admitAlone c s call = some (t, .raised (.engineSaturated message 1))) := by
  obtain ⟨es, os, hrun⟩ := hreach
  have hl := effective_limit c tier ht call.model
  have hpos : 0 < seqLimit c call.model := by
    have hsum := balanced_sum c s (run_balanced c tier ht es os s hrun).1 call.model
    obtain ⟨u, sem, -, -, hv, hval⟩ := free_semaphore c s call.model _ hl hfree
    omega
  refine ⟨⟨fun htakes => ?_, ?_⟩, fun hmay => (turned_away c s call _ hl hpos hfree hmay).2⟩
  · by_contra hmay
    exact (turned_away c s call _ hl hpos hfree hmay).1 htakes
  · exact takes_permit_of_mayQueue c s call _ hl hpos (run_lined c es os s hrun)
      (run_queue c es os s hrun) hfree

/-- The first call of a fresh deployment. -/
theorem takes_free_slot_first : TakesFreePermit smallController initial (helloCall 0) :=
  (takes_free_slot_iff smallController smallTier rfl initial ⟨[], [], rfl⟩ (helloCall 0)
    ⟨1, by decide, by decide⟩).1.mpr ⟨by decide +kernel, Or.inl rfl⟩

def unwaiting : AdmissionController :=
  { smallController with admissionWaitS := .short 0 0 }

/-- The only slot is free, and the first call of all is refused for want of one. -/
theorem free_slot_refused :
    Free unwaiting initial "m" ∧
    ¬ TakesFreePermit unwaiting initial (helloCall 0) ∧
    (admitAlone unwaiting initial (helloCall 0)).map Prod.snd =
      some (.raised (noSlotFreed unwaiting (helloCall 0))) := by
  have hfree : Free unwaiting initial "m" := ⟨1, by decide, by decide⟩
  have hbound : ¬ MayQueue unwaiting .interactive := fun h => absurd h.1 (by decide +kernel)
  exact ⟨hfree, (turned_away unwaiting initial (helloCall 0) 1 (by decide) (by decide) hfree
    hbound).1, by decide +kernel⟩

end InferenceX.FreeSlot
