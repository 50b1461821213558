import InferenceX.AdmissionSteps

/-!
# Sequence permits are conserved

A model's permits are free, handed to a call that has not resumed, or lent to
an admission. The invariant counts one more kind, the permit of the call that
is running: it is in nobody's books while Gates 2 and 3 decide, and either of
their ends settles it.
-/

set_option autoImplicit false

namespace InferenceX.PermitConservation
open Library.StepRuns Library.SlotSemaphore
open InferenceX.PythonValues InferenceX.ChatSchema InferenceX.ModelRegistry
open InferenceX.AdmissionGates InferenceX.AdmissionMachine InferenceX.AdmissionSteps

def Balance (limit : ℤ) (sem : Option (Semaphore ℕ)) (lent : ℕ) : Prop :=
  match sem with
  | none => lent = 0
  | some sem => (sem.bound : ℤ) = limit ∧ sem.owned+lent = sem.bound

def Balanced (limit : String → ℤ) (transit : String → ℕ) (s : State) : Prop :=
  ∀ m, Balance (limit m) (s.semaphores m) (held s m+transit m)

def idle : String → ℕ := fun _ => 0

def carrying (model : String) : String → ℕ := Function.update idle model 1

theorem update_idle (model : String) : Function.update idle model 0 = idle :=
  Function.update_eq_self model idle

theorem update_carrying (model : String) : Function.update (carrying model) model 0 = idle := by
  rw [carrying, Function.update_idem, update_idle]

section Parts
variable (limit : String → ℤ)

theorem balanced_initial : Balanced limit idle initial := fun _ => rfl

theorem balanced_congr (transit : String → ℕ) (s t : State) (h : Balanced limit transit s)
    (hs : t.semaphores = s.semaphores) (ho : t.outstanding = s.outstanding) :
    Balanced limit transit t := by
  intro m
  have hm := h m
  rwa [← hs, held, ← ho] at hm

theorem balanced_set (transit : String → ℕ) (s : State) (model : String) (sem : Semaphore ℕ)
    (k : ℕ) (h : Balanced limit transit s) (hb : (sem.bound : ℤ) = limit model)
    (ho : sem.owned+(held s model+k) = sem.bound) :
    Balanced limit (Function.update transit model k) (s.setSemaphore model sem) := by
  intro m
  by_cases hm : m = model
  · subst hm
    rw [setSemaphore_same, Function.update_self]
    exact ⟨hb, ho⟩
  · have hf := (Frame.setSemaphore s model sem).semaphores m hm
    rw [hf, Function.update_of_ne hm]
    exact h m

theorem getSemaphore_balanced (s u : State) (model : String) (sem : Semaphore ℕ)
    (h : Balanced limit idle s) (hg : s.getSemaphore model (limit model) = some (u, sem)) :
    Balanced limit idle u ∧ u.semaphores model = some sem := by
  rw [State.getSemaphore] at hg
  split at hg
  · obtain ⟨rfl, rfl⟩ := step_inj hg
    exact ⟨h, ‹_›⟩
  · rename_i hn
    split_ifs at hg with hneg
    obtain ⟨rfl, rfl⟩ := step_inj hg
    have hm := h model
    rw [hn] at hm
    have hz : held s model = 0 := Nat.eq_zero_of_add_eq_zero_right hm
    have hset := balanced_set limit idle s model (.create (limit model).toNat) 0 h
      (Int.toNat_of_nonneg (not_lt.mp hneg))
      (by simp [Semaphore.create, Semaphore.owned, Semaphore.handed, hz])
    refine ⟨?_, setSemaphore_same s model _⟩
    rwa [update_idle] at hset

theorem releasePermit_balanced (s : State) (model : String)
    (h : Balanced limit (carrying model) s) :
    ∃ t, s.releasePermit model = some t ∧ Balanced limit idle t := by
  have hm := h model
  rw [carrying, Function.update_self] at hm
  cases hsem : s.semaphores model with
  | none =>
    rw [hsem] at hm
    exact absurd hm (Nat.succ_ne_zero _)
  | some sem =>
    rw [hsem] at hm
    obtain ⟨hb, ho⟩ := hm
    obtain ⟨sem', hr⟩ := sem.release_defined (by omega)
    obtain ⟨ho', hb'⟩ := sem.release_owned sem' hr
    refine ⟨s.setSemaphore model sem', by simp [State.releasePermit, hsem, hr], ?_⟩
    have hset := balanced_set limit (carrying model) s model sem' 0 h (by rw [hb', hb])
      (by omega)
    rwa [update_carrying] at hset

theorem slotEnd_balanced {c : AdmissionController} {s t : State} {call : Call}
    {ws : List ResponseWarning} {o : Outcome} (h : Balanced limit (carrying call.model) s)
    (hs : SlotEnd c s call true ws t o) : Balanced limit idle t := by
  cases hs with
  | commit result gate =>
    intro m
    have hm := h m
    by_cases hc : m = call.model
    · subst hc
      rw [carrying, Function.update_self] at hm
      simpa [held, idle] using hm
    · rw [carrying, Function.update_of_ne hc] at hm
      simpa [held, Ne.symm hc] using hm
  | reject e t gate back =>
    obtain ⟨u, hu, hb⟩ := releasePermit_balanced limit s call.model h
    rw [if_pos rfl, hu] at back
    exact Option.some.inj back ▸ hb
  | broken back =>
    obtain ⟨u, hu, -⟩ := releasePermit_balanced limit s call.model h
    rw [if_pos rfl, hu] at back
    cases back

/-- A call served at once carries its permit into the later gates. -/
theorem served_balanced (s u : State) (call : Call) (sem : Semaphore ℕ)
    (h : Balanced limit idle s)
    (got : s.getSemaphore call.model (limit call.model) = some (u, sem))
    (free : sem.locked = false) :
    Balanced limit (carrying call.model) (((u.countWaiter call 1).setSemaphore call.model
      sem.acquireNow).countWaiter call (-1)) := by
  obtain ⟨hu, hsem⟩ := getSemaphore_balanced limit s u call.model sem h got
  have hm := hu call.model
  rw [hsem] at hm
  have hnow := sem.acquireNow_owned free
  have hsum : sem.owned+held u call.model = sem.bound := hm.2
  have hset := balanced_set limit idle (u.countWaiter call 1) call.model sem.acquireNow 1
    (balanced_congr limit idle u _ hu (by simp) (by simp)) hm.1
    (by rw [held_countWaiter]; change _ = sem.bound; omega)
  exact balanced_congr limit _ _ _ hset (by simp) (by simp)

theorem entry_balanced {c : AdmissionController} {s t : State} {call : Call} {o : Outcome}
    (h : Balanced limit idle s) (he : Entry c s call (limit call.model) t o) :
    Balanced limit idle t := by
  cases he with
  | refused e => exact h
  | expired u sem got =>
    obtain ⟨hu, -⟩ := getSemaphore_balanced limit s u call.model sem h got
    exact balanced_congr limit idle u _ hu (by simp [State.wait]) (by simp [State.wait])
  | queued u sem got =>
    obtain ⟨hu, hsem⟩ := getSemaphore_balanced limit s u call.model sem h got
    have hm := hu call.model
    rw [hsem] at hm
    have hset := balanced_set limit idle (u.countWaiter call 1) call.model (sem.enqueue call.id) 0
      (balanced_congr limit idle u _ hu (by simp) (by simp)) hm.1
      (by rw [sem.enqueue_owned, held_countWaiter]; exact hm.2)
    rw [update_idle] at hset
    exact balanced_congr limit idle _ _ hset rfl rfl
  | served u t sem o got free rest =>
    exact slotEnd_balanced limit (served_balanced limit s u call sem h got free) rest

theorem resumption_balanced {c : AdmissionController} {s t : State} {w : WaitingCall}
    {o : Outcome} (h : Balanced limit idle s) (hr : Resumption c s w t o) :
    Balanced limit idle t := by
  have hl : Balanced limit idle ((s.leave w.call.id).countWaiter w.call (-1)) :=
    balanced_congr limit idle s _ h (by simp [State.leave]) (by simp [State.leave])
  have hm := h w.call.model
  cases hr with
  | expired => exact hl
  | interrupted sem sem' found back =>
    rw [found] at hm
    obtain ⟨ho, hb⟩ := sem.resume_owned _ _ sem' _ back
    have hsum : sem.owned+held s w.call.model = sem.bound := hm.2
    rw [if_neg Bool.false_ne_true] at ho
    have hset := balanced_set limit idle _ w.call.model sem' 0 hl (by rw [hb, hm.1])
      (by rw [held_countWaiter, held_leave]; omega)
    rwa [update_idle] at hset
  | served sem sem' t o found back rest =>
    rw [found] at hm
    obtain ⟨ho, hb⟩ := sem.resume_owned _ _ sem' _ back
    have hsum : sem.owned+held s w.call.model = sem.bound := hm.2
    rw [if_pos rfl] at ho
    have hset := balanced_set limit idle _ w.call.model sem' 1 hl (by rw [hb, hm.1])
      (by rw [held_countWaiter, held_leave]; omega)
    exact slotEnd_balanced limit hset rest

theorem signal_balanced (s : State) (w : WaitingCall) (mark : WaitingCall → WaitingCall)
    (h : Balanced limit idle s) : Balanced limit idle (s.signal w mark) := by
  intro m
  have hm := h m
  simp only [State.signal]
  split_ifs
  · exact hm
  · by_cases hw : m = w.call.model
    · subst hw
      rw [Function.update_self]
      cases hsem : s.semaphores w.call.model with
      | none => rwa [hsem] at hm
      | some sem =>
        rw [hsem] at hm
        refine ⟨hm.1, ?_⟩
        rw [sem.interrupt_owned]
        exact hm.2
    · rw [Function.update_of_ne hw]
      exact hm

end Parts

/-- The configured ceiling of a model; zero stands for no tier. -/
def seqLimit (c : AdmissionController) (m : String) : ℤ := (c.effectiveMaxNumSeqs m).getD 0

theorem effective_limit (c : AdmissionController) (tier : VramTier) (ht : c.tier = some tier)
    (m : String) : c.effectiveMaxNumSeqs m = some (seqLimit c m) := by
  simp [seqLimit, AdmissionController.effectiveMaxNumSeqs, ht]

theorem release_balanced (limit : String → ℤ) (s t : State) (a : Admission) (o : Outcome)
    (h : Balanced limit idle s) (found : s.findOutstanding a.id = some a)
    (hrel : release (s.settle a.id) a.model a.reserved = (t, o)) :
    Balanced limit idle t ∧ o = .released := by
  have hcarry : Balanced limit (carrying a.model)
      (uncounted (s.settle a.id) a.model a.reserved) := by
    intro m
    have hm := h m
    have hheld := settle_held s a m found
    by_cases hc : m = a.model
    · subst hc
      rw [if_pos rfl] at hheld
      rw [carrying, Function.update_self]
      exact hheld ▸ hm
    · rw [if_neg (Ne.symm hc)] at hheld
      rw [carrying, Function.update_of_ne hc]
      exact hheld ▸ hm
  obtain ⟨u, hu, hb⟩ := releasePermit_balanced limit _ a.model hcarry
  rcases release_cases _ t a.model a.reserved o hrel with ⟨-, hn, -⟩ | ⟨hr, ho⟩
  · rw [hu] at hn
    cases hn
  · rw [hu] at hr
    exact ⟨Option.some.inj hr ▸ hb, ho⟩

/-- One step keeps the permits balanced, and a release among them succeeds. -/
theorem step_balanced (c : AdmissionController) (tier : VramTier) (ht : c.tier = some tier)
    (s t : State) (e : Event) (o : Outcome) (h : Balanced (seqLimit c) idle s)
    (hstep : step c s e = some (t, o)) :
    Balanced (seqLimit c) idle t ∧ ∀ x, o ≠ .releaseRaised x := by
  constructor
  · cases step_stepped c s t e o hstep with
    | arrive call t o fresh hadm =>
      rcases admit_cases c s t call o hadm with ⟨hn, -⟩ | ⟨limit, hl, he⟩
      · rw [effective_limit c tier ht] at hn
        cases hn
      · rw [effective_limit c tier ht] at hl
        obtain rfl := Option.some.inj hl
        exact entry_balanced (seqLimit c) h he
    | timeout w found => exact signal_balanced (seqLimit c) s w _ h
    | cancel w found => exact signal_balanced (seqLimit c) s w _ h
    | resume w t o found hres =>
      exact resumption_balanced (seqLimit c) h (resume_cases c s t w o hres)
    | release a t o found hrel => exact (release_balanced _ s t a o h found hrel).1
  · intro x
    cases step_effect c s t e o hstep with
    | quiet _ _ silent => rintro rfl; simp at silent
    | admitted => simp
    | released a _ found =>
      have hrel : release (s.settle a.id) a.model a.reserved = (t, o) := by
        simpa [step, found] using hstep
      simp [(release_balanced _ s t a o h found hrel).2]

theorem run_balanced (c : AdmissionController) (tier : VramTier) (ht : c.tier = some tier)
    (es : List Event) (os : List Outcome) (s : State)
    (h : run (step c) initial es = some (s, os)) :
    Balanced (seqLimit c) idle s ∧ ∀ x, Outcome.releaseRaised x ∉ os := by
  refine run_history (fun _ os s => Balanced (seqLimit c) idle s ∧
    ∀ x, Outcome.releaseRaised x ∉ os) ?_ initial s es os ⟨balanced_initial _, by simp⟩ h
  rintro _ os s e t o ⟨hb, hx⟩ hs
  obtain ⟨hb', ho⟩ := step_balanced c tier ht s t e o hb hs
  refine ⟨hb', fun x hmem => ?_⟩
  rcases List.mem_append.mp hmem with hmem | hmem
  · exact hx x hmem
  · exact ho x (List.mem_singleton.mp hmem).symm

/-- Free permits of a model; before its semaphore exists, all of them. -/
def freePermits (c : AdmissionController) (s : State) (m : String) : ℤ :=
  match s.semaphores m with
  | some sem => sem.value
  | none => seqLimit c m

def handedPermits (s : State) (m : String) : ℕ :=
  match s.semaphores m with
  | some sem => sem.handed
  | none => 0

theorem balanced_sum (c : AdmissionController) (s : State)
    (h : Balanced (seqLimit c) idle s) (m : String) :
    freePermits c s m+handedPermits s m+held s m = seqLimit c m ∧
      (held s m : ℤ) ≤ max (seqLimit c m) 0 := by
  have hm := h m
  rw [freePermits, handedPermits]
  cases hsem : s.semaphores m with
  | none =>
    rw [hsem] at hm
    have hz : held s m = 0 := hm
    simp [hz]
  | some sem =>
    rw [hsem] at hm
    have hsum : sem.owned+held s m = sem.bound := hm.2
    have hb : (sem.bound : ℤ) = seqLimit c m := hm.1
    rw [Semaphore.owned] at hsum
    exact ⟨show (sem.value+sem.handed+held s m : ℤ) = _ by omega, le_max_of_le_left (by omega)⟩

/-- In every state that a run of admissions, timeouts, cancellations and
releases reaches, the permits of each model add up to its ceiling. No release
fails, a step that neither returns nor releases an admission leaves the
permits as they were, and other models' semaphores are untouched. -/
theorem permits_conserved (c : AdmissionController) (tier : VramTier) (ht : c.tier = some tier)
    (es : List Event) (os : List Outcome) (s : State)
    (hrun : run (step c) initial es = some (s, os)) :
    (∀ m, c.effectiveMaxNumSeqs m = some (freePermits c s m+handedPermits s m+held s m) ∧
      (held s m : ℤ) ≤ max (seqLimit c m) 0) ∧
    (∀ x, Outcome.releaseRaised x ∉ os) ∧
    ∀ e t o, step c s e = some (t, o) →
      (∀ x, o ≠ .releaseRaised x) ∧
      ((∀ result, o ≠ .returned result) → o ≠ .released → ∀ m,
        freePermits c t m+handedPermits t m = freePermits c s m+handedPermits s m) ∧
      ∀ m, e.model s ≠ some m → t.semaphores m = s.semaphores m := by
  obtain ⟨hb, hx⟩ := run_balanced c tier ht es os s hrun
  refine ⟨fun m => ?_, hx, fun e t o hs => ?_⟩
  · obtain ⟨hsum, hle⟩ := balanced_sum c s hb m
    exact ⟨by rw [effective_limit c tier ht, hsum], hle⟩
  · obtain ⟨hb', ho⟩ := step_balanced c tier ht s t e o hb hs
    refine ⟨ho, fun hret hrel m => ?_, fun m hm => ?_⟩
    · have hsame : held t m = held s m := by
        cases step_effect c s t e o hs with
        | quiet _ _ silent tracker outstanding => rw [held, outstanding, held]
        | admitted _ call ws result => exact absurd rfl (hret result)
        | released a _ found kind =>
          rcases kind with rfl | rfl
          · exact absurd rfl hrel
          · exact absurd rfl (ho _)
      have h1 := (balanced_sum c s hb m).1
      have h2 := (balanced_sum c t hb' m).1
      omega
    · obtain ⟨model, hmodel, hf⟩ := step_frame c s t e o hs
      refine hf.semaphores m ?_
      rintro rfl
      exact hm hmodel

/-- The second call finds the only slot lent, times out, and leaves it lent. -/
theorem permits_conserved_timeout : ∃ s os, run (step smallController) initial
      [.arrive (helloCall 0), .arrive (helloCall 1), .timeout 1, .resume 1] = some (s, os) ∧
    os.getLast? = some (.raised (noSlotFreed smallController (helloCall 1))) ∧
    smallController.effectiveMaxNumSeqs "m" =
      some (freePermits smallController s "m"+handedPermits s "m"+held s "m") := by
  have h : ((run (step smallController) initial [.arrive (helloCall 0), .arrive (helloCall 1),
      .timeout 1, .resume 1]).map fun x => x.2.getLast?) =
      some (some (.raised (noSlotFreed smallController (helloCall 1)))) := by decide +kernel
  obtain ⟨⟨s, os⟩, hrun, hos⟩ := Option.map_eq_some_iff.mp h
  exact ⟨s, os, hrun, hos, ((permits_conserved smallController smallTier rfl _ os s hrun).1 "m").1⟩

end InferenceX.PermitConservation
