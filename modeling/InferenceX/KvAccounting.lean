import InferenceX.AdmissionSteps

/-!
# The tracker counts what is reserved

For a model whose engine reports one capacity and counts no negative prompts,
the tracker is the sum of the outstanding reservations and stays within the
budget. Each commit and each release moves it by exactly its reservation, so
the floor at zero is never used.
-/

set_option autoImplicit false

namespace InferenceX.KvAccounting
open Library.SlotSemaphore Library.StepRuns
open InferenceX.PythonValues InferenceX.ChatSchema
open InferenceX.AdmissionGates InferenceX.AdmissionMachine InferenceX.AdmissionSteps

/-- Calls on `model` ask an engine of this capacity, which counts prompts as
non-negative numbers. Nothing is asked of the calls on other models. -/
def Metered (model : String) (capacity : ℤ) (call : Call) : Prop :=
  call.model = model → call.engine.kvCapacityTokens = some capacity ∧
    ∀ r n, call.engine.countPromptTokens r = .ok (some n) → 0 ≤ n

def MeteredEvent (model : String) (capacity : ℤ) : Event → Prop
  | .arrive call => Metered model capacity call
  | _ => True

def reservedSum (s : State) (model : String) : ℤ :=
  (s.outstanding.map fun a => if a.model = model then a.reserved else 0).sum

theorem promptTokens_nonneg (engine : BaseEngine) (r : ChatCompletionRequest) (prompt : ℤ)
    (ws : List ResponseWarning)
    (hcount : ∀ r n, engine.countPromptTokens r = .ok (some n) → 0 ≤ n)
    (h : promptTokens engine r = .ok (prompt, ws)) : 0 ≤ prompt := by
  rw [promptTokens] at h
  split at h
  · cases h
  · obtain ⟨rfl, -⟩ := Prod.mk.inj (Except.ok.inj h)
    exact hcount r _ ‹_›
  · obtain ⟨rfl, -⟩ := Prod.mk.inj (Except.ok.inj h)
    exact Int.natCast_nonneg _

/-- A reservation is not negative and fits the budget with what is reserved already. -/
theorem gates_fit (c : AdmissionController) (model : String) (r : ValidRequest)
    (engine : BaseEngine) (ws : List ResponseWarning) (reservedNow capacity : ℤ)
    (result : AdmissionResult) (hcap : engine.kvCapacityTokens = some capacity)
    (hcount : ∀ r n, engine.countPromptTokens r = .ok (some n) → 0 ≤ n)
    (h : gates c model r.val engine ws reservedNow = .ok result) :
    0 ≤ result.reservedTokens ∧
      (reservedNow+result.reservedTokens : ℚ) ≤ capacity*c.kvSafetyMargin := by
  obtain ⟨prompt, est, hp, fitted, cl, hc, granted, low, hk, rfl⟩ :=
    (gates_ok_iff c model r.val engine ws reservedNow result).mp h
  rw [hcap] at hk
  have hprompt := promptTokens_nonneg engine r.val prompt est hcount hp
  have hreq := (requestedOutput_bounds r).1
  obtain ⟨-, hfit⟩ := contextGate_ok c model r.val prompt fitted cl hc
  obtain ⟨hbudget, hgrant⟩ := kvGate_ok c model r.val capacity reservedNow prompt fitted granted
    low hk
  simp only [minClampedOutputTokens] at hfit hgrant
  refine ⟨show 0 ≤ prompt+granted by omega, ?_⟩
  push_cast
  linarith

theorem reservedSum_erase (xs : List Admission) (a : Admission) (model : String)
    (h : xs.find? (fun x => x.id = a.id) = some a) :
    ((xs.eraseP fun x => x.id = a.id).map fun x =>
        if x.model = model then x.reserved else 0).sum+
      (if a.model = model then a.reserved else 0) =
    (xs.map fun x => if x.model = model then x.reserved else 0).sum := by
  have hperm := (find_erase_perm _ xs a h).map fun x => if x.model = model then x.reserved else 0
  rw [← hperm.sum_eq, List.map_cons, List.sum_cons, add_comm]

theorem reservedSum_nonneg (s : State) (model : String)
    (h : ∀ a ∈ s.outstanding, a.model = model → 0 ≤ a.reserved) : 0 ≤ reservedSum s model := by
  refine List.sum_nonneg fun x hx => ?_
  obtain ⟨a, ha, rfl⟩ := List.mem_map.mp hx
  split_ifs with hm
  · exact h a ha hm
  · exact le_refl 0

structure Accounted (c : AdmissionController) (model : String) (capacity : ℤ) (s : State) :
    Prop where
  calls : ∀ w ∈ s.waiting, Metered model capacity w.call
  reserved : ∀ a ∈ s.outstanding, a.model = model → 0 ≤ a.reserved
  sum : (s.tracker model : ℤ) = reservedSum s model
  budget : ((s.tracker model : ℤ) : ℚ) ≤ capacity*c.kvSafetyMargin

def delta (s : State) (model : String) : Event → Outcome → ℤ
  | .release id, _ =>
    match s.findOutstanding id with
    | some a => if a.model = model then -a.reserved else 0
    | none => 0
  | e, .returned result => if e.model s = some model then result.reservedTokens else 0
  | _, _ => 0

section Model
variable (c : AdmissionController) (model : String) (capacity : ℤ)

theorem accounted_initial (hcap : 0 ≤ capacity) (hmargin : 0 ≤ c.kvSafetyMargin) :
    Accounted c model capacity initial where
  calls := by simp [initial]
  reserved := by simp [initial]
  sum := rfl
  budget := by
    have : (0 : ℚ) ≤ capacity*c.kvSafetyMargin := mul_nonneg (by exact_mod_cast hcap) hmargin
    simpa [initial] using this

theorem step_calls (s t : State) (e : Event) (o : Outcome)
    (h : Accounted c model capacity s) (he : MeteredEvent model capacity e)
    (hstep : step c s e = some (t, o)) : ∀ w ∈ t.waiting, Metered model capacity w.call := by
  intro w hw
  rcases step_waiting c s t e o hstep w hw with ⟨v, hv, hvw⟩ | rfl
  · exact hvw ▸ h.calls v hv
  · exact he

theorem delta_quiet (s t : State) (e : Event) (o : Outcome) (hstep : step c s e = some (t, o))
    (silent : o = .suspended ∨ o = .signalled ∨ ∃ x, o = .raised x) : delta s model e o = 0 := by
  cases e with
  | release id =>
    cases step_stepped c s t _ o hstep with
    | release a t o found hrel =>
      rcases release_cases _ t a.model a.reserved o hrel with ⟨-, -, rfl⟩ | ⟨-, rfl⟩ <;>
        simp at silent
  | _ => rcases silent with rfl | rfl | ⟨x, rfl⟩ <;> rfl

/-- A commit adds its reservation, which fits what is left of the budget. -/
theorem commit_accounted (s t : State) (call : Call) (ws : List ResponseWarning)
    (result : AdmissionResult) (h : Accounted c model capacity s)
    (hcall : Metered model capacity call) (hcalls : ∀ w ∈ t.waiting, Metered model capacity w.call)
    (gate : gates c call.model call.request.val call.engine ws (s.tracker call.model) = .ok result)
    (tracker : t.tracker = s.tracker.add call.model result.reservedTokens)
    (outstanding : t.outstanding = ⟨call.id, call.model, result.reservedTokens⟩::s.outstanding) :
    Accounted c model capacity t ∧ (t.tracker model : ℤ) =
      s.tracker model+if call.model = model then result.reservedTokens else 0 := by
  have hnow := reservedSum_nonneg s model h.reserved
  have hsum : reservedSum t model = reservedSum s model+
      if call.model = model then result.reservedTokens else 0 := by
    rw [reservedSum, outstanding, List.map_cons, List.sum_cons, add_comm]
    rfl
  by_cases hm : call.model = model
  · obtain ⟨hcap, hcount⟩ := hcall hm
    obtain ⟨hres, hfit⟩ := gates_fit c call.model call.request call.engine ws _ capacity result
      hcap hcount gate
    have hadd : (t.tracker model : ℤ) = s.tracker model+result.reservedTokens := by
      rw [tracker, hm, add_same, max_eq_right (by rw [h.sum]; omega)]
    rw [if_pos hm] at hsum ⊢
    refine ⟨⟨hcalls, ?_, by rw [hadd, hsum, h.sum], ?_⟩, hadd⟩
    · intro a ha hamodel
      rw [outstanding] at ha
      rcases List.mem_cons.mp ha with rfl | ha
      · exact hres
      · exact h.reserved a ha hamodel
    · rw [hadd, ← hm]
      push_cast
      exact hfit
  · have hadd : t.tracker model = s.tracker model := by
      rw [tracker, add_other _ _ _ _ (Ne.symm hm)]
    rw [if_neg hm, add_zero] at hsum ⊢
    refine ⟨⟨hcalls, ?_, by rw [hadd, hsum, h.sum], by rw [hadd]; exact h.budget⟩,
      by rw [hadd]⟩
    intro a ha hamodel
    rw [outstanding] at ha
    rcases List.mem_cons.mp ha with rfl | ha
    · exact absurd hamodel hm
    · exact h.reserved a ha hamodel

theorem release_accounted (s t : State) (a : Admission) (h : Accounted c model capacity s)
    (hcalls : ∀ w ∈ t.waiting, Metered model capacity w.call)
    (found : s.findOutstanding a.id = some a)
    (tracker : t.tracker = s.tracker.add a.model (-a.reserved))
    (outstanding : t.outstanding = s.outstanding.eraseP fun x => x.id = a.id) :
    Accounted c model capacity t ∧ (t.tracker model : ℤ) =
      s.tracker model+if a.model = model then -a.reserved else 0 := by
  have hrest : ∀ x ∈ t.outstanding, x.model = model → 0 ≤ x.reserved := by
    intro x hx
    rw [outstanding] at hx
    exact h.reserved x (List.mem_of_mem_eraseP hx)
  have hleft := reservedSum_nonneg t model hrest
  have hsum := reservedSum_erase s.outstanding a model found
  rw [← outstanding] at hsum
  change reservedSum t model+_ = reservedSum s model at hsum
  by_cases hm : a.model = model
  · have hres := h.reserved a (findOutstanding_some s _ a found).1 hm
    rw [if_pos hm] at hsum ⊢
    have hadd : (t.tracker model : ℤ) = s.tracker model+-a.reserved := by
      rw [tracker, hm, add_same, max_eq_right (by rw [h.sum]; omega)]
    refine ⟨⟨hcalls, hrest, by rw [hadd, h.sum]; omega, ?_⟩, hadd⟩
    have hbudget := h.budget
    have hres' : (0 : ℚ) ≤ a.reserved := by exact_mod_cast hres
    rw [hadd]
    push_cast at hbudget ⊢
    linarith
  · rw [if_neg hm, add_zero] at hsum ⊢
    have hadd : t.tracker model = s.tracker model := by
      rw [tracker, add_other _ _ _ _ (Ne.symm hm)]
    exact ⟨⟨hcalls, hrest, by rw [hadd, h.sum, hsum], by rw [hadd]; exact h.budget⟩,
      by rw [hadd]⟩

/-- One step keeps the account, and the floor at zero leaves its change as it is. -/
theorem step_accounted (s t : State) (e : Event) (o : Outcome)
    (h : Accounted c model capacity s) (he : MeteredEvent model capacity e)
    (hstep : step c s e = some (t, o)) :
    Accounted c model capacity t ∧
      (t.tracker model : ℤ) = s.tracker model+delta s model e o := by
  have hcalls := step_calls c model capacity s t e o h he hstep
  cases step_effect c s t e o hstep with
  | quiet _ _ silent tracker outstanding =>
    refine ⟨⟨hcalls, outstanding ▸ h.reserved, ?_, tracker ▸ h.budget⟩, ?_⟩
    · rw [tracker, reservedSum, outstanding]
      exact h.sum
    · rw [tracker, delta_quiet c model s t e o hstep silent, add_zero]
  | admitted _ call ws result origin early gate tracker outstanding =>
    have hdelta : delta s model e (.returned result) =
        if call.model = model then result.reservedTokens else 0 := by
      rcases origin with rfl | ⟨w, hw, rfl, rfl⟩
      · simp [delta, Event.model]
      · simp [delta, Event.model, hw]
    have hcall : Metered model capacity call := by
      rcases origin with rfl | ⟨w, hw, rfl, rfl⟩
      · exact he
      · exact h.calls w (findWaiting_some s _ w hw).1
    rw [hdelta]
    exact commit_accounted c model capacity s t call ws result h hcall hcalls gate tracker
      outstanding
  | released a _ found kind tracker outstanding =>
    have hdelta : delta s model (.release a.id) o = if a.model = model then -a.reserved else 0 := by
      simp [delta, found]
    rw [hdelta]
    exact release_accounted c model capacity s t a h hcalls found tracker outstanding

theorem run_accounted (es : List Event) (os : List Outcome) (s : State) (hcap : 0 ≤ capacity)
    (hmargin : 0 ≤ c.kvSafetyMargin) (hes : ∀ e ∈ es, MeteredEvent model capacity e)
    (hrun : run (step c) initial es = some (s, os)) : Accounted c model capacity s :=
  run_preserves (MeteredEvent model capacity) (Accounted c model capacity)
    (fun s e t o he h hs => (step_accounted c model capacity s t e o h he hs).1)
    initial s es os hes (accounted_initial c model capacity hcap hmargin) hrun

end Model

/-- After any run the tracker of a metered model is the sum of its outstanding
reservations and within its budget. Each step adds its own reservation to it
or takes it away exactly, and a step on another model leaves it alone. -/
theorem kv_accounting (c : AdmissionController) (model : String) (capacity : ℤ)
    (hcap : 0 ≤ capacity) (hmargin : 0 ≤ c.kvSafetyMargin) (es : List Event)
    (hes : ∀ e ∈ es, MeteredEvent model capacity e) (os : List Outcome) (s : State)
    (hrun : run (step c) initial es = some (s, os)) :
    (s.tracker model : ℤ) = reservedSum s model ∧
    (s.tracker model : ℚ) ≤ capacity*c.kvSafetyMargin ∧
    ∀ e t o, MeteredEvent model capacity e → step c s e = some (t, o) →
      0 ≤ s.tracker model+delta s model e o ∧
      (t.tracker model : ℤ) = s.tracker model+delta s model e o ∧
      ∀ other, e.model s ≠ some other → t.tracker other = s.tracker other := by
  have h := run_accounted c model capacity es os s hcap hmargin hes hrun
  refine ⟨h.sum, by exact_mod_cast h.budget, fun e t o he hs => ?_⟩
  obtain ⟨ht, hadd⟩ := step_accounted c model capacity s t e o h he hs
  refine ⟨?_, hadd, fun other hother => ?_⟩
  · rw [← hadd, ht.sum]
    exact reservedSum_nonneg t model ht.reserved
  · obtain ⟨m, hm, hf⟩ := step_frame c s t e o hs
    refine hf.tracker other ?_
    rintro rfl
    exact hother hm

/-- One admission of 110 tokens, a second one clamped to the rest of the
budget of 180, and the release of the first. -/
theorem kv_accounting_clamped :
    ∃ s os, run (step { smallController with tier := none }) initial
      [.arrive ⟨0, "m", helloRequest, countingEngine 10 (some 200)⟩,
        .arrive ⟨1, "m", helloRequest, countingEngine 10 (some 200)⟩, .release 0] = some (s, os) ∧
    s.tracker "m" = 70 ∧ (s.tracker "m" : ℤ) = reservedSum s "m" := by
  have h : (run (step { smallController with tier := none }) initial
      [.arrive ⟨0, "m", helloRequest, countingEngine 10 (some 200)⟩,
        .arrive ⟨1, "m", helloRequest, countingEngine 10 (some 200)⟩, .release 0]).map
      (fun x => x.1.tracker "m") = some 70 := by decide +kernel
  obtain ⟨⟨s, os⟩, hrun, hs⟩ := Option.map_eq_some_iff.mp h
  have hmeter (id : ℕ) : Metered "m" 200 ⟨id, "m", helloRequest, countingEngine 10 (some 200)⟩ := by
    refine fun _ => ⟨rfl, fun r n hn => ?_⟩
    obtain rfl := Option.some.inj (Except.ok.inj hn)
    decide
  refine ⟨s, os, hrun, hs, (kv_accounting _ "m" 200 (by decide) (by decide +kernel) _ ?_ os s
    hrun).1⟩
  intro e he
  simp only [List.mem_cons, List.not_mem_nil, or_false] at he
  rcases he with rfl | rfl | rfl
  · exact hmeter 0
  · exact hmeter 1
  · trivial

end InferenceX.KvAccounting
