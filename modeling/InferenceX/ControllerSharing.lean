import InferenceX.KvAccounting
import InferenceX.Library.CallCache
import InferenceX.PermitConservation

/-!
# One controller for all requests

Startup builds the registry, the router and the pool, but not the admission
controller: that is left to the first requests, whose dependencies are resolved
on threads of their own. Every controller counts only what it admitted, so what
a model has in flight is bounded by its limit for each controller there is.
-/

set_option autoImplicit false

namespace InferenceX.ControllerSharing
open Library Library.StepRuns
open InferenceX.AdmissionGates InferenceX.AdmissionMachine InferenceX.AdmissionSteps
open InferenceX.PermitConservation InferenceX.KvAccounting

/-- The cache of `_build_admission_controller`, and the controllers by number. -/
structure App where
  cache : CallCache.Cache ℕ
  controllers : ℕ → State

def started : App := ⟨CallCache.empty, fun _ => initial⟩

/-- `get_chat_service` works towards a controller for a request, or the
controller of a request takes a step. -/
inductive AppEvent where
  | resolve (e : CallCache.Event ℕ)
  | admission (k : ℕ) (e : Event)

def admissible (s : App) (k : ℕ) : Event → Bool
  | .arrive call => decide ((call.id, k) ∈ s.cache.given)
  | _ => true

def App.advance (s : App) (k : ℕ) (t : State) : App :=
  { s with controllers := Function.update s.controllers k t }

@[simp] theorem advance_same (s : App) (k : ℕ) (t : State) : (s.advance k t).controllers k = t :=
  Function.update_self _ _ _

theorem advance_other (s : App) (j k : ℕ) (t : State) (h : j ≠ k) :
    (s.advance k t).controllers j = s.controllers j :=
  Function.update_of_ne h _ _

def appStep (c : AdmissionController) (s : App) : AppEvent → Option (App × Option Outcome)
  | .resolve e => (CallCache.step s.cache e).map fun p => ({ s with cache := p.1 }, none)
  | .admission k e =>
    if admissible s k e then
      (step c (s.controllers k) e).map fun p => (s.advance k p.1, some p.2)
    else none

def AppEvent.resolution : AppEvent → Option (CallCache.Event ℕ)
  | .resolve e => some e
  | .admission _ _ => none

def resolutions (es : List AppEvent) : List (CallCache.Event ℕ) :=
  es.filterMap AppEvent.resolution

def AppEvent.admissionOf (k : ℕ) : AppEvent → Option Event
  | .resolve _ => none
  | .admission j e => if j = k then some e else none

def admissionsOf (k : ℕ) (es : List AppEvent) : List Event :=
  es.filterMap (AppEvent.admissionOf k)

structure Separate (c : AdmissionController) (es : List AppEvent) (s : App) : Prop where
  sound : CallCache.Sound (resolutions es) s.cache
  unmade : ∀ k, s.cache.made ≤ k → s.controllers k = initial
  arrivals : ∀ k call, .arrive call ∈ admissionsOf k es → (call.id, k) ∈ s.cache.given
  runs : ∀ k, ∃ os, run (step c) initial (admissionsOf k es) = some (s.controllers k, os)

theorem initial_arrives (c : AdmissionController) (e : Event) (p : State × Outcome)
    (h : step c initial e = some p) : ∃ call, e = .arrive call := by
  cases e with
  | arrive call => exact ⟨call, rfl⟩
  | _ => simp [step, State.findWaiting, State.findOutstanding, initial] at h

section Steps
variable (c : AdmissionController) (es : List AppEvent) (s : App) (h : Separate c es s)
include h

theorem separate_resolve (e : CallCache.Event ℕ) (cache : CallCache.Cache ℕ)
    (o : CallCache.Outcome) (hstep : CallCache.step s.cache e = some (cache, o)) :
    Separate c (es++[.resolve e]) { s with cache := cache } := by
  have hsound := CallCache.step_sound _ _ _ e o h.sound hstep
  have hres : resolutions (es++[.resolve e]) = resolutions es++[e] := by
    simp [resolutions, AppEvent.resolution]
  have hsame : ∀ k, admissionsOf k (es++[.resolve e]) = admissionsOf k es := by
    simp [admissionsOf, AppEvent.admissionOf]
  refine ⟨hres ▸ hsound, fun k hk => h.unmade k ?_, fun k call hcall => ?_, fun k => ?_⟩
  · exact (CallCache.step_made _ _ e o hstep).trans hk
  · rw [hsame] at hcall
    exact CallCache.step_given _ _ e o hstep _ (h.arrivals k call hcall)
  · rw [hsame]
    exact h.runs k

theorem separate_admission (k : ℕ) (e : Event) (t : State) (o : Outcome)
    (ha : admissible s k e = true) (hstep : step c (s.controllers k) e = some (t, o)) :
    Separate c (es++[.admission k e]) (s.advance k t) := by
  have hres : resolutions (es++[.admission k e]) = resolutions es := by
    simp [resolutions, AppEvent.resolution]
  have hmore : admissionsOf k (es++[.admission k e]) = admissionsOf k es++[e] := by
    simp [admissionsOf, AppEvent.admissionOf]
  have hsame : ∀ j, j ≠ k → admissionsOf j (es++[.admission k e]) = admissionsOf j es := by
    intro j hj
    simp [admissionsOf, AppEvent.admissionOf, Ne.symm hj]
  refine ⟨hres ▸ h.sound, fun j hj => ?_, fun j call hcall => ?_, fun j => ?_⟩
  · have hmade : k < s.cache.made := by
      by_contra hk
      rw [h.unmade k (not_lt.mp hk)] at hstep
      obtain ⟨call, rfl⟩ := initial_arrives c e _ hstep
      exact hk (h.sound.given _ (of_decide_eq_true ha))
    have hne : j ≠ k := by
      rintro rfl
      exact absurd hmade (not_lt.mpr hj)
    rw [advance_other s j k t hne]
    exact h.unmade j hj
  · by_cases hj : j = k
    · subst hj
      rw [hmore] at hcall
      rcases List.mem_append.mp hcall with hcall | hcall
      · exact h.arrivals j call hcall
      · obtain rfl := List.mem_singleton.mp hcall
        exact of_decide_eq_true ha
    · rw [hsame j hj] at hcall
      exact h.arrivals j call hcall
  · obtain ⟨os, hrun⟩ := h.runs j
    by_cases hj : j = k
    · subst hj
      have hlast : run (step c) (s.controllers j) [e] = some (t, [o]) := by
        simp [run, hstep]
      rw [hmore, advance_same]
      exact ⟨_, run_append _ _ _ _ _ _ _ hrun hlast⟩
    · rw [hsame j hj, advance_other s j k t hj]
      exact ⟨os, hrun⟩

end Steps

theorem appStep_separate (c : AdmissionController) (es : List AppEvent) (s t : App)
    (e : AppEvent) (o : Option Outcome) (h : Separate c es s)
    (hstep : appStep c s e = some (t, o)) : Separate c (es++[e]) t := by
  cases e with
  | resolve e =>
    obtain ⟨⟨cache, p⟩, hcache, heq⟩ := Option.map_eq_some_iff.mp hstep
    obtain ⟨rfl, -⟩ := Prod.mk.inj heq
    exact separate_resolve c es s h e cache p hcache
  | admission k e =>
    simp only [appStep] at hstep
    split_ifs at hstep with ha
    obtain ⟨⟨u, p⟩, hu, heq⟩ := Option.map_eq_some_iff.mp hstep
    obtain ⟨rfl, -⟩ := Prod.mk.inj heq
    exact separate_admission c es s h k e u p ha hu

theorem run_separate (c : AdmissionController) (es : List AppEvent) (os : List (Option Outcome))
    (s : App) (h : run (appStep c) started es = some (s, os)) : Separate c es s := by
  refine run_history (fun es _ s => Separate c es s) ?_ started s es os ?_ h
  · intro es _ s e t o hs hstep
    exact appStep_separate c es s t e o hs hstep
  · exact ⟨CallCache.empty_sound, fun _ _ => rfl, fun _ _ h => absurd h List.not_mem_nil,
      fun _ => ⟨[], rfl⟩⟩

def present (s : State) : List ℕ :=
  s.waiting.map (fun w => w.call.id)++s.outstanding.map Admission.id

theorem present_congr (s t : State) (hw : t.waiting = s.waiting)
    (ho : t.outstanding = s.outstanding) : present t = present s := by
  rw [present, present, hw, ho]

/-- From a state with the same calls, the call at hand may come in. -/
theorem present_slotEnd {c : AdmissionController} {s u t : State} {call : Call} {slot : Bool}
    {ws : List ChatSchema.ResponseWarning} {o : Outcome} (h : SlotEnd c u call slot ws t o)
    (hu : present u = present s) : (present t).Subperm (call.id::present s) := by
  have hkept : (present u).Subperm (call.id::present s) := by
    rw [hu]
    exact (List.sublist_cons_self _ _).subperm
  cases h with
  | commit result gate =>
    rw [← hu]
    exact List.perm_middle.subperm
  | reject e t gate back =>
    split_ifs at back
    · obtain ⟨-, ho, hw, -⟩ := releasePermit_fields u t call.model back
      rwa [present_congr u t hw ho]
    · obtain rfl := Option.some.inj back
      exact hkept
  | broken back => exact hkept

theorem present_leave (s : State) (w : WaitingCall) (h : s.findWaiting w.call.id = some w) :
    (w.call.id::present (s.leave w.call.id)).Perm (present s) := by
  have hperm := Library.SlotSemaphore.find_erase_perm _ _ _ h
  exact (hperm.map fun v => v.call.id).append_right _

/-- A step brings no call but the one that arrives, and none twice. -/
theorem step_present (c : AdmissionController) (s t : State) (e : Event) (o : Outcome)
    (h : step c s e = some (t, o)) :
    (present t).Subperm (present s) ∨ ∃ call, e = .arrive call ∧ s.live call.id = false ∧
      (present t).Subperm (call.id::present s) := by
  cases step_stepped c s t e o h with
  | arrive call t o fresh h =>
    refine Or.inr ⟨call, rfl, fresh, ?_⟩
    rcases admit_cases c s t call o h with ⟨-, hs⟩ | ⟨limit, -, he⟩
    · exact present_slotEnd hs rfl
    · cases he with
      | refused x => exact (List.sublist_cons_self _ _).subperm
      | expired u sem got =>
        obtain ⟨-, ho, hw, -⟩ := getSemaphore_fields s u _ _ sem got
        simp [present, State.wait, ho, hw, List.Subperm.refl]
      | queued u sem got =>
        obtain ⟨-, ho, hw, -⟩ := getSemaphore_fields s u _ _ sem got
        simp [present, State.wait, ho, hw, List.Subperm.refl]
      | served u t sem o got free rest =>
        obtain ⟨-, ho, hw, -⟩ := getSemaphore_fields s u _ _ sem got
        exact present_slotEnd rest (present_congr s _ (by simp [hw]) (by simp [ho]))
  | timeout w found =>
    refine Or.inl (List.Perm.subperm (List.Perm.of_eq ?_))
    simp only [present, State.signal, List.map_map]
    congr 2
    funext v
    simp only [Function.comp]
    split_ifs <;> rfl
  | cancel w found =>
    refine Or.inl (List.Perm.subperm (List.Perm.of_eq ?_))
    simp only [present, State.signal, List.map_map]
    congr 2
    funext v
    simp only [Function.comp]
    split_ifs <;> rfl
  | resume w t o found h =>
    have hleave := present_leave s w found
    have hless := (List.sublist_cons_self w.call.id (present (s.leave w.call.id))).subperm
    left
    cases resume_cases c s t w o h with
    | expired =>
      rw [present_congr (s.leave w.call.id) _ (by simp) (by simp)]
      exact hless.trans hleave.subperm
    | interrupted sem sem' got back =>
      rw [present_congr (s.leave w.call.id) _ (by simp) (by simp)]
      exact hless.trans hleave.subperm
    | served sem sem' t o got back rest =>
      have hu := present_slotEnd rest (present_congr (s.leave w.call.id) _ (by simp) (by simp))
      exact hu.trans hleave.subperm
  | release a t o found h =>
    have hsettled : (present (s.settle a.id)).Subperm (present s) :=
      (List.Sublist.append_left (List.eraseP_sublist.map _) _).subperm
    left
    rcases release_cases _ t a.model a.reserved o h with ⟨rfl, -, -⟩ | ⟨hr, -⟩
    · exact hsettled
    · obtain ⟨-, ho, hw, -⟩ := releasePermit_fields _ _ a.model hr
      rw [present_congr (s.settle a.id) t (by rw [hw]; rfl) (by rw [ho]; rfl)]
      exact hsettled

theorem live_present (s : State) (id : ℕ) (h : s.live id = false) : id ∉ present s := by
  rw [State.live, Bool.or_eq_false_iff, List.any_eq_false, List.any_eq_false] at h
  intro hid
  rcases List.mem_append.mp hid with hid | hid
  · obtain ⟨w, hw, rfl⟩ := List.mem_map.mp hid
    exact h.1 w hw (decide_eq_true rfl)
  · obtain ⟨a, ha, rfl⟩ := List.mem_map.mp hid
    exact h.2 a ha (decide_eq_true rfl)

def Lone (i : ℕ) (s : State) : Prop := (present s).Subperm [i]

theorem step_lone (c : AdmissionController) (i : ℕ) (s t : State) (e : Event) (o : Outcome)
    (he : ∀ call, e = .arrive call → call.id = i) (h : Lone i s)
    (hstep : step c s e = some (t, o)) : Lone i t := by
  rcases step_present c s t e o hstep with hless | ⟨call, rfl, hfresh, hmore⟩
  · exact hless.trans h
  · obtain rfl := he call rfl
    have hnone : present s = [] := by
      refine List.eq_nil_iff_forall_not_mem.mpr fun id hid => ?_
      obtain rfl := List.mem_singleton.mp (h.subset hid)
      exact live_present s call.id hfresh hid
    rwa [hnone] at hmore

theorem lone_held (i : ℕ) (s : State) (m : String) (h : Lone i s) : held s m ≤ 1 := by
  have hlen := h.length_le
  rw [present, List.length_append, List.length_map, List.length_map, List.length_singleton] at hlen
  have hcount : held s m ≤ s.outstanding.length := List.countP_le_length
  omega

/-- A controller that is not kept serves the one request that made it. -/
theorem lone_controller (c : AdmissionController) (es : List AppEvent) (s : App)
    (h : Separate c es s) (k : ℕ) (hk : k ≠ 0) : ∃ i, Lone i (s.controllers k) := by
  obtain ⟨os, hrun⟩ := h.runs k
  have howner : ∃ i, ∀ e ∈ admissionsOf k es, ∀ call, e = .arrive call → call.id = i := by
    by_cases hgiven : ∃ i, (i, k) ∈ s.cache.given
    · obtain ⟨i, hi⟩ := hgiven
      refine ⟨i, fun e he call hcall => ?_⟩
      subst hcall
      exact congrArg Prod.fst (h.sound.own _ (h.arrivals k call he) _ hi rfl hk)
    · refine ⟨0, fun e he call hcall => ?_⟩
      subst hcall
      exact absurd ⟨call.id, h.arrivals k call he⟩ hgiven
  obtain ⟨i, hi⟩ := howner
  refine ⟨i, run_preserves (fun e => ∀ call, e = .arrive call → call.id = i) (Lone i) ?_ initial
    _ _ os hi List.nil_subperm hrun⟩
  intro s e t o he hs hstep
  exact step_lone c i s t e o he hs hstep

open Finset in
def inFlight (s : App) (m : String) : ℕ := ∑ k ∈ range s.cache.made, held (s.controllers k) m

open Finset in
def reservedTokens (s : App) (m : String) : ℕ :=
  ∑ k ∈ range s.cache.made, (s.controllers k).tracker m

section Bounds
variable (c : AdmissionController) (es : List AppEvent) (s : App) (h : Separate c es s)
include h

theorem inFlight_le (tier : ModelRegistry.VramTier) (ht : c.tier = some tier) (m : String) :
    (inFlight s m : ℤ) ≤ max (seqLimit c m) 0+(s.cache.made-1 : ℕ) := by
  rw [inFlight]
  cases hmade : s.cache.made with
  | zero => simp
  | succ n =>
    obtain ⟨outs, hrun⟩ := h.runs 0
    have hfirst := (balanced_sum c _ (run_balanced c tier ht _ outs _ hrun).1 m).2
    have hothers : ∑ k ∈ Finset.range n, held (s.controllers (k+1)) m ≤ n := by
      have heach : ∀ k ∈ Finset.range n, held (s.controllers (k+1)) m ≤ 1 := by
        intro k _
        obtain ⟨i, hi⟩ := lone_controller c es s h (k+1) (Nat.succ_ne_zero k)
        exact lone_held i _ m hi
      simpa using Finset.sum_le_card_nsmul _ _ _ heach
    rw [Finset.sum_range_succ', Nat.add_sub_cancel]
    push_cast at hothers ⊢
    have hcast : ((∑ k ∈ Finset.range n, held (s.controllers (k+1)) m : ℕ) : ℤ) ≤ n := by
      exact_mod_cast hothers
    push_cast at hcast
    linarith

theorem reservedTokens_le (m : String) (capacity : ℤ) (hcap : 0 ≤ capacity)
    (hmargin : 0 ≤ c.kvSafetyMargin)
    (hes : ∀ k e, .admission k e ∈ es → MeteredEvent m capacity e) :
    (reservedTokens s m : ℚ) ≤ s.cache.made*(capacity*c.kvSafetyMargin) := by
  have heach : ∀ k ∈ Finset.range s.cache.made,
      ((s.controllers k).tracker m : ℚ) ≤ capacity*c.kvSafetyMargin := by
    intro k _
    obtain ⟨outs, hrun⟩ := h.runs k
    refine (run_accounted c m capacity _ outs _ hcap hmargin ?_ hrun).budget
    intro e he
    obtain ⟨f, hf, hfe⟩ := List.mem_filterMap.mp he
    cases f with
    | resolve f => cases hfe
    | admission j f =>
      simp only [AppEvent.admissionOf] at hfe
      split_ifs at hfe
      obtain rfl := Option.some.inj hfe
      exact hes j f hf
  have hsum := Finset.sum_le_card_nsmul _ _ _ heach
  rw [Finset.card_range, nsmul_eq_mul] at hsum
  rw [reservedTokens, Nat.cast_sum]
  exact hsum

end Bounds

/-- In every run of overlapping resolutions and admissions there are no more
controllers than requests that came before the first was there. A model then
has its limit in flight and one request for each controller more, and the
tokens reserved are within the capacity for each. -/
theorem controllers_shared (c : AdmissionController) (tier : ModelRegistry.VramTier)
    (ht : c.tier = some tier) (es : List AppEvent) (os : List (Option Outcome)) (s : App)
    (h : run (appStep c) started es = some (s, os)) :
    s.cache.made ≤ CallCache.overlapping (resolutions es) ∧
    (∀ k, s.cache.made ≤ k → s.controllers k = initial) ∧
    (∀ m, (inFlight s m : ℤ) ≤ max (seqLimit c m) 0+(s.cache.made-1 : ℕ)) ∧
    ∀ m (capacity : ℤ), 0 ≤ capacity → 0 ≤ c.kvSafetyMargin →
      (∀ k e, .admission k e ∈ es → MeteredEvent m capacity e) →
      (reservedTokens s m : ℚ) ≤ s.cache.made*(capacity*c.kvSafetyMargin) := by
  have hsep := run_separate c es os s h
  have hbound := hsep.sound.bound
  exact ⟨by omega, hsep.unmade, inFlight_le c es s hsep tier ht, reservedTokens_le c es s hsep⟩

/-- Two requests overlap, and the second is through first. -/
theorem controllers_shared_two : ∃ s os,
    run (appStep smallController) started [.resolve (.call 0), .resolve (.call 1),
      .resolve (.returned 1), .resolve (.returned 0), .admission 0 (.arrive (helloCall 1)),
      .admission 1 (.arrive (helloCall 0))] = some (s, os) ∧
    s.cache.made = 2 ∧ (inFlight s "m" : ℤ) ≤ 2 := by
  have hrun : ∃ s os, run (appStep smallController) started [.resolve (.call 0),
      .resolve (.call 1), .resolve (.returned 1), .resolve (.returned 0),
      .admission 0 (.arrive (helloCall 1)), .admission 1 (.arrive (helloCall 0))] = some (s, os) ∧
      s.cache.made = 2 := ⟨_, _, rfl, rfl⟩
  obtain ⟨s, os, hrun, hmade⟩ := hrun
  have hle := (controllers_shared smallController smallTier rfl _ os s hrun).2.2.1 "m"
  rw [hmade] at hle
  exact ⟨s, os, hrun, hmade, hle⟩

theorem run_resolve (c : AdmissionController) (s : App) (t : CallCache.Cache ℕ)
    (es : List (CallCache.Event ℕ)) (os : List CallCache.Outcome)
    (h : run CallCache.step s.cache es = some (t, os)) :
    ∃ ps, run (appStep c) s (es.map .resolve) = some ({ s with cache := t }, ps) := by
  induction es generalizing s os with
  | nil =>
    obtain ⟨rfl, -⟩ := step_inj h
    exact ⟨[], rfl⟩
  | cons e es ih =>
    obtain ⟨u, o, os', hu, ht, rfl⟩ := (run_cons_iff _ _ _ _ _).mp h
    obtain ⟨ps, hps⟩ := ih { s with cache := u } os' ht
    have hstep : appStep c s (.resolve e) = some ({ s with cache := u }, none) := by
      simp [appStep, hu]
    exact ⟨none::ps, (run_cons_iff _ _ _ _ _).mpr ⟨_, _, ps, hstep, hps, rfl⟩⟩

theorem run_admission (c : AdmissionController) (k : ℕ) (s : App) (t : State) (es : List Event)
    (os : List Outcome) (hes : ∀ call, .arrive call ∈ es → (call.id, k) ∈ s.cache.given)
    (h : run (step c) (s.controllers k) es = some (t, os)) :
    ∃ ps, run (appStep c) s (es.map (.admission k)) = some (s.advance k t, ps) := by
  induction es generalizing s os with
  | nil =>
    obtain ⟨rfl, -⟩ := step_inj h
    refine ⟨[], ?_⟩
    rw [App.advance, Function.update_eq_self]
    rfl
  | cons e es ih =>
    obtain ⟨u, o, os', hu, ht, rfl⟩ := (run_cons_iff _ _ _ _ _).mp h
    have hadmissible : admissible s k e = true := by
      cases e with
      | arrive call => exact decide_eq_true (hes call (by simp))
      | _ => rfl
    have hrest : run (step c) ((s.advance k u).controllers k) es = some (t, os') := by
      rwa [advance_same]
    obtain ⟨ps, hps⟩ := ih (s.advance k u) os' (fun call hc => hes call (by simp [hc])) hrest
    have hstep : appStep c s (.admission k e) = some (s.advance k u, some o) := by
      simp [appStep, hadmissible, hu]
    have hagain : (s.advance k u).advance k t = s.advance k t := by
      simp [App.advance, Function.update_idem]
    rw [hagain] at hps
    exact ⟨some o::ps, (run_cons_iff _ _ _ _ _).mpr ⟨_, _, ps, hstep, hps, rfl⟩⟩

section Raced
variable (c : AdmissionController) (m : String) (call : ℕ → Call) (hid : ∀ i, (call i).id = i)
  (limit : ℕ) (hserves : ∀ ids : List ℕ, ids.Nodup → ids.length ≤ limit →
    ∃ t os, run (step c) initial (ids.map fun i => .arrive (call i)) = some (t, os) ∧
      held t m = ids.length)
include hid hserves

/-- A controller that has served no one serves requests that were given it. -/
theorem serve (s : App) (k : ℕ) (hk : s.controllers k = initial) (ids : List ℕ)
    (hn : ids.Nodup) (hlen : ids.length ≤ limit) (hgiven : ∀ i ∈ ids, (i, k) ∈ s.cache.given) :
    ∃ es os t, run (appStep c) s es = some (s.advance k t, os) ∧ held t m = ids.length := by
  obtain ⟨t, os, hrun, hheld⟩ := hserves ids hn hlen
  have hcalls : ∀ x, Event.arrive x ∈ ids.map (fun i => .arrive (call i)) →
      (x.id, k) ∈ s.cache.given := by
    intro x hx
    obtain ⟨i, hi, heq⟩ := List.mem_map.mp hx
    obtain rfl := Event.arrive.inj heq
    rw [hid]
    exact hgiven i hi
  obtain ⟨ps, hps⟩ := run_admission c k s t _ os hcalls (by rwa [hk])
  exact ⟨_, ps, t, hps, hheld⟩

/-- One request for each of the controllers up to the `n`-th, besides the first. -/
theorem serve_others (hlimit : 0 < limit) (s : App) (n : ℕ)
    (hfresh : ∀ k, 0 < k → s.controllers k = initial)
    (hgiven : ∀ k, k ≤ n → (k, k) ∈ s.cache.given) :
    ∃ es os t, run (appStep c) s es = some (t, os) ∧ t.cache = s.cache ∧
      t.controllers 0 = s.controllers 0 ∧ (∀ k, n < k → t.controllers k = initial) ∧
      ∀ k, 0 < k → k ≤ n → held (t.controllers k) m = 1 := by
  induction n with
  | zero => exact ⟨[], [], s, rfl, rfl, rfl, hfresh, fun k h0 hk => by omega⟩
  | succ n ih =>
    obtain ⟨es, os, t, hrun, hcache, hfirst, hnone, hone⟩ := ih fun k hk => hgiven k (by omega)
    have hone' : ∀ i ∈ [n+1], (i, n+1) ∈ t.cache.given := by
      intro i hi
      obtain rfl := List.mem_singleton.mp hi
      rw [hcache]
      exact hgiven _ le_rfl
    obtain ⟨fs, ps, u, hserve, hheld⟩ := serve c m call hid limit hserves t (n+1)
      (hnone _ (Nat.lt_succ_self n)) [n+1] (List.nodup_singleton _) hlimit hone'
    refine ⟨_, _, t.advance (n+1) u, run_append _ _ _ _ _ _ _ hrun hserve, hcache, ?_, ?_, ?_⟩
    · rw [advance_other t 0 (n+1) u (by omega), hfirst]
    · intro k hk
      rw [advance_other t k (n+1) u (by omega)]
      exact hnone k (by omega)
    · intro k h0 hk
      by_cases hlast : k = n+1
      · subst hlast
        rwa [advance_same]
      · rw [advance_other t k (n+1) u hlast]
        exact hone k h0 (by omega)

/-- Where a controller serves a model's calls up to its limit, `n` more requests
that overlap with the first bring `n` calls above the limit. -/
theorem controllers_raced (hlimit : 0 < limit) (n : ℕ) :
    ∃ es os s, run (appStep c) started es = some (s, os) ∧ s.cache.made = n+1 ∧
      inFlight s m = limit+n := by
  have hnodup : (List.range' (n+1) (limit-1)).Nodup := List.nodup_range'
  obtain ⟨es, cache, os, hraces, hmade, hown, hlater⟩ := CallCache.races (List.range (n+1))
    (List.range' (n+1) (limit-1)) List.nodup_range (by simp)
  obtain ⟨ps, hresolve⟩ := run_resolve c started cache es os hraces
  have hgiven : ∀ k, k ≤ n → (k, k) ∈ cache.given := by
    intro k hk
    exact hown k k (by rw [List.getElem?_range (by omega)])
  have hfirst : ∀ i ∈ 0::List.range' (n+1) (limit-1), (i, 0) ∈ cache.given :=
    List.forall_mem_cons.mpr ⟨hgiven 0 (Nat.zero_le n), hlater⟩
  have hids : (0::List.range' (n+1) (limit-1)).Nodup := by
    refine List.nodup_cons.mpr ⟨fun h0 => ?_, hnodup⟩
    have hlow := (List.mem_range'_1.mp h0).1
    omega
  have hlen : (0::List.range' (n+1) (limit-1)).length = limit := by
    rw [List.length_cons, List.length_range']
    omega
  obtain ⟨fs, qs, t, hserve, hheld⟩ := serve c m call hid limit hserves
    { started with cache := cache } 0 rfl _ hids hlen.le hfirst
  let filled := App.advance { started with cache := cache } 0 t
  have hfresh : ∀ k, 0 < k → filled.controllers k = initial :=
    fun k hk => advance_other _ k 0 t (by omega)
  obtain ⟨gs, rs, u, hothers, hsame, hzero, -, hone⟩ := serve_others c m call hid limit hserves
    hlimit filled n hfresh hgiven
  have hcount : u.cache.made = n+1 := by
    rw [hsame]
    show cache.made = _
    rw [hmade, List.length_range]
  refine ⟨_, _, u, run_append _ _ _ _ _ _ _ hresolve (run_append _ _ _ _ _ _ _ hserve hothers),
    hcount, ?_⟩
  have heach : ∀ k ∈ Finset.range n, held (u.controllers (k+1)) m = 1 := by
    intro k hk
    exact hone (k+1) (Nat.succ_pos k) (Finset.mem_range.mp hk)
  rw [inFlight, hcount, Finset.sum_range_succ', Finset.sum_congr rfl heach, hzero]
  simp [filled, hheld, hlen, Nat.add_comm]

end Raced

theorem small_admits (i : ℕ) : ∃ t o,
    step smallController initial (.arrive (helloCall i)) = some (t, o) ∧ held t "m" = 1 := by
  have hgate : gates smallController "m" helloRequest.val (countingEngine 10 (some 400)) [] 0 =
      .ok ⟨100, 110, []⟩ := by decide +kernel
  have hwait : (waitBound smallController .interactive).nonpositive = false := by decide +kernel
  have hlimit : smallController.effectiveMaxNumSeqs "m" = some 1 := by decide +kernel
  have hpriority : helloRequest.val.priority = .interactive := rfl
  refine ⟨(admitCall smallController initial (helloCall i)).1, _, rfl, ?_⟩
  simp [initial, admitCall, helloCall, hlimit, hpriority, enter, State.getSemaphore, hwait,
    State.countWaiter, SlotSemaphore.Semaphore.create, SlotSemaphore.Semaphore.locked, afterSlot,
    hgate, held]

theorem small_serves (ids : List ℕ) (hlen : ids.length ≤ 1) : ∃ t os,
    run (step smallController) initial (ids.map fun i => .arrive (helloCall i)) = some (t, os) ∧
      held t "m" = ids.length := by
  rcases ids with _ | ⟨i, _ | ⟨j, ids⟩⟩
  · exact ⟨_, _, rfl, rfl⟩
  · obtain ⟨t, o, hstep, hheld⟩ := small_admits i
    exact ⟨t, [o], (run_cons_iff _ _ _ _ _).mpr ⟨t, o, [], hstep, rfl, rfl⟩, hheld⟩
  · simp at hlen

/-- With a limit of one, two requests in flight. -/
theorem controllers_raced_two : seqLimit smallController "m" = 1 ∧ ∃ es os s,
    run (appStep smallController) started es = some (s, os) ∧ s.cache.made = 2 ∧
      inFlight s "m" = 2 :=
  ⟨by decide, controllers_raced smallController "m" helloCall (fun _ => rfl) 1
    (fun ids _ hlen => small_serves ids hlen) (by decide) 1⟩

end InferenceX.ControllerSharing
