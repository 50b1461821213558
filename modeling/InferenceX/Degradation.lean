import InferenceX.ClampOutcome
import InferenceX.FirstGate

/-!
# Missing admission inputs are neutral

An engine may report no prompt count or no KV capacity, and no tier may be
resolved. Two runs are compared, one with inputs missing and one with neutral
values in the place of some of them: the prompt estimate, a capacity that does
not bind, and a tier with the default context cap that has a free slot. Both
end the same way with the same numbers, and the warnings of either name
exactly the inputs it misses.
-/

set_option autoImplicit false

namespace InferenceX.Degradation
open Library.StepRuns Library.SlotSemaphore
open InferenceX.PythonValues InferenceX.ChatSchema InferenceX.ModelRegistry
open InferenceX.AdmissionGates InferenceX.AdmissionMachine InferenceX.AdmissionSteps
open InferenceX.PermitConservation InferenceX.EngineSampling InferenceX.StrictMode
open InferenceX.FirstGate InferenceX.ClampOutcome

/-- Neutral values for what an engine does not report: its estimate as the
prompt count, if so chosen, and a capacity, if one is given. -/
structure Supply where
  count : Bool
  capacity : Option ℤ

def Supply.answer (x : Supply) (r : ChatCompletionRequest) : Option ℤ → Option ℤ
  | some n => some n
  | none => if x.count then some (promptEstimate r) else none

def Supply.engine (x : Supply) (engine : BaseEngine) : BaseEngine where
  countPromptTokens r := (engine.countPromptTokens r).map (x.answer r)
  kvCapacityTokens := engine.kvCapacityTokens.or x.capacity
  counts_prompt r s h := by
    have hanswer : x.answer r = x.answer s := by
      funext n
      cases n with
      | some n => rfl
      | none => simp only [Supply.answer, promptEstimate, totalChars, h]
    rw [engine.counts_prompt r s h, hanswer]

def supply (x : ℕ → Supply) (call : Call) : Call :=
  { call with engine := (x call.id).engine call.engine }

theorem supply_alike (x : ℕ → Supply) (call : Call) : Alike call (supply x call) :=
  ⟨rfl, rfl, rfl⟩

def Ample (c : AdmissionController) (model : String) (r : ChatCompletionRequest)
    (engine : BaseEngine) (x : Supply) (reservedNow : ℤ) : Prop :=
  engine.kvCapacityTokens = none → ∀ n, x.capacity = some n →
    let prompt := promptCount engine r
    (min (requestedOutput r) (room c model r prompt) : ℤ) ≤ available c n reservedNow prompt

def missing (c : AdmissionController) (engine : BaseEngine) (r : ChatCompletionRequest) :
    List ResponseWarning :=
  (if c.tier = none then [sequenceGateSkipped] else [])++
  (match engine.countPromptTokens r with
    | .ok none => [promptTokensEstimated (promptEstimate r)]
    | _ => [])++
  (if engine.kvCapacityTokens = none then [kvGateSkipped] else [])

def degraded (ws : List ResponseWarning) : List ResponseWarning :=
  ws.filter fun w => w.type = .degraded

structure SameNumbers (a b : AdmissionResult) : Prop where
  effective : b.effectiveMaxTokens = a.effectiveMaxTokens
  reserved : b.reservedTokens = a.reservedTokens
  substituted : ClampOutcome.substituted b.warnings = ClampOutcome.substituted a.warnings

inductive Agree {A : Type} (rel : A → A → Prop) : Except PyError A → Except PyError A → Prop
  | error (e : PyError) : Agree rel (.error e) (.error e)
  | ok (a b : A) (related : rel a b) : Agree rel (.ok a) (.ok b)

theorem Agree.bind {A B : Type} {rel : A → A → Prop} {rel' : B → B → Prop}
    {x y : Except PyError A} {f g : A → Except PyError B} (h : Agree rel x y)
    (hfg : ∀ a b, x = .ok a → rel a b → Agree rel' (f a) (g b)) :
    Agree rel' (x >>= f) (y >>= g) := by
  cases h with
  | error e => exact .error e
  | ok a b related => exact hfg a b rfl related

theorem Agree.refl {A : Type} {rel : A → A → Prop} (hrel : ∀ a, rel a a)
    (x : Except PyError A) : Agree rel x x := by
  cases x with
  | error e => exact .error e
  | ok a => exact .ok a a (hrel a)

def SameStage (a b : ℤ × List ResponseWarning) : Prop :=
  b.1 = a.1 ∧ substituted b.2 = substituted a.2

inductive SameOutcome : Outcome → Outcome → Prop
  | same (o : Outcome) : SameOutcome o o
  | returned (a b : AdmissionResult) (numbers : SameNumbers a b) :
      SameOutcome (.returned a) (.returned b)

section Gates
variable (model : String) (r : ChatCompletionRequest) (engine : BaseEngine) (x : Supply)

/-- The count is the same, with a warning when it is still an estimate. -/
theorem promptTokens_supply :
    promptTokens (x.engine engine) r =
      (promptTokens engine r).map fun p => (p.1, if x.count then [] else p.2) := by
  rw [promptTokens, promptTokens]
  simp only [Supply.engine]
  rcases engine.countPromptTokens r with e | _ | n
  · rfl
  · cases hx : x.count <;> simp [Except.map, Supply.answer, hx]
  · cases x.count <;> simp [Except.map, Supply.answer]

theorem promptTokens_agree :
    Agree SameStage (promptTokens engine r) (promptTokens (x.engine engine) r) := by
  rw [promptTokens_supply]
  cases hp : promptTokens engine r with
  | error e => exact .error e
  | ok p =>
    have hclean := substituted_clean p.2 (promptTokens_clean engine r p.1 p.2 hp)
    refine .ok _ _ ⟨rfl, ?_⟩
    rw [hclean]
    split_ifs
    · rfl
    · exact hclean

structure SameLimits (c c' : AdmissionController) : Prop where
  ceiling : c'.requestCeiling model r = c.requestCeiling model r
  margin : c'.kvSafetyMargin = c.kvSafetyMargin

theorem contextGate_same {c c' : AdmissionController} (h : SameLimits model r c c')
    (prompt : ℤ) : contextGate c' model r prompt = contextGate c model r prompt := by
  rw [contextGate, contextGate, h.ceiling]

/-- A capacity that does not bind lets the fitted output through as none does. -/
theorem kvGate_agree {c c' : AdmissionController} (h : SameLimits model r c c')
    (reservedNow prompt fitted : ℤ)
    (ample : engine.kvCapacityTokens = none → ∀ n, x.capacity = some n →
      (fitted : ℚ) ≤ available c n reservedNow prompt) :
    Agree SameStage (kvGate c model r engine.kvCapacityTokens reservedNow prompt fitted)
      (kvGate c' model r (x.engine engine).kvCapacityTokens reservedNow prompt fitted) := by
  have hsame (capacity : Option ℤ) : kvGate c' model r capacity reservedNow prompt fitted =
      kvGate c model r capacity reservedNow prompt fitted := by
    simp only [kvGate, h.margin]
  rw [hsame]
  simp only [Supply.engine]
  cases hn : engine.kvCapacityTokens with
  | some n => exact Agree.refl (fun _ => ⟨rfl, rfl⟩) _
  | none =>
    cases hx : x.capacity with
    | none => exact Agree.refl (fun _ => ⟨rfl, rfl⟩) _
    | some n =>
      have hle := ample hn n hx
      have hpass : kvGate c model r (some n) reservedNow prompt fitted = .ok (fitted, []) :=
        if_neg (not_lt.mpr hle)
      rw [Option.none_or, hpass]
      exact .ok _ _ ⟨rfl, by simp [substituted, kvGateSkipped]⟩

/-- The gates end the same way, whatever missing inputs were supplied. -/
theorem gates_agree {c c' : AdmissionController} (h : SameLimits model r c c')
    (ws ws' : List ResponseWarning) (reservedNow : ℤ)
    (hws : substituted ws' = substituted ws) (ample : Ample c model r engine x reservedNow) :
    Agree SameNumbers (gates c model r engine ws reservedNow)
      (gates c' model r (x.engine engine) ws' reservedNow) := by
  refine (promptTokens_agree r engine x).bind ?_
  rintro ⟨prompt, est⟩ ⟨prompt', est'⟩ hp ⟨hprompt, hest⟩
  obtain rfl : prompt' = prompt := hprompt
  simp only [contextGate_same model r h]
  have hsame : Agree Eq (contextGate c model r prompt') (contextGate c model r prompt') :=
    Agree.refl (fun _ => rfl) _
  refine hsame.bind ?_
  rintro ⟨fitted, clamped⟩ _ hc rfl
  have hfit := contextGate_granted c model r prompt' fitted clamped hc
  have hcount := promptTokens_count engine r prompt' est hp
  have hample : engine.kvCapacityTokens = none → ∀ n, x.capacity = some n →
      (fitted : ℚ) ≤ available c n reservedNow prompt' := by
    intro hn n hx
    rw [hfit, hcount]
    exact ample hn n hx
  refine (kvGate_agree model r engine x h reservedNow prompt' fitted hample).bind ?_
  rintro ⟨granted, low⟩ ⟨granted', low'⟩ - ⟨hgranted, hlow⟩
  obtain rfl : granted' = granted := hgranted
  refine .ok _ _ ⟨rfl, rfl, ?_⟩
  simp only [substituted_append, hws, hlow, show substituted est' = substituted est from hest]

end Gates

theorem degraded_append (xs ys : List ResponseWarning) :
    degraded (xs++ys) = degraded xs++degraded ys := List.filter_append ..

def earlyWarnings (c : AdmissionController) : List ResponseWarning :=
  if c.tier = none then [sequenceGateSkipped] else []

theorem gates_degraded (c : AdmissionController) (model : String) (r : ChatCompletionRequest)
    (engine : BaseEngine) (reservedNow : ℤ) (result : AdmissionResult)
    (h : gates c model r engine (earlyWarnings c) reservedNow = .ok result) :
    degraded result.warnings = missing c engine r := by
  obtain ⟨prompt, est, hp, fitted, clamped, hc, granted, low, hk, rfl⟩ :=
    (gates_ok_iff c model r engine _ reservedNow result).mp h
  have hearly : degraded (earlyWarnings c) = earlyWarnings c := by
    rw [earlyWarnings]
    split_ifs <;> simp [degraded, sequenceGateSkipped]
  have hest : degraded est = match engine.countPromptTokens r with
      | .ok none => [promptTokensEstimated (promptEstimate r)]
      | _ => [] := by
    rw [promptTokens] at hp
    split at hp
    · cases hp
    · obtain ⟨-, rfl⟩ := Prod.mk.inj (Except.ok.inj hp)
      simp [degraded, *]
    · obtain ⟨-, rfl⟩ := Prod.mk.inj (Except.ok.inj hp)
      simp [degraded, promptTokensEstimated, *]
  have hclamped : degraded clamped = [] := by
    rcases (contextGate_ok c model r prompt fitted clamped hc).2 with ⟨-, rfl⟩ | ⟨-, -, rfl⟩ <;>
      simp [degraded, clampedToContext]
  have hlow : degraded low = if engine.kvCapacityTokens = none then [kvGateSkipped] else [] := by
    cases hn : engine.kvCapacityTokens with
    | none =>
      rw [hn] at hk
      obtain ⟨-, rfl⟩ := Prod.mk.inj (Except.ok.inj hk)
      simp [degraded, kvGateSkipped]
    | some n =>
      rw [hn] at hk
      rcases (kvGate_ok c model r n reservedNow prompt fitted granted low hk).2 with
        ⟨-, rfl⟩ | ⟨-, -, rfl⟩ <;> simp [degraded, clampedToKvBudget]
  simp only [degraded_append, hearly, hest, hclamped, hlow, missing, List.append_nil]
  rfl

section Steps
variable (c : AdmissionController) (x : ℕ → Supply)

def supplyEvent : Event → Event
  | .arrive call => .arrive (supply x call)
  | e => e

def admitting (s : State) : Event → Option Call
  | .arrive call => some call
  | .resume id => (s.findWaiting id).map (·.call)
  | _ => none

/-- The capacity given to the call, if any, does not bind. -/
def AmpleFor (call : Call) (s : State) : Prop :=
  Ample c call.model call.request.val call.engine (x call.id) (s.tracker call.model)

theorem afterSlot_supply (s t : State) (call : Call) (slot : Bool) (ws : List ResponseWarning)
    (o : Outcome) (ample : AmpleFor c x call s) (h : afterSlot c s call slot ws = (t, o)) :
    ∃ o', afterSlot c (recalled (supply x) s) (supply x call) slot ws =
      (recalled (supply x) t, o') ∧ SameOutcome o o' := by
  have hgates := gates_agree call.model call.request.val call.engine (x call.id)
    (⟨rfl, rfl⟩ : SameLimits call.model call.request.val c c) ws ws (s.tracker call.model) rfl ample
  rw [afterSlot] at h ⊢
  generalize hx : gates c call.model call.request.val call.engine ws (s.tracker call.model) = a
    at hgates h
  generalize hy : gates c (supply x call).model (supply x call).request.val
    (supply x call).engine ws ((recalled (supply x) s).tracker (supply x call).model) = b
  have hb : b = gates c call.model call.request.val ((x call.id).engine call.engine) ws
      (s.tracker call.model) := hy.symm
  rw [← hb] at hgates
  cases hgates with
  | error e =>
    have hback : (if slot then (recalled (supply x) s).releasePermit (supply x call).model
        else some (recalled (supply x) s)) =
        (if slot then s.releasePermit call.model else some s).map (recalled (supply x)) := by
      split_ifs
      · exact recalled_releasePermit (supply x) s call.model
      · rfl
    simp only [hback]
    cases hr : (if slot then s.releasePermit call.model else some s) with
    | none =>
      simp only [hr] at h
      obtain ⟨rfl, rfl⟩ := Prod.mk.inj h
      exact ⟨_, rfl, .same _⟩
    | some u =>
      simp only [hr] at h
      obtain ⟨rfl, rfl⟩ := Prod.mk.inj h
      exact ⟨_, rfl, .same _⟩
  | ok a b numbers =>
    obtain ⟨rfl, rfl⟩ := Prod.mk.inj h
    refine ⟨_, Prod.ext ?_ rfl, .returned a b numbers⟩
    simp only [numbers.reserved]
    rfl

theorem finish_supply (s t : State) (call : Call) (p : Passage) (o : Outcome)
    (htrack : ∀ lent slot ws, p = .entered lent slot ws → lent.tracker = s.tracker)
    (ample : AmpleFor c x call s) (h : p.finish c call = (t, o)) :
    ∃ o', (p.recalled (supply x)).finish c (supply x call) = (recalled (supply x) t, o') ∧
      SameOutcome o o' := by
  cases p with
  | refused u e =>
    obtain ⟨rfl, rfl⟩ := Prod.mk.inj h
    exact ⟨_, rfl, .same _⟩
  | waits u expired =>
    obtain ⟨rfl, rfl⟩ := Prod.mk.inj h
    exact ⟨_, rfl, .same _⟩
  | entered lent slot ws =>
    refine afterSlot_supply c x lent t call slot ws o ?_ h
    rw [AmpleFor, htrack lent slot ws rfl]
    exact ample

theorem signal_supply (s : State) (w : WaitingCall) (mark : WaitingCall → WaitingCall)
    (hmark : ∀ v, mark { v with call := supply x v.call } =
      { mark v with call := supply x (mark v).call }) :
    (recalled (supply x) s).signal { w with call := supply x w.call } mark =
      recalled (supply x) (s.signal w mark) := by
  have hwaiting : ((recalled (supply x) s).signal { w with call := supply x w.call } mark).waiting =
      (recalled (supply x) (s.signal w mark)).waiting := by
    simp only [State.signal, recalled, List.map_map]
    refine List.map_congr_left fun v _ => ?_
    rw [Function.comp_apply, Function.comp_apply]
    by_cases hv : v.call.id = w.call.id
    · rw [if_pos (show (supply x v.call).id = (supply x w.call).id from hv), if_pos hv]
      exact hmark v
    · rw [if_neg (show ¬ (supply x v.call).id = (supply x w.call).id from hv), if_neg hv]
  rw [State.signal, recalled, State.signal, State.mk.injEq]
  exact ⟨rfl, rfl, rfl, hwaiting, rfl⟩

theorem step_supply (s : State) (e : Event)
    (ample : ∀ call, admitting s e = some call → AmpleFor c x call s) :
    (step c s e = none → step c (recalled (supply x) s) (supplyEvent x e) = none) ∧
    ∀ t o, step c s e = some (t, o) → ∃ o',
      step c (recalled (supply x) s) (supplyEvent x e) = some (recalled (supply x) t, o') ∧
        SameOutcome o o' := by
  have hf := supply_alike x
  cases e with
  | arrive call =>
    simp only [step, supplyEvent, recalled_live _ s hf, admitCall_passage,
      show (supply x call).id = call.id from rfl]
    split_ifs
    · exact ⟨fun _ => rfl, by simp⟩
    · refine ⟨by simp, fun t o h => ?_⟩
      obtain ⟨o', ho', hsame⟩ := finish_supply c x s t call (passage c s call) o
        (fun lent slot ws hp => (passage_entered c s lent call slot ws hp).1)
        (ample call rfl) (Option.some.inj h)
      refine ⟨o', ?_, hsame⟩
      rw [passage_alike (hf call), passage_recalled, ho']
  | timeout id =>
    simp only [step, supplyEvent, recalled_findWaiting _ s hf]
    cases s.findWaiting id with
    | none => simp
    | some w =>
      simp only [Option.map_some]
      split_ifs
      · simp
      · refine ⟨by simp, fun t o h => ?_⟩
        obtain ⟨rfl, rfl⟩ := step_inj h
        exact ⟨_, by rw [signal_supply x s w _ fun _ => rfl], .same _⟩
  | cancel id =>
    simp only [step, supplyEvent, recalled_findWaiting _ s hf]
    cases s.findWaiting id with
    | none => simp
    | some w =>
      refine ⟨by simp, fun t o h => ?_⟩
      obtain ⟨rfl, rfl⟩ := step_inj h
      exact ⟨_, congrArg (fun u => some (u, _)) (signal_supply x s w _ fun _ => rfl), .same _⟩
  | resume id =>
    simp only [admitting] at ample
    simp only [step, supplyEvent, recalled_findWaiting _ s hf]
    cases hw : s.findWaiting id with
    | none => simp
    | some w =>
      simp only [Option.map_some, resume_passage, resumePassage_recalled _ s c hf]
      cases hp : resumePassage c s w with
      | none => simp
      | some p =>
        refine ⟨by simp, fun t o h => ?_⟩
        obtain ⟨o', ho', hsame⟩ := finish_supply c x s t w.call p o
          (fun lent slot ws he =>
            (resumePassage_entered c s lent w slot ws (hp.trans (congrArg some he))).1)
          (ample w.call (by rw [hw]; rfl)) (Option.some.inj h)
        exact ⟨o', by simp only [Option.map_some, ho'], hsame⟩
  | release id =>
    simp only [step, supplyEvent, State.findOutstanding,
      show (recalled (supply x) s).outstanding = s.outstanding from rfl]
    cases s.outstanding.find? fun a => a.id = id with
    | none => simp
    | some a =>
      refine ⟨by simp, fun t o h => ?_⟩
      obtain hrel := Option.some.inj h
      refine ⟨o, congrArg some ?_, .same _⟩
      change release (recalled (supply x) (s.settle id)) a.model a.reserved = _
      rw [release_recalled, hrel]

end Steps

def withTier (c : AdmissionController) (tier : VramTier) : AdmissionController :=
  { c with tier := some tier }

theorem withTier_limits (c : AdmissionController) (tier : VramTier) (model : String)
    (r : ChatCompletionRequest) (hnone : c.tier = none)
    (hcap : tier.maxModelLenCap = defaultContextCap) :
    SameLimits model r c (withTier c tier) := by
  have hceiling : (withTier c tier).contextCeiling model = c.contextCeiling model := by
    simp only [AdmissionController.contextCeiling, withTier, hnone, hcap]
  exact ⟨by simp only [AdmissionController.requestCeiling, hceiling], rfl⟩

theorem entered_back (c : AdmissionController) (tier : VramTier) (ht : c.tier = some tier)
    (s lent : State) (call : Call) (hreach : Reachable (step c) initial s)
    (h : passage c s call = .entered lent true []) :
    ∃ t, lent.releasePermit call.model = some t := by
  obtain ⟨es, os, hrun⟩ := hreach
  have hb := (run_balanced c tier ht es os s hrun).1
  have hpass := passage_passes c s call
  rw [h] at hpass
  cases hpass with
  | served limit u sem ceiling space got bound free =>
    rw [effective_limit c tier ht] at ceiling
    obtain rfl := Option.some.inj ceiling
    obtain ⟨t, ht, -⟩ := releasePermit_balanced (seqLimit c) _ call.model
      (served_balanced (seqLimit c) s u call sem hb got free)
    exact ⟨t, ht⟩

theorem tier_neutral (c : AdmissionController) (tier : VramTier) (hnone : c.tier = none)
    (hcap : tier.maxModelLenCap = defaultContextCap) (s s' lent : State) (call : Call)
    (x : ℕ → Supply) (hreach : Reachable (step (withTier c tier)) initial s')
    (htrack : s'.tracker call.model = s.tracker call.model)
    (hgrant : passage (withTier c tier) s' call = .entered lent true [])
    (ample : AmpleFor c x call s) :
    SameOutcome (admitCall c s call).2 (admitCall (withTier c tier) s' (supply x call)).2 := by
  obtain ⟨u, hu⟩ := entered_back (withTier c tier) tier rfl s' lent call hreach hgrant
  have htrack' := (passage_entered (withTier c tier) s' lent call true [] hgrant).1
  have hskip : passage c s call = .entered s false [sequenceGateSkipped] := by
    simp [passage, AdmissionController.effectiveMaxNumSeqs, hnone]
  have hgates := gates_agree call.model call.request.val call.engine (x call.id)
    (withTier_limits c tier call.model call.request.val hnone hcap) [sequenceGateSkipped] []
    (s.tracker call.model) (by simp [substituted, sequenceGateSkipped]) ample
  have hR : ((lent.tracker call.model : ℕ) : ℤ) = s.tracker call.model := by rw [htrack', htrack]
  rw [admitCall_passage, admitCall_passage, hskip, passage_alike (supply_alike x call), hgrant]
  rw [← hR] at hgates
  generalize hy : gates (withTier c tier) call.model call.request.val
    ((x call.id).engine call.engine) [] (lent.tracker call.model) = b at hgates
  generalize hx : gates c call.model call.request.val call.engine [sequenceGateSkipped]
    (lent.tracker call.model) = a at hgates
  rw [hR] at hx
  rw [Passage.finish, Passage.finish]
  cases hgates with
  | error e =>
    rw [afterSlot_error c s s call false _ e hx rfl,
      afterSlot_error (withTier c tier) lent u (supply x call) true [] e hy hu]
    exact .same _
  | ok a b numbers =>
    rw [afterSlot_ok c s call false _ a hx,
      afterSlot_ok (withTier c tier) lent (supply x call) true [] b hy]
    exact .returned a b numbers

theorem nobody_waits (c : AdmissionController) (hnone : c.tier = none) (s : State)
    (hreach : Reachable (step c) initial s) : s.waiting = [] := by
  obtain ⟨es, os, hrun⟩ := hreach
  refine run_preserves (fun _ => True) (fun s => s.waiting = []) ?_ initial s es os
    (fun _ _ => trivial) rfl hrun
  intro s e t o _ hs hstep
  refine List.eq_nil_iff_forall_not_mem.mpr fun w hw => ?_
  rcases step_waiting c s t e o hstep w hw with ⟨v, hv, -⟩ | rfl
  · simp [hs] at hv
  · cases step_stepped c s t _ o hstep with
    | arrive call t o fresh h =>
      rcases admit_cases c s t w.call o h with ⟨-, hend⟩ | ⟨limit, hl, -⟩
      · rw [hend.waiting, hs] at hw
        cases hw
      · simp [AdmissionController.effectiveMaxNumSeqs, hnone] at hl

theorem effective_none_iff (c : AdmissionController) (model : String) :
    c.effectiveMaxNumSeqs model = none ↔ c.tier = none := by
  rw [AdmissionController.effectiveMaxNumSeqs]
  cases c.tier <;> simp

/-- Every admission that a run returns names the inputs it missed. -/
theorem admission_degraded (c : AdmissionController) (s t : State) (e : Event)
    (result : AdmissionResult) (hreach : Reachable (step c) initial s)
    (h : step c s e = some (t, .returned result)) :
    ∃ call, admitting s e = some call ∧
      degraded result.warnings = missing c call.engine call.request.val := by
  cases step_stepped c s t e _ h with
  | arrive call t o fresh hadm =>
    rw [admitCall_passage] at hadm
    obtain ⟨lent, slot, ws, hp, hg⟩ := finish_returned c call _ t result hadm
    obtain ⟨-, hws⟩ := passage_entered c s lent call slot ws hp
    simp only [effective_none_iff] at hws
    exact ⟨call, rfl, gates_degraded c call.model call.request.val call.engine _ result
      (hws ▸ hg)⟩
  | resume w t o found hres =>
    refine ⟨w.call, by simp [admitting, found], ?_⟩
    have htier : c.tier ≠ none := by
      intro hnone
      have hmem := (findWaiting_some s w.call.id w found).1
      rw [nobody_waits c hnone s hreach] at hmem
      cases hmem
    rw [resume_passage] at hres
    obtain ⟨p, hp, hfin⟩ := Option.map_eq_some_iff.mp hres
    obtain ⟨lent, slot, ws, rfl, hg⟩ := finish_returned c w.call p t result hfin
    obtain ⟨-, rfl⟩ := resumePassage_entered c s lent w slot ws hp
    refine gates_degraded c w.call.model w.call.request.val w.call.engine
      (lent.tracker w.call.model) result ?_
    rw [earlyWarnings, if_neg htier]
    exact hg
  | release a t o found hrel =>
    rcases release_cases _ t a.model a.reserved _ hrel with ⟨-, -, ho⟩ | ⟨-, ho⟩ <;> cases ho

def Equipped (c : AdmissionController) (call : Call) : Prop :=
  c.tier ≠ none ∧ call.engine.countPromptTokens call.request.val ≠ .ok none ∧
    call.engine.kvCapacityTokens ≠ none

theorem missing_nil_iff (c : AdmissionController) (call : Call) :
    missing c call.engine call.request.val = [] ↔ Equipped c call := by
  simp only [missing, Equipped, List.append_eq_nil_iff, ite_eq_right_iff, List.cons_ne_nil,
    imp_false]
  rw [and_assoc]
  refine and_congr_right fun _ => and_congr_left fun _ => ?_
  rcases call.engine.countPromptTokens call.request.val with e | _ | n <;> simp

/-- In every reachable state: a step does the same when missing engine inputs
are replaced by neutral ones; an admission without a tier ends as it does
under a tier with the default context cap that has a slot for it; and every
admission names exactly the inputs it missed, so that one with all inputs has
no such warning. -/
theorem degradation_neutral (c : AdmissionController) (s : State)
    (hreach : Reachable (step c) initial s) :
    (∀ (x : ℕ → Supply) (e : Event),
      (∀ call, admitting s e = some call → AmpleFor c x call s) →
      (step c s e = none → step c (recalled (supply x) s) (supplyEvent x e) = none) ∧
      ∀ t o, step c s e = some (t, o) → ∃ o',
        step c (recalled (supply x) s) (supplyEvent x e) = some (recalled (supply x) t, o') ∧
          SameOutcome o o') ∧
    (∀ (tier : VramTier) (x : ℕ → Supply) (s' lent : State) (call : Call), c.tier = none →
      tier.maxModelLenCap = 4096 → Reachable (step (withTier c tier)) initial s' →
      s'.tracker call.model = s.tracker call.model →
      passage (withTier c tier) s' call = .entered lent true [] → AmpleFor c x call s →
      SameOutcome (admitCall c s call).2
        (admitCall (withTier c tier) s' (supply x call)).2) ∧
    ∀ e t result, step c s e = some (t, .returned result) → ∃ call,
      admitting s e = some call ∧
      degraded result.warnings = missing c call.engine call.request.val ∧
      (degraded result.warnings = [] ↔ Equipped c call) := by
  refine ⟨fun x e ample => step_supply c x s e ample, ?_, ?_⟩
  · intro tier x s' lent call hnone hcap hreach' htrack hgrant ample
    exact tier_neutral c tier hnone hcap s s' lent call x hreach' htrack hgrant ample
  · intro e t result h
    obtain ⟨call, hcall, hdeg⟩ := admission_degraded c s t e result hreach h
    exact ⟨call, hcall, hdeg, by rw [hdeg, missing_nil_iff]⟩

def silentEngine : BaseEngine where
  countPromptTokens := fun _ => .ok none
  kvCapacityTokens := none
  counts_prompt := fun _ _ _ => rfl

def silentController : AdmissionController := { smallController with tier := none }

def ampleSupply : ℕ → Supply := fun _ => ⟨true, some 100000⟩

def silentCall : Call := ⟨0, "m", helloRequest, silentEngine⟩

def wideTier : VramTier := { smallTier with maxModelLenCap := 4096 }

theorem silentCall_ample : AmpleFor silentController ampleSupply silentCall initial := by
  intro _ n hn
  obtain rfl := Option.some.inj hn
  decide +kernel

/-- All three inputs missing, against the numbers and a tier in their place. -/
theorem degradation_neutral_silent : ∃ t result o',
    step silentController initial (.arrive silentCall) = some (t, .returned result) ∧
    degraded result.warnings = [sequenceGateSkipped, promptTokensEstimated 1, kvGateSkipped] ∧
    step silentController initial (.arrive (supply ampleSupply silentCall)) =
      some (recalled (supply ampleSupply) t, o') ∧ SameOutcome (.returned result) o' ∧
    SameOutcome (.returned result) (admitCall (withTier silentController wideTier) initial
      (supply ampleSupply silentCall)).2 := by
  obtain ⟨hsupply, htier, hwarned⟩ := degradation_neutral silentController initial ⟨[], [], rfl⟩
  obtain ⟨t, result, hstep⟩ : ∃ t result, step silentController initial (.arrive silentCall) =
      some (t, .returned result) := ⟨_, _, rfl⟩
  obtain ⟨call, hcall, hdeg, -⟩ := hwarned _ t result hstep
  obtain rfl := Option.some.inj hcall
  have hample : ∀ call, admitting initial (.arrive silentCall) = some call →
      AmpleFor silentController ampleSupply call initial := by
    intro call hc
    obtain rfl := Option.some.inj hc
    exact silentCall_ample
  obtain ⟨o', hstep', hsame⟩ := (hsupply ampleSupply (.arrive silentCall) hample).2 t _ hstep
  obtain ⟨lent, hpass⟩ : ∃ lent, passage (withTier silentController wideTier) initial silentCall =
      .entered lent true [] := by
    have hlimit : (withTier silentController wideTier).effectiveMaxNumSeqs silentCall.model =
        some 1 := by decide +kernel
    have hwaits : (waitBound (withTier silentController wideTier)
        silentCall.request.val.priority).nonpositive = false := by decide +kernel
    have hpriority : ¬ silentCall.request.val.priority = .batch := by decide
    have hfree : initial.getSemaphore silentCall.model 1 = some
        (initial.setSemaphore silentCall.model (.create 1), .create 1) := rfl
    have hopen : (Semaphore.create 1 : Semaphore ℕ).locked = false := rfl
    simp [passage, enterPassage, hlimit, hwaits, hpriority, hfree, hopen]
  have hlent := htier wideTier ampleSupply initial lent silentCall rfl rfl ⟨[], [], rfl⟩ rfl hpass
    silentCall_ample
  have hout : (admitCall silentController initial silentCall).2 = .returned result :=
    congrArg Prod.snd (Option.some.inj hstep)
  rw [hout] at hlent
  exact ⟨t, result, o', hstep, hdeg.trans (by decide +kernel), hstep', hsame, hlent⟩

end InferenceX.Degradation
