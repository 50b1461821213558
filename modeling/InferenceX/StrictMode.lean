import InferenceX.FirstGate
import InferenceX.PermitConservation

/-!
# Strict mode turns substitutions into rejections

The same call is run twice from one state, once with `strict` and once
without. Gate 1 does not read the flag, so both runs reach the later gates in
one and the same state; there each gate either does the same thing in both
runs, or clamps in one and raises in the other.
-/

set_option autoImplicit false

namespace InferenceX.StrictMode
open Library.StepRuns Library.SlotSemaphore
open InferenceX.PythonValues InferenceX.ChatSchema InferenceX.ModelRegistry
open InferenceX.AdmissionGates InferenceX.AdmissionMachine InferenceX.AdmissionSteps
open InferenceX.FirstGate InferenceX.PermitConservation

def withStrict (r : ChatCompletionRequest) (b : Bool) : ChatCompletionRequest :=
  { r with strict := b }

def flagged (call : Call) (b : Bool) : Call :=
  { call with request := ⟨withStrict call.request.val b, call.request.property⟩ }

def Clean (ws : List ResponseWarning) : Prop := ∀ w ∈ ws, w.type ≠ .substituted

/-- How the strict outcome follows from the lenient one; `warned` reads the
warnings of a success. -/
inductive Follows {A : Type} (warned : A → List ResponseWarning) :
    Except PyError A → Except PyError A → Prop
  | same (a : A) (clean : Clean (warned a)) : Follows warned (.ok a) (.ok a)
  | violation (a : A) (message : String) (dirty : ¬ Clean (warned a)) :
      Follows warned (.ok a) (.error (.strictModeViolation message))
  | error (e e' : PyError) : Follows warned (.error e) (.error e')

/-- Stages compose when the warnings of the first end up among those of the second. -/
theorem Follows.bind {A B : Type} {warned : A → List ResponseWarning}
    {warned' : B → List ResponseWarning} {x y : Except PyError A} {f g : A → Except PyError B}
    (h : Follows warned x y) (hfg : ∀ a, Clean (warned a) → Follows warned' (f a) (g a))
    (hkeep : ∀ a b, f a = .ok b → Clean (warned' b) → Clean (warned a)) :
    Follows warned' (x >>= f) (y >>= g) := by
  cases h with
  | same a clean => exact hfg a clean
  | violation a message dirty =>
    change Follows warned' (f a) _
    cases hb : f a with
    | ok b => exact .violation b message fun hb' => dirty (hkeep a b hb hb')
    | error e => exact .error _ _
  | error e e' => exact .error _ _

theorem clean_nil : Clean [] := fun _ h => absurd h List.not_mem_nil

theorem clean_append (xs ys : List ResponseWarning) :
    Clean (xs++ys) ↔ Clean xs ∧ Clean ys := by
  simp only [Clean, List.mem_append, or_imp, forall_and]

section Flag
variable (c : AdmissionController) (model : String) (r : ChatCompletionRequest) (b : Bool)

@[simp] theorem requestCeiling_withStrict :
    c.requestCeiling model (withStrict r b) = c.requestCeiling model r := rfl

@[simp] theorem requestedOutput_withStrict :
    requestedOutput (withStrict r b) = requestedOutput r := rfl

@[simp] theorem priority_withStrict : (withStrict r b).priority = r.priority := rfl

@[simp] theorem strict_withStrict : (withStrict r b).strict = b := rfl

theorem promptTokens_withStrict (engine : BaseEngine) :
    promptTokens engine (withStrict r b) = promptTokens engine r := by
  rw [promptTokens, promptTokens, engine.counts_prompt (withStrict r b) r rfl]
  rfl

end Flag

theorem contextGate_follows (c : AdmissionController) (model : String)
    (r : ChatCompletionRequest) (prompt : ℤ) :
    Follows Prod.snd (contextGate c model (withStrict r false) prompt)
      (contextGate c model (withStrict r true) prompt) := by
  simp only [contextGate, requestCeiling_withStrict, requestedOutput_withStrict,
    priority_withStrict, strict_withStrict, Bool.false_eq_true, if_false, if_true]
  split_ifs
  · exact .error _ _
  · exact .error _ _
  · exact .violation _ _ fun h => h _ (List.mem_singleton.mpr rfl) rfl
  · exact .same _ clean_nil

theorem kvGate_follows (c : AdmissionController) (model : String) (r : ChatCompletionRequest)
    (capacity : Option ℤ) (reservedNow prompt effective : ℤ) :
    Follows Prod.snd
      (kvGate c model (withStrict r false) capacity reservedNow prompt effective)
      (kvGate c model (withStrict r true) capacity reservedNow prompt effective) := by
  cases capacity with
  | none => exact .same _ (by simp [Clean, kvGateSkipped])
  | some capacity =>
    simp only [kvGate, priority_withStrict, strict_withStrict, Bool.false_eq_true, if_false,
      if_true]
    split_ifs
    · exact .error _ _
    · exact .violation _ _ fun h => h _ (List.mem_singleton.mpr rfl) rfl
    · exact .same _ clean_nil

theorem promptTokens_clean (engine : BaseEngine) (r : ChatCompletionRequest) (prompt : ℤ)
    (ws : List ResponseWarning) (h : promptTokens engine r = .ok (prompt, ws)) : Clean ws := by
  rw [promptTokens] at h
  split at h
  · cases h
  · obtain ⟨-, rfl⟩ := Prod.mk.inj (Except.ok.inj h)
    exact clean_nil
  · obtain ⟨-, rfl⟩ := Prod.mk.inj (Except.ok.inj h)
    simp [Clean, promptTokensEstimated]

/-- Under `strict` the gates do what they do without, or reject what they would clamp. -/
theorem gates_follow (c : AdmissionController) (model : String) (r : ChatCompletionRequest)
    (engine : BaseEngine) (ws : List ResponseWarning) (reservedNow : ℤ) (hws : Clean ws) :
    Follows AdmissionResult.warnings
      (gates c model (withStrict r false) engine ws reservedNow)
      (gates c model (withStrict r true) engine ws reservedNow) := by
  rw [gates, gates, promptTokens_withStrict, promptTokens_withStrict]
  cases hp : promptTokens engine r with
  | error e => exact .error _ _
  | ok p =>
    obtain ⟨prompt, est⟩ := p
    have hest := promptTokens_clean engine r prompt est hp
    refine (contextGate_follows c model r prompt).bind ?_ ?_
    · rintro ⟨fitted, clamped⟩ hclamped
      refine (kvGate_follows c model r engine.kvCapacityTokens reservedNow prompt fitted).bind ?_ ?_
      · rintro ⟨granted, low⟩ hlow
        apply Follows.same
        simp only [clean_append]
        exact ⟨⟨⟨hws, hest⟩, hclamped⟩, hlow⟩
      · rintro ⟨granted, low⟩ result h hclean
        obtain rfl := Except.ok.inj h
        exact ((clean_append _ _).mp hclean).2
    · rintro ⟨fitted, clamped⟩ result h hclean
      obtain ⟨⟨granted, low⟩, -, h⟩ := bind_ok h
      obtain rfl := Except.ok.inj h
      exact ((clean_append _ _).mp ((clean_append _ _).mp hclean).1).2

/-- The requested output does not fit next to the prompt: neither an estimate
nor a missing tier or capacity is part of it. -/
def NeedsClamp (c : AdmissionController) (model : String) (r : ChatCompletionRequest)
    (capacity : Option ℤ) (reservedNow prompt : ℤ) : Prop :=
  prompt+requestedOutput r > c.requestCeiling model r ∨
    ∃ n, capacity = some n ∧
      (n*c.kvSafetyMargin-reservedNow-prompt : ℚ) < requestedOutput r

theorem contextGate_violation (c : AdmissionController) (model : String)
    (r : ChatCompletionRequest) (prompt : ℤ) (message : String)
    (h : contextGate c model r prompt = .error (.strictModeViolation message)) :
    r.strict = true ∧ prompt+requestedOutput r > c.requestCeiling model r := by
  simp only [contextGate] at h
  split_ifs at h with hp he hb hs
  · cases Except.error.inj h
  · cases Except.error.inj h
  · exact ⟨hs, he⟩

theorem kvGate_violation (c : AdmissionController) (model : String) (r : ChatCompletionRequest)
    (capacity : Option ℤ) (reservedNow prompt effective : ℤ) (message : String)
    (h : kvGate c model r capacity reservedNow prompt effective =
      .error (.strictModeViolation message)) :
    r.strict = true ∧ ∃ n, capacity = some n ∧
      (n*c.kvSafetyMargin-reservedNow-prompt : ℚ) < effective := by
  cases capacity with
  | none => cases h
  | some n =>
    simp only [kvGate] at h
    split_ifs at h with ha hb hs
    · cases Except.error.inj h
    · exact ⟨hs, n, rfl, ha⟩

/-- Only the engine itself or a strict request that needs a clamp gives a violation. -/
theorem gates_violation (c : AdmissionController) (model : String) (r : ChatCompletionRequest)
    (engine : BaseEngine) (ws : List ResponseWarning) (reservedNow : ℤ) (message : String)
    (h : gates c model r engine ws reservedNow = .error (.strictModeViolation message)) :
    engine.countPromptTokens r = .error (.strictModeViolation message) ∨
      r.strict = true ∧ ∃ prompt est, promptTokens engine r = .ok (prompt, est) ∧
        NeedsClamp c model r engine.kvCapacityTokens reservedNow prompt := by
  rw [gates] at h
  rcases bind_error h with hp | ⟨⟨prompt, est⟩, hp, h⟩
  · left
    rw [promptTokens] at hp
    split at hp
    · rename_i e he
      rw [he, Except.error.inj hp]
    · cases hp
    · cases hp
  right
  rcases bind_error h with hc | ⟨⟨fitted, clamped⟩, hc, h⟩
  · obtain ⟨hs, hn⟩ := contextGate_violation c model r prompt message hc
    exact ⟨hs, prompt, est, hp, Or.inl hn⟩
  rcases bind_error h with hk | ⟨⟨granted, low⟩, hk, h⟩
  · obtain ⟨hs, n, hcap, hn⟩ := kvGate_violation c model r _ _ _ _ message hk
    refine ⟨hs, prompt, est, hp, Or.inr ⟨n, hcap, hn.trans_le ?_⟩⟩
    have hfit : fitted ≤ requestedOutput r := by
      rcases (contextGate_ok c model r prompt fitted clamped hc).2 with ⟨rfl, -⟩ | ⟨-, hlt, -⟩
      · exact le_refl _
      · exact hlt.le
    exact_mod_cast hfit
  · cases h

def NoOwnViolation (engine : BaseEngine) : Prop :=
  ∀ r message, engine.countPromptTokens r ≠ .error (.strictModeViolation message)

theorem gates_lenient (c : AdmissionController) (model : String) (r : ChatCompletionRequest)
    (engine : BaseEngine) (ws : List ResponseWarning) (reservedNow : ℤ)
    (hown : NoOwnViolation engine) (message : String) :
    gates c model (withStrict r false) engine ws reservedNow ≠
      .error (.strictModeViolation message) := by
  intro h
  rcases gates_violation c model _ engine ws reservedNow message h with he | ⟨hs, -⟩
  · exact hown _ _ he
  · cases hs

theorem gates_reason (c : AdmissionController) (model : String) (r : ChatCompletionRequest)
    (engine : BaseEngine) (ws : List ResponseWarning) (reservedNow : ℤ)
    (hown : NoOwnViolation engine) (message : String)
    (h : gates c model (withStrict r true) engine ws reservedNow =
      .error (.strictModeViolation message)) :
    ∃ prompt est, promptTokens engine r = .ok (prompt, est) ∧
      NeedsClamp c model r engine.kvCapacityTokens reservedNow prompt := by
  rcases gates_violation c model _ engine ws reservedNow message h with he |
    ⟨-, prompt, est, hp, hn⟩
  · exact absurd he (hown _ _)
  · rw [promptTokens_withStrict] at hp
    exact ⟨prompt, est, hp, hn⟩

/-- A slot can be taken at once, or the gate is skipped. -/
def SlotAvailable (c : AdmissionController) (s : State) (model : String) : Prop :=
  match c.effectiveMaxNumSeqs model with
  | none => True
  | some limit =>
    match s.semaphores model with
    | none => 0 < limit
    | some sem => sem.locked = false

def admitAlone (c : AdmissionController) (s : State) (call : Call) : Option (State × Outcome) :=
  match admitCall c s call with
  | (t, .suspended) => (t.findWaiting call.id).bind (resume c t)
  | done => some done

structure Untouched (c : AdmissionController) (s t : State) : Prop where
  tracker : t.tracker = s.tracker
  batchWaiters : t.batchWaiters = s.batchWaiters
  free : ∀ m, freePermits c t m = freePermits c s m
  handed : ∀ m, handedPermits t m = handedPermits s m

inductive Meeting (c : AdmissionController) (s : State) (call : Call) : Prop
  | refused (e : PyError) (path : ∀ b, admitCall c s (flagged call b) = (s, .raised e))
      (lenient : ∀ message, e ≠ .strictModeViolation message) : Meeting c s call
  | expired (u : State)
      (path : ∀ b, admitCall c s (flagged call b) = (u.wait (flagged call b) true, .suspended)) :
      Meeting c s call
  | entered (lent u : State) (slot : Bool) (ws : List ResponseWarning) (clean : Clean ws)
      (path : ∀ b, admitCall c s (flagged call b) = afterSlot c lent (flagged call b) slot ws)
      (tracker : lent.tracker = s.tracker)
      (back : (if slot then lent.releasePermit call.model else some lent) = some u)
      (same : Untouched c s u) : Meeting c s call

theorem countWaiter_cancel (s : State) (call : Call) (sem : Semaphore ℕ) :
    (((s.countWaiter call 1).setSemaphore call.model sem).countWaiter call (-1)).batchWaiters =
      s.batchWaiters := by
  simp only [State.countWaiter, State.setSemaphore]
  split
  · rfl
  · simp only [Counter.add, Function.update_self, Function.update_idem]
    refine Function.update_eq_self_iff.mpr ?_
    omega

/-- The semaphore a free slot is taken from; creating it changes no count. -/
theorem getSemaphore_free (c : AdmissionController) (tier : VramTier) (ht : c.tier = some tier)
    (s : State) (model : String) (hb : Balanced (seqLimit c) idle s)
    (hslot : SlotAvailable c s model) :
    ∃ u sem, s.getSemaphore model (seqLimit c model) = some (u, sem) ∧ sem.locked = false ∧
      sem.value ≤ sem.bound ∧ u.semaphores model = some sem ∧ Untouched c s u := by
  rw [SlotAvailable, effective_limit c tier ht] at hslot
  cases hsem : s.semaphores model with
  | some sem =>
    have hm := hb model
    simp only [hsem] at hslot hm
    have hsum : sem.owned+held s model = sem.bound := hm.2
    rw [Semaphore.owned] at hsum
    exact ⟨s, sem, by simp [State.getSemaphore, hsem], hslot, by omega, hsem,
      ⟨rfl, rfl, fun _ => rfl, fun _ => rfl⟩⟩
  | none =>
    simp only [hsem] at hslot
    have hneg : ¬ seqLimit c model < 0 := by omega
    refine ⟨s.setSemaphore model (.create (seqLimit c model).toNat), .create _,
      by simp [State.getSemaphore, hsem, hneg], ?_, le_refl _, setSemaphore_same s model _,
      ⟨rfl, rfl, fun m => ?_, fun m => ?_⟩⟩
    · have hpos : (seqLimit c model).toNat ≠ 0 := by omega
      simp [Semaphore.locked, Semaphore.create, hpos]
    · by_cases hm : m = model
      · subst hm
        simp [freePermits, hsem, Semaphore.create]
        omega
      · rw [freePermits, (Frame.setSemaphore s model _).semaphores m hm, freePermits]
    · by_cases hm : m = model
      · subst hm
        simp [handedPermits, hsem, Semaphore.create, Semaphore.handed]
      · rw [handedPermits, (Frame.setSemaphore s model _).semaphores m hm, handedPermits]

theorem flagged_alike (call : Call) (b : Bool) : Alike call (flagged call b) := ⟨rfl, rfl, rfl⟩

/-- The slot a call takes can be given back at once, and nothing has changed then. -/
theorem served_meeting (c : AdmissionController) (s u : State) (call : Call)
    (sem : Semaphore ℕ) (hfree : sem.locked = false) (hle : sem.value ≤ sem.bound)
    (hsem : u.semaphores call.model = some sem) (hsame : Untouched c s u)
    (hpath : ∀ b, admitCall c s (flagged call b) =
      afterSlot c (((u.countWaiter call 1).setSemaphore call.model sem.acquireNow).countWaiter
        call (-1)) (flagged call b) true []) : Meeting c s call := by
  let lent := ((u.countWaiter call 1).setSemaphore call.model sem.acquireNow).countWaiter call (-1)
  have hsems : (lent.setSemaphore call.model sem).semaphores = u.semaphores := by
    simp only [lent, State.setSemaphore, countWaiter_semaphores, Function.update_idem]
    exact Function.update_eq_self_iff.mpr hsem.symm
  refine .entered lent (lent.setSemaphore call.model sem) true [] clean_nil hpath ?_ ?_ ?_
  · simpa [lent] using hsame.tracker
  · simp [State.releasePermit, lent, sem.release_acquireNow hfree hle]
  · refine ⟨by simpa [lent] using hsame.tracker, ?_, fun m => ?_, fun m => ?_⟩
    · rw [← hsame.batchWaiters, ← countWaiter_cancel u call sem.acquireNow]
      rfl
    · rw [freePermits, hsems, ← hsame.free m, freePermits]
    · rw [handedPermits, hsems, ← hsame.handed m, handedPermits]

theorem admit_meeting (c : AdmissionController) (s : State) (call : Call)
    (hreach : Reachable (step c) initial s) (hslot : SlotAvailable c s call.model) :
    Meeting c s call := by
  have hpath (b : Bool) : admitCall c s (flagged call b) =
      (passage c s call).finish c (flagged call b) := by
    rw [admitCall_passage, passage_alike (flagged_alike call b)]
  -- under a tier the semaphore of the call is there, with a free slot
  have hfirst (limit : ℤ) (hl : c.effectiveMaxNumSeqs call.model = some limit) :
      ∃ u sem, s.getSemaphore call.model limit = some (u, sem) ∧ sem.locked = false ∧
        sem.value ≤ sem.bound ∧ u.semaphores call.model = some sem ∧ Untouched c s u := by
    cases ht : c.tier with
    | none => simp [AdmissionController.effectiveMaxNumSeqs, ht] at hl
    | some tier =>
      obtain ⟨es, os, hrun⟩ := hreach
      obtain rfl : seqLimit c call.model = limit :=
        Option.some.inj ((effective_limit c tier ht call.model).symm.trans hl)
      exact getSemaphore_free c tier ht s call.model (run_balanced c tier ht es os s hrun).1 hslot
  have hpass := passage_passes c s call
  generalize passage c s call = p at hpath hpass
  cases hpass with
  | skipped noTier =>
    exact .entered s s false [sequenceGateSkipped] (by simp [Clean, sequenceGateSkipped]) hpath
      rfl rfl ⟨rfl, rfl, fun _ => rfl, fun _ => rfl⟩
  | capped limit ceiling batch full =>
    exact .refused _ hpath (by simp [queueFull])
  | unbounded limit ceiling got =>
    obtain ⟨u, sem, hget, -⟩ := hfirst limit ceiling
    rw [got] at hget
    cases hget
  | expired limit u sem ceiling space got bound => exact .expired (u.countWaiter call 1) hpath
  | queued limit u sem ceiling space got bound busy =>
    obtain ⟨u', sem', hget, hfree, -⟩ := hfirst limit ceiling
    obtain ⟨rfl, rfl⟩ := Prod.mk.inj (Option.some.inj (got.symm.trans hget))
    rw [hfree] at busy
    cases busy
  | served limit u sem ceiling space got bound free =>
    obtain ⟨u', sem', hget, -, hle, hsem, hsame⟩ := hfirst limit ceiling
    obtain ⟨rfl, rfl⟩ := Prod.mk.inj (Option.some.inj (got.symm.trans hget))
    exact served_meeting c s u call sem free hle hsem hsame hpath

theorem afterSlot_ok (c : AdmissionController) (s : State) (call : Call) (slot : Bool)
    (ws : List ResponseWarning) (result : AdmissionResult)
    (h : gates c call.model call.request.val call.engine ws (s.tracker call.model) = .ok result) :
    afterSlot c s call slot ws = ({ s with
      tracker := s.tracker.add call.model result.reservedTokens
      outstanding := ⟨call.id, call.model, result.reservedTokens⟩::s.outstanding },
      .returned result) := by
  rw [afterSlot, h]

theorem afterSlot_error (c : AdmissionController) (s u : State) (call : Call) (slot : Bool)
    (ws : List ResponseWarning) (e : PyError)
    (h : gates c call.model call.request.val call.engine ws (s.tracker call.model) = .error e)
    (back : (if slot then s.releasePermit call.model else some s) = some u) :
    afterSlot c s call slot ws = (u, .raised e) := by
  simp only [afterSlot, h, back]

theorem admitAlone_expired (c : AdmissionController) (s u : State) (call : Call)
    (h : admitCall c s call = (u.wait call true, .suspended)) :
    admitAlone c s call =
      some (((u.wait call true).leave call.id).countWaiter call (-1),
        .raised (noSlotFreed c call)) := by
  have hfind : (u.wait call true).findWaiting call.id = some ⟨call, true, false, false⟩ := by
    simp [State.findWaiting, State.wait]
  rw [admitAlone, h]
  simp only [hfind, Option.bind_some, resume, if_true, interruption, Bool.false_eq_true, if_false]

theorem admitAlone_done (c : AdmissionController) (s t : State) (call : Call) (o : Outcome)
    (h : admitCall c s call = (t, o)) (ho : o ≠ .suspended) :
    admitAlone c s call = some (t, o) := by
  rw [admitAlone, h]
  split
  · rename_i heq
    exact absurd (Prod.mk.inj heq).2 ho
  · rfl

/-- The strict run `(t', o')` next to the lenient run `(t, o)` of the same call. -/
structure OnlyRejects (c : AdmissionController) (s : State) (call : Call)
    (t : State) (o : Outcome) (t' : State) (o' : Outcome) : Prop where
  succeeds : (∃ result, o' = .returned result) ↔
    ∃ result, o = .returned result ∧ Clean result.warnings
  same : ∀ result, o = .returned result → Clean result.warnings → o' = .returned result ∧ t' = t
  violation : ∀ result, o = .returned result → ¬ Clean result.warnings →
    (∃ message, o' = .raised (.strictModeViolation message)) ∧ Untouched c s t'
  raises : ∀ e, o = .raised e → ∃ e', o' = .raised e'
  /-- Unless the engine itself raises one, only strict requests see a violation. -/
  lenient : NoOwnViolation call.engine → ∀ message, o ≠ .raised (.strictModeViolation message)
  reason : NoOwnViolation call.engine →
    ∀ message, o' = .raised (.strictModeViolation message) →
      ∃ prompt est, promptTokens call.engine call.request.val = .ok (prompt, est) ∧
        NeedsClamp c call.model call.request.val call.engine.kvCapacityTokens
          (s.tracker call.model) prompt

theorem raised_both (c : AdmissionController) (s t t' : State) (call : Call) (e : PyError)
    (he : ∀ message, e ≠ .strictModeViolation message) :
    OnlyRejects c s call t (.raised e) t' (.raised e) where
  succeeds := by simp
  same := by simp
  violation := by simp
  raises _ _ := ⟨e, rfl⟩
  lenient _ message h := he message (Outcome.raised.inj h)
  reason _ message h := absurd (Outcome.raised.inj h) (he message)

/-- The runs that both reach the later gates, holding the slot `lent`. -/
theorem entered_rejects (c : AdmissionController) (s lent u : State) (call : Call) (slot : Bool)
    (ws : List ResponseWarning) (clean : Clean ws)
    (path : ∀ b, admitCall c s (flagged call b) = afterSlot c lent (flagged call b) slot ws)
    (tracker : lent.tracker = s.tracker)
    (back : (if slot then lent.releasePermit call.model else some lent) = some u)
    (same : Untouched c s u) :
    ∃ t o t' o', admitAlone c s (flagged call false) = some (t, o) ∧
      admitAlone c s (flagged call true) = some (t', o') ∧ OnlyRejects c s call t o t' o' := by
  have hok (b : Bool) (result : AdmissionResult) (h : gates c call.model
      (withStrict call.request.val b) call.engine ws (lent.tracker call.model) = .ok result) :=
    admitAlone_done c s _ _ _ ((path b).trans (afterSlot_ok c lent (flagged call b) slot ws
      result h)) (by simp)
  have herror (b : Bool) (e : PyError) (h : gates c call.model
      (withStrict call.request.val b) call.engine ws (lent.tracker call.model) = .error e) :=
    admitAlone_done c s _ _ _ ((path b).trans (afterSlot_error c lent u (flagged call b) slot ws
      e h back)) (by simp)
  have hreason := gates_reason c call.model call.request.val call.engine ws
    (lent.tracker call.model)
  have hlenient := gates_lenient c call.model call.request.val call.engine ws
    (lent.tracker call.model)
  have hfollow := gates_follow c call.model call.request.val call.engine ws
    (lent.tracker call.model) clean
  generalize hx : gates c call.model (withStrict call.request.val false) call.engine ws
    (lent.tracker call.model) = x at hfollow hlenient
  generalize hy : gates c call.model (withStrict call.request.val true) call.engine ws
    (lent.tracker call.model) = y at hfollow hreason
  rw [tracker] at hreason
  cases hfollow with
  | same result hclean =>
    refine ⟨_, _, _, _, hok false result hx, hok true result hy, ?_⟩
    refine ⟨by simp [hclean], ?_, ?_, by simp, by simp, by simp⟩
    · rintro r h -
      exact ⟨h, rfl⟩
    · intro r h hdirty
      obtain rfl := Outcome.returned.inj h
      exact absurd hclean hdirty
  | violation result message hdirty =>
    refine ⟨_, _, _, _, hok false result hx, herror true _ hy, ?_⟩
    refine ⟨by simp [hdirty], ?_, fun _ _ _ => ⟨⟨message, rfl⟩, same⟩, by simp, by simp, ?_⟩
    · intro r h hclean
      obtain rfl := Outcome.returned.inj h
      exact absurd hclean hdirty
    · intro hown m h
      exact hreason hown m (congrArg Except.error (Outcome.raised.inj h))
  | error e e' =>
    refine ⟨_, _, _, _, herror false e hx, herror true e' hy, ?_⟩
    refine ⟨by simp, by simp, by simp, fun _ _ => ⟨e', rfl⟩, ?_, ?_⟩
    · intro hown m h
      exact hlenient hown m (congrArg Except.error (Outcome.raised.inj h))
    · intro hown m h
      exact hreason hown m (congrArg Except.error (Outcome.raised.inj h))

/-- From any reachable state with a free slot, `strict` only turns admissions
with a substitution into violations. -/
theorem strict_only_rejects (c : AdmissionController) (s : State) (call : Call)
    (hreach : Reachable (step c) initial s) (hslot : SlotAvailable c s call.model) :
    ∃ t o t' o', admitAlone c s (flagged call false) = some (t, o) ∧
      admitAlone c s (flagged call true) = some (t', o') ∧ OnlyRejects c s call t o t' o' := by
  cases admit_meeting c s call hreach hslot with
  | refused e path lenient =>
    exact ⟨s, .raised e, s, .raised e, admitAlone_done c s s _ _ (path false) (by simp),
      admitAlone_done c s s _ _ (path true) (by simp), raised_both c s s s call e lenient⟩
  | expired u path =>
    exact ⟨_, _, _, _, admitAlone_expired c s u _ (path false),
      admitAlone_expired c s u _ (path true),
      raised_both c s _ _ call _ (by simp [noSlotFreed])⟩
  | entered lent u slot ws clean path tracker back same =>
    exact entered_rejects c s lent u call slot ws clean path tracker back same

/-- A request for 100 tokens where the KV budget has 80 left: clamped, or
rejected under `strict`. -/
theorem strict_only_rejects_clamp : ∃ t o t' o',
    admitAlone smallController initial (flagged ⟨0, "m", helloRequest,
      countingEngine 10 (some 100)⟩ false) = some (t, o) ∧
    admitAlone smallController initial (flagged ⟨0, "m", helloRequest,
      countingEngine 10 (some 100)⟩ true) = some (t', o') ∧
    OnlyRejects smallController initial ⟨0, "m", helloRequest, countingEngine 10 (some 100)⟩
      t o t' o' :=
  strict_only_rejects smallController initial _ ⟨[], [], rfl⟩ (show (0 : ℤ) < 1 by decide)

example : (admitAlone smallController initial (flagged ⟨0, "m", helloRequest,
    countingEngine 10 (some 100)⟩ false)).map (fun x => x.2) = some (.returned
      ⟨80, 90, [clampedToKvBudget 100 80]⟩) := by decide +kernel

end InferenceX.StrictMode
