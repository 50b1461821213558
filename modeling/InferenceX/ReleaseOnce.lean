import InferenceX.StreamSteps

/-!
# A reservation is released exactly once

Between `admit` and the end of the `try` the generator owes one release. Every
way out of the `try` passes the `finally`, which awaits `gen.aclose()` before
it releases: when that await raises or is cancelled, the release is skipped.
`complete` has no await in its `finally`.
-/

set_option autoImplicit false

namespace InferenceX.ReleaseOnce
open Library.StepRuns
open InferenceX.PythonValues InferenceX.ChatSchema InferenceX.AdmissionGates
open InferenceX.ChatDispatch InferenceX.StreamEvents InferenceX.StreamMachine InferenceX.StreamSteps

variable {E : Type}

/-- Each admission has been given back once, with its own reservation, to the
model it was made for. -/
def ReleasedOnce (job : Job E) (results : List AdmissionResult) (os : List (Output E)) : Prop :=
  releases os = results.map fun result => (routed job, result.reservedTokens)

/-- The books of a run so far: nothing owed before admission, one release owed
inside the `try`, and afterwards either all settled or the close failed. -/
def Settled (job : Job E) (es : List Input) (os : List (Output E)) (pc : Pc E) : Prop :=
  match phase pc with
  | .before => (∀ model engine, pc = .admitting model engine → model = routed job) ∧
      admissions es = [] ∧ releases os = [] ∧ closeFailed es = false
  | .inside a => a.model = routed job ∧
      admissions es = [a.result] ∧ releases os = [] ∧ closeFailed es = false
  | .after => ReleasedOnce job (admissions es) os ∧ closeFailed es = false ∨
      (∃ result, admissions es = [result]) ∧ releases os = [] ∧ closeFailed es = true

theorem step_settled (job : Job E) (es : List Input) (os os' : List (Output E)) (pc pc' : Pc E)
    (e : Input) (h : Settled job es os pc) (hstep : step job pc e = some (pc', os')) :
    Settled job (es++[e]) (os++os') pc' := by
  cases step_move job pc pc' e os' hstep with
  | before _ _ _ hp hp' routing bare =>
    simp only [Settled, hp] at h
    obtain ⟨-, hadm, hrel, hclose⟩ := h
    rcases hp' with hp' | hp' <;>
      simp only [Settled, hp', admissions_append, closeFailed_append, bare.1, bare.2, hadm, hrel,
        hclose, List.append_nil, ReleasedOnce]
    · exact ⟨fun m g h => (resolveEngine_ok _ _ _ _ (routing m g h)).1, by simp⟩
    · exact Or.inl (by simp)
  | granted model engine result _ _ hp' quiet about =>
    obtain ⟨hm, hadm, hrel, hclose⟩ := h
    simp only [Settled, hp', admissions_append, closeFailed_append, releases_append, hadm, hrel,
      hclose, quiet]
    exact ⟨hm model engine rfl, rfl, rfl, rfl⟩
  | unset model engine result _ hp' =>
    obtain ⟨hm, hadm, hrel, hclose⟩ := h
    simp only [Settled, hp', admissions_append, closeFailed_append, releases_append, hadm, hrel,
      hclose, ReleasedOnce]
    exact Or.inl ⟨by rw [← hm model engine rfl]; rfl, rfl⟩
  | inside a _ _ _ _ hp hp' quiet about bare =>
    simp only [Settled, hp] at h
    obtain ⟨hm, hadm, hrel, hclose⟩ := h
    simp only [Settled, hp', admissions_append, closeFailed_append, releases_append, bare.1,
      bare.2, hadm, hrel, hclose, quiet]
    exact ⟨hm, rfl, rfl, rfl⟩
  | leave a _ _ _ _ hp hp' given about bare =>
    simp only [Settled, hp] at h
    obtain ⟨hm, hadm, hrel, hclose⟩ := h
    simp only [Settled, hp', admissions_append, closeFailed_append, releases_append, bare.1,
      bare.2, hadm, hrel, hclose, given, ReleasedOnce]
    exact Or.inl ⟨by rw [hm]; rfl, rfl⟩
  | leak a exit x _ hp' =>
    obtain ⟨-, hadm, hrel, hclose⟩ := h
    simp only [Settled, hp', admissions_append, closeFailed_append, hadm, hrel, hclose,
      List.append_nil]
    exact Or.inr ⟨⟨_, rfl⟩, by simp [closeFailed]⟩
  | after _ _ _ hp hp' bare =>
    simp only [Settled, hp] at h
    simpa only [Settled, hp', admissions_append, closeFailed_append, bare.1, bare.2,
      List.append_nil, Bool.or_false] using h

theorem run_settled (job : Job E) (es : List Input) (oss : List (List (Output E))) (pc : Pc E)
    (h : run (step job) .created es = some (pc, oss)) : Settled job es oss.flatten pc := by
  refine run_history (fun es oss pc => Settled job es oss.flatten pc) ?_ .created pc es oss ?_ h
  · intro es oss pc e pc' os hs hstep
    simpa using step_settled job es oss.flatten os pc pc' e hs hstep
  · exact ⟨by simp, rfl, rfl, rfl⟩

def CompleteSettled (job : Job E) (es : List CompleteInput) (os : List (Output E)) :
    CompletePc E → Prop
  | .created => completeAdmissions es = [] ∧ releases os = []
  | .admitting model _ => model = routed job ∧ completeAdmissions es = [] ∧ releases os = []
  | .generating a => a.model = routed job ∧ completeAdmissions es = [a.result] ∧ releases os = []
  | .finished _ => ReleasedOnce job (completeAdmissions es) os

theorem completeStep_settled (job : Job E) (es : List CompleteInput) (os os' : List (Output E))
    (pc pc' : CompletePc E) (e : CompleteInput) (h : CompleteSettled job es os pc)
    (hstep : completeStep job pc e = some (pc', os')) :
    CompleteSettled job (es++[e]) (os++os') pc' := by
  cases pc with
  | created =>
    cases e with
    | start =>
      simp only [completeStep] at hstep
      split at hstep
      · obtain ⟨rfl, rfl⟩ := step_inj hstep
        simp [CompleteSettled, ReleasedOnce, completeAdmissions_append, h.1, h.2,
          completeAdmissions]
      · rename_i hres
        obtain ⟨rfl, rfl⟩ := step_inj hstep
        refine ⟨(resolveEngine_ok _ _ _ _ hres).1, ?_, ?_⟩
        · simp [completeAdmissions_append, h.1, completeAdmissions]
        · simp [h.2]
    | _ => cases hstep
  | admitting model engine =>
    obtain ⟨hm, hadm, hrel⟩ := h
    cases e with
    | admitted result =>
      obtain ⟨rfl, rfl⟩ := step_inj hstep
      refine ⟨hm, ?_, ?_⟩
      · simp [completeAdmissions_append, hadm, completeAdmissions]
      · simp [hrel, releases]
    | admitRaised x =>
      obtain ⟨rfl, rfl⟩ := step_inj hstep
      simp [CompleteSettled, ReleasedOnce, completeAdmissions_append, hadm, hrel,
        completeAdmissions]
    | _ => cases hstep
  | generating a =>
    obtain ⟨hm, hadm, hrel⟩ := h
    cases e with
    | generated response =>
      obtain ⟨rfl, rfl⟩ := step_inj hstep
      simp [CompleteSettled, ReleasedOnce, completeAdmissions_append, hadm, hrel,
        completeAdmissions, Admitted.release, releases, hm]
    | generateRaised x =>
      obtain ⟨rfl, rfl⟩ := step_inj hstep
      simp [CompleteSettled, ReleasedOnce, completeAdmissions_append, hadm, hrel,
        completeAdmissions, Admitted.release, releases, hm]
    | _ => cases hstep
  | finished exit => cases e <;> cases hstep

theorem run_completeSettled (job : Job E) (es : List CompleteInput)
    (oss : List (List (Output E))) (pc : CompletePc E)
    (h : run (completeStep job) .created es = some (pc, oss)) :
    CompleteSettled job es oss.flatten pc := by
  refine run_history (fun es oss pc => CompleteSettled job es oss.flatten pc) ?_
    .created pc es oss ⟨rfl, rfl⟩ h
  intro es oss pc e pc' os hs hstep
  simpa using completeStep_settled job es oss.flatten os pc pc' e hs hstep

/-- A finished stream has released its admission exactly once if and only if
closing the engine's iterator did not fail; a finished `complete` always has. -/
theorem released_once_iff (job : Job E) :
    (∀ es oss exit, run (step job) .created es = some (.finished exit, oss) →
      (ReleasedOnce job (admissions es) oss.flatten ↔ closeFailed es = false)) ∧
    ∀ es oss exit, run (completeStep job) .created es = some (.finished exit, oss) →
      ReleasedOnce job (completeAdmissions es) oss.flatten := by
  refine ⟨fun es oss exit h => ?_, fun es oss exit h => run_completeSettled job es oss _ h⟩
  rcases run_settled job es oss _ h with ⟨hr, hc⟩ | ⟨⟨result, hadm⟩, hrel, hc⟩
  · exact ⟨fun _ => hc, fun _ => hr⟩
  · refine ⟨fun hr => ?_, fun hc' => ?_⟩
    · rw [ReleasedOnce, hadm, hrel] at hr
      cases hr
    · rw [hc] at hc'
      cases hc'

def helloChunk : ChatStreamChunk := ⟨"Hi", none, none, none⟩

/-- The client disconnects at a content event; `last` is what the close answers. -/
def disconnected (last : Input) : List Input :=
  [.next, .admitted helloResult, .next, .chunk helloChunk, .throw .generatorExit, last]

theorem released_once_iff_closed : ∃ oss exit,
    run (step helloJob) .created (disconnected .closed) = some (.finished exit, oss) ∧
    ReleasedOnce helloJob (admissions (disconnected .closed)) oss.flatten :=
  ⟨_, _, rfl, ((released_once_iff helloJob).1 (disconnected .closed) _ _ rfl).mpr rfl⟩

/-- The close is cancelled as well, and nothing is released. -/
theorem cancelled_close_leaks : ∃ oss exit,
    run (step helloJob) .created (disconnected (.closeRaised .cancelledError)) =
      some (.finished exit, oss) ∧
    ¬ ReleasedOnce helloJob (admissions (disconnected (.closeRaised .cancelledError)))
      oss.flatten :=
  ⟨_, _, rfl, fun h => by cases h⟩

end InferenceX.ReleaseOnce
