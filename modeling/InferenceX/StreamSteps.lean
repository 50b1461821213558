import InferenceX.StreamMachine

/-!
# What one step of the generator can do

A step is told by the phase it starts in: before admission, inside the `try`,
or after it. Inside, every output is about the admission the generator holds;
leaving the `try` releases it, except where the close of the engine's iterator
raised.
-/

set_option autoImplicit false

namespace InferenceX.StreamSteps
open Library.StepRuns
open InferenceX.PythonValues InferenceX.ChatSchema InferenceX.AdmissionGates
open InferenceX.ChatDispatch InferenceX.StreamEvents InferenceX.StreamMachine

variable {E : Type}

def admissions : List Input → List AdmissionResult
  | [] => []
  | .admitted result::es => result::admissions es
  | _::es => admissions es

def closeFailed : List Input → Bool
  | [] => false
  | .closeRaised _::_ => true
  | _::es => closeFailed es

def routed (job : Job E) : String := job.service.router.select job.request.val

theorem admissions_append (es fs : List Input) :
    admissions (es++fs) = admissions es++admissions fs := by
  induction es with
  | nil => rfl
  | cons e es ih => cases e <;> simp [admissions, ih]

theorem closeFailed_append (es fs : List Input) :
    closeFailed (es++fs) = (closeFailed es || closeFailed fs) := by
  induction es with
  | nil => rfl
  | cons e es ih => cases e <;> simp [closeFailed, ih]

def completeAdmissions : List CompleteInput → List AdmissionResult
  | [] => []
  | .admitted result::es => result::completeAdmissions es
  | _::es => completeAdmissions es

theorem completeAdmissions_append (es fs : List CompleteInput) :
    completeAdmissions (es++fs) = completeAdmissions es++completeAdmissions fs := by
  induction es with
  | nil => rfl
  | cons e es ih => cases e <;> simp [completeAdmissions, ih]

inductive Phase (E : Type) where
  | before
  | inside (a : Admitted E)
  | after

def phase : Pc E → Phase E
  | .created => .before
  | .admitting _ _ => .before
  | .prologue a => .inside a
  | .pulling a => .inside a
  | .content a _ => .inside a
  | .terminal a _ => .inside a
  | .usage a => .inside a
  | .timedOut a => .inside a
  | .closing a _ => .inside a
  | .done => .after
  | .finished _ => .after

/-- An output that shows or uses the admission `a`: the prologue reports its
effective request, and the engine is invoked with it. -/
def About (job : Job E) (a : Admitted E) : Output E → Prop
  | .event (.prologue _ block warnings) =>
    block = resolved (job.effective a) ∧ warnings = a.result.warnings
  | .invoke model engine effective =>
    model = a.model ∧ engine = a.engine ∧ effective = job.effective a
  | _ => True

def Bare (e : Input) : Prop := admissions [e] = [] ∧ closeFailed [e] = false

inductive Move (job : Job E) : Pc E → Input → Pc E → List (Output E) → Prop
  | before (pc pc' : Pc E) (e : Input) (hp : phase pc = .before)
      (hp' : phase pc' = .before ∨ phase pc' = .after)
      (routing : ∀ model engine, pc' = .admitting model engine →
        job.service.resolveEngine job.request.val = .ok (model, engine))
      (bare : Bare e) : Move job pc e pc' []
  | granted (model : String) (engine : E) (result : AdmissionResult) (pc' : Pc E)
      (os : List (Output E)) (hp' : phase pc' = .inside ⟨model, engine, result⟩)
      (quiet : releases os = []) (about : ∀ o ∈ os, About job ⟨model, engine, result⟩ o) :
      Move job (.admitting model engine) (.admitted result) pc' os
  | unset (model : String) (engine : E) (result : AdmissionResult) (pc' : Pc E)
      (hp' : phase pc' = .after) : Move job (.admitting model engine) (.admitted result) pc'
        [.release model result.reservedTokens]
  | inside (a : Admitted E) (pc pc' : Pc E) (e : Input) (os : List (Output E))
      (hp : phase pc = .inside a) (hp' : phase pc' = .inside a) (quiet : releases os = [])
      (about : ∀ o ∈ os, About job a o) (bare : Bare e) : Move job pc e pc' os
  | leave (a : Admitted E) (pc pc' : Pc E) (e : Input) (os : List (Output E))
      (hp : phase pc = .inside a) (hp' : phase pc' = .after)
      (given : releases os = [(a.model, a.result.reservedTokens)])
      (about : ∀ o ∈ os, About job a o) (bare : Bare e) : Move job pc e pc' os
  | leak (a : Admitted E) (exit : Option PyError) (e : PyError) (pc' : Pc E)
      (hp' : phase pc' = .after) : Move job (.closing a exit) (.closeRaised e) pc' []
  | after (pc pc' : Pc E) (e : Input) (hp : phase pc = .after) (hp' : phase pc' = .after)
      (bare : Bare e) : Move job pc e pc' []

structure Stays (job : Job E) (a : Admitted E) (r : Pc E × List (Output E)) : Prop where
  phase : phase r.1 = .inside a
  quiet : releases r.2 = []
  about : ∀ o ∈ r.2, About job a o

theorem Stays.move {job : Job E} {a : Admitted E} {r : Pc E × List (Output E)} (hin : Stays job a r)
    {pc pc' : Pc E} {e : Input} {os : List (Output E)} (h : some r = some (pc', os))
    (hp : StreamSteps.phase pc = .inside a) (bare : Bare e) : Move job pc e pc' os := by
  obtain rfl := Option.some.inj h
  exact .inside a pc pc' e os hp hin.phase hin.quiet hin.about bare

section Inside
variable (job : Job E) (a : Admitted E) (c : ChatStreamChunk)

theorem afterContent_inside : Stays job a (afterContent job a c) := by
  rw [afterContent]
  split <;> exact ⟨rfl, rfl, by simp [About]⟩

theorem afterPull_inside : Stays job a (afterPull job a c) := by
  rw [afterPull]
  split_ifs
  · exact afterContent_inside job a c
  · exact ⟨rfl, rfl, by simp [About]⟩

theorem afterTerminal_inside : Stays job a (afterTerminal job a c) := by
  rw [afterTerminal]
  split
  · exact ⟨rfl, rfl, by simp⟩
  · split_ifs <;> exact ⟨rfl, rfl, by simp [About]⟩

theorem afterPullRaised_inside (e : PyError) : Stays job a (afterPullRaised job a e) := by
  cases e with
  | timeoutError =>
    simp only [afterPullRaised]
    split <;> exact ⟨rfl, rfl, by simp [About]⟩
  | _ => exact ⟨rfl, rfl, by simp [afterPullRaised]⟩

theorem afterClosed_after (exit : Option PyError) : phase (afterClosed a exit).1 = .after ∧
    releases (afterClosed a exit).2 = [(a.model, a.result.reservedTokens)] ∧
    ∀ o ∈ (afterClosed a exit).2, About job a o := by
  cases exit <;> exact ⟨rfl, rfl, by simp [afterClosed, Admitted.release, About]⟩

/-- What is thrown in at a rest inside goes to the close of the stream. -/
theorem thrown_inside (x : PyError) : Stays job a (.closing a (some x), []) :=
  ⟨rfl, rfl, List.forall_mem_nil _⟩

end Inside

theorem step_move (job : Job E) (pc pc' : Pc E) (e : Input) (os : List (Output E))
    (h : step job pc e = some (pc', os)) : Move job pc e pc' os := by
  have hbare : ∀ x, Bare (.throw x) := fun _ => ⟨rfl, rfl⟩
  cases pc with
  | created =>
    cases e with
    | next =>
      simp only [step] at h
      split at h
      · obtain ⟨rfl, rfl⟩ := step_inj h
        exact .before _ _ _ rfl (Or.inr rfl) (by simp) ⟨rfl, rfl⟩
      · rename_i model engine hres
        obtain ⟨rfl, rfl⟩ := step_inj h
        refine .before _ _ _ rfl (Or.inl rfl) ?_ ⟨rfl, rfl⟩
        intro m g hm
        obtain ⟨rfl, rfl⟩ := Pc.admitting.inj hm
        exact hres
    | throw x =>
      obtain ⟨rfl, rfl⟩ := step_inj h
      exact .before _ _ _ rfl (Or.inr rfl) (by simp) (hbare x)
    | _ => cases h
  | admitting model engine =>
    cases e with
    | admitted result =>
      simp only [step] at h
      split at h
      · obtain ⟨rfl, rfl⟩ := step_inj h
        exact .unset _ _ _ _ rfl
      · obtain ⟨rfl, rfl⟩ := step_inj h
        exact .granted _ _ _ _ _ rfl rfl (by simp [About, prologueEvent])
    | admitRaised x =>
      obtain ⟨rfl, rfl⟩ := step_inj h
      exact .before _ _ _ rfl (Or.inr rfl) (by simp) ⟨rfl, rfl⟩
    | _ => cases h
  | prologue a =>
    cases e with
    | next =>
      simp only [step] at h
      split at h
      · obtain ⟨rfl, rfl⟩ := step_inj h
        exact .leave a _ _ _ _ rfl rfl rfl (by simp [About, Admitted.release]) ⟨rfl, rfl⟩
      · obtain ⟨rfl, rfl⟩ := step_inj h
        exact .inside a _ _ _ _ rfl rfl rfl (by simp [About]) ⟨rfl, rfl⟩
    | throw x =>
      obtain ⟨rfl, rfl⟩ := step_inj h
      exact .leave a _ _ _ _ rfl rfl rfl (by simp [About, Admitted.release]) (hbare x)
    | _ => cases h
  | pulling a =>
    cases e with
    | chunk c =>
      exact (afterPull_inside job a c).move h rfl ⟨rfl, rfl⟩
    | pullRaised x =>
      exact (afterPullRaised_inside job a x).move h rfl ⟨rfl, rfl⟩
    | _ => cases h
  | content a c =>
    cases e with
    | next =>
      exact (afterContent_inside job a c).move h rfl ⟨rfl, rfl⟩
    | throw x =>
      exact (thrown_inside job a x).move h rfl (hbare x)
    | _ => cases h
  | terminal a c =>
    cases e with
    | next =>
      exact (afterTerminal_inside job a c).move h rfl ⟨rfl, rfl⟩
    | throw x =>
      exact (thrown_inside job a x).move h rfl (hbare x)
    | _ => cases h
  | usage a =>
    cases e with
    | next =>
      obtain ⟨rfl, rfl⟩ := step_inj h
      exact .inside a _ _ _ _ rfl rfl rfl (by simp [About]) ⟨rfl, rfl⟩
    | throw x =>
      exact (thrown_inside job a x).move h rfl (hbare x)
    | _ => cases h
  | timedOut a =>
    cases e with
    | next =>
      obtain ⟨rfl, rfl⟩ := step_inj h
      exact .inside a _ _ _ _ rfl rfl rfl (by simp [About]) ⟨rfl, rfl⟩
    | throw x =>
      exact (thrown_inside job a x).move h rfl (hbare x)
    | _ => cases h
  | closing a exit =>
    cases e with
    | closed =>
      have hout := afterClosed_after job a exit
      rw [Option.some.inj h] at hout
      exact .leave a _ _ _ _ rfl hout.1 hout.2.1 hout.2.2 ⟨rfl, rfl⟩
    | closeRaised x =>
      obtain ⟨rfl, rfl⟩ := step_inj h
      exact .leak a exit x _ rfl
    | _ => cases h
  | done =>
    cases e with
    | next =>
      obtain ⟨rfl, rfl⟩ := step_inj h
      exact .after _ _ _ rfl rfl ⟨rfl, rfl⟩
    | throw x =>
      obtain ⟨rfl, rfl⟩ := step_inj h
      exact .after _ _ _ rfl rfl (hbare x)
    | _ => cases h
  | finished exit => cases e <;> cases h

end InferenceX.StreamSteps
