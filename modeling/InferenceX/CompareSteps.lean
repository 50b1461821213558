import InferenceX.ComparePanels

/-!
# What a step of the compare playground does

One lemma for each invariant reads a step: the lock of the input is held
while a submission runs, and a step either leaves the streams alone or is one
of seven changes of them, with what it writes into the panels.
-/

set_option autoImplicit false

namespace InferenceX.CompareSteps
open Library.StepRuns Library.TextLines
open InferenceX.ComparePanels

structure Lock (s : CompareApp) : Prop where
  held : s.inFlight = s.worker.isSome
  disabled : s.inFlight = true → s.inputDisabled = true
  waiting : s.queued.isSome = true → s.worker = none ∧ s.inputDisabled = false
  chosen : s.inputDisabled = false ∨ s.inFlight = true → s.compare.isSome = true

theorem gatherEnded_lock (s : CompareApp) (hs : Lock s) : Lock s.gatherEnded := by
  rw [CompareApp.gatherEnded]
  split
  · rename_i prompt hw
    split_ifs
    · exact hs
    · have hheld := hs.held
      rw [hw] at hheld
      exact ⟨hheld, hs.disabled, fun hq => absurd (hs.waiting hq).1 (by simp [hw]), hs.chosen⟩
  · exact hs

theorem gatherFailed_lock (s : CompareApp) (submission : ℕ) (failure : Failure) (hs : Lock s) :
    Lock (s.gatherFailed submission failure) := by
  rw [CompareApp.gatherFailed]
  split
  · rename_i prompt hw
    split_ifs
    · have hheld := hs.held
      rw [hw] at hheld
      exact ⟨hheld, hs.disabled, fun hq => absurd (hs.waiting hq).1 (by simp [hw]), hs.chosen⟩
    · exact hs
  · exact hs

theorem lock_step (s t : CompareApp) (e : Event) (o : List (Side × Write)) (hs : Lock s)
    (h : step s e = some (t, o)) : Lock t := by
  replace h := step_handle s t e o h
  cases e with
  | selected models =>
    cases hc : s.compare with
    | some pair => simp [handle, hc] at h
    | none =>
      have hidle : ¬ (s.inputDisabled = false ∨ s.inFlight = true) := fun hopen => by
        simpa [hc] using hs.chosen hopen
      cases models <;> simp only [handle, hc] at h <;> obtain ⟨rfl, rfl⟩ := step_inj h
      · exact ⟨hs.held, hs.disabled, hs.waiting, fun hopen => absurd hopen hidle⟩
      · exact ⟨hs.held, hs.disabled, hs.waiting, fun _ => rfl⟩
  | loaded ok healthy =>
    rw [handle] at h
    split_ifs at h with hloading
    obtain ⟨rfl, rfl⟩ := step_inj h
    have hrest : s.inFlight = false := by simpa using hloading.2.1
    refine ⟨hs.held, fun hf => by simp [hrest] at hf, fun hq => ?_, fun _ => hloading.2.2⟩
    exact absurd (hs.waiting hq).2 (by simp [hloading.1])
  | submitted value =>
    rw [handle] at h
    split_ifs at h with hopen hflight hblank <;> obtain ⟨rfl, rfl⟩ := step_inj h
    · exact hs
    · exact ⟨hs.held, hs.disabled, hs.waiting, hs.chosen⟩
    · have hrest : s.inFlight = false := by simpa using hflight
      refine ⟨hs.held, hs.disabled, fun _ => ⟨?_, ?_⟩, hs.chosen⟩
      · simpa [hrest] using hs.held.symm
      · simpa [CompareApp.open, hrest] using hopen
  | workerRuns =>
    obtain ⟨prompt, hq, h⟩ := Option.map_eq_some_iff.mp h
    obtain ⟨rfl, rfl⟩ := Prod.mk.inj h
    have hready := (hs.waiting (by simp [hq])).2
    exact ⟨rfl, fun _ => rfl, nofun, fun _ => hs.chosen (Or.inl hready)⟩
  | refreshed healthy =>
    rw [handle] at h
    split at h
    · rename_i prompt hw
      have hflight : s.inFlight = true := by rw [hs.held, hw]; rfl
      split at h
      · rename_i hc
        simpa [hc] using hs.chosen (Or.inr hflight)
      · rename_i models hc
        obtain ⟨rfl, rfl⟩ := step_inj h
        refine ⟨hflight, fun _ => hs.disabled hflight, fun hq => ?_, fun _ => by
          rw [CompareApp.setModels, hc]; rfl⟩
        exact absurd (hs.waiting hq).1 (by simp [hw])
    · cases h
  | begins submission side now =>
    rw [handle] at h
    split at h
    · split_ifs at h
      obtain ⟨rfl, rfl⟩ := step_inj h
      exact ⟨hs.held, hs.disabled, hs.waiting, hs.chosen⟩
    · cases h
  | token submission side text =>
    rw [handle] at h
    split at h
    · split_ifs at h
      obtain ⟨rfl, rfl⟩ := step_inj h
      exact ⟨hs.held, hs.disabled, hs.waiting, hs.chosen⟩
    · cases h
  | ends submission side now =>
    rw [handle] at h
    split at h
    · split_ifs at h <;> obtain ⟨rfl, rfl⟩ := step_inj h <;>
        exact gatherEnded_lock _ ⟨hs.held, hs.disabled, hs.waiting, hs.chosen⟩
    · cases h
  | fails submission side failure =>
    rw [handle] at h
    split at h
    · split_ifs at h
      obtain ⟨rfl, rfl⟩ := step_inj h
      exact gatherFailed_lock _ _ _ ⟨hs.held, hs.disabled, hs.waiting, hs.chosen⟩
    · cases h
  | resumes now =>
    rw [handle] at h
    split at h
    · rename_i prompt outcome hw
      split_ifs at h
      obtain ⟨rfl, rfl⟩ := step_inj h
      have hflight : s.inFlight = true := by rw [hs.held, hw]; rfl
      have hchosen := hs.chosen (Or.inr hflight)
      cases outcome with
      | none => exact ⟨rfl, nofun, fun _ => ⟨rfl, rfl⟩, fun _ => hchosen⟩
      | some failure =>
        cases failure <;> exact ⟨rfl, nofun, fun _ => ⟨rfl, rfl⟩, fun _ => hchosen⟩
    · cases h
  | clears =>
    obtain ⟨rfl, rfl⟩ := step_inj h
    exact ⟨hs.held, hs.disabled, hs.waiting, hs.chosen⟩
  | quits =>
    obtain ⟨rfl, rfl⟩ := step_inj h
    exact ⟨hs.held, hs.disabled, hs.waiting, hs.chosen⟩

/-- The writes into one panel: whose stream started last, and what stands there since it was
last emptied or took an error. -/
structure Trace where
  owner : Option ℕ
  base : String
  tokens : List (ℕ × String)

def Trace.blank : Trace := ⟨none, "", []⟩

def Trace.write (w : Trace) : Write → Trace
  | .started submission => ⟨some submission, "", []⟩
  | .cleared => ⟨w.owner, "", []⟩
  | .token submission text => { w with tokens := w.tokens++[(submission, text)] }
  | .error message => ⟨w.owner, message, []⟩

def Trace.text (w : Trace) : String := (w.tokens.map Prod.snd).foldl (· ++ ·) w.base

def traceOf (side : Side) (ws : List (Side × Write)) : Trace :=
  ((ws.filter fun w => w.1 = side).map Prod.snd).foldl Trace.write .blank

theorem traceOf_append (side : Side) (ws vs : List (Side × Write)) :
    traceOf side (ws++vs) =
      ((vs.filter fun w => w.1 = side).map Prod.snd).foldl Trace.write (traceOf side ws) := by
  simp [traceOf]

theorem traceOf_other (side side' : Side) (ws : List (Side × Write)) (w : Write)
    (hne : side' ≠ side) : traceOf side (ws++[(side', w)]) = traceOf side ws := by
  simp [traceOf_append, hne]

theorem traceOf_same (side : Side) (ws : List (Side × Write)) (w : Write) :
    traceOf side (ws++[(side, w)]) = (traceOf side ws).write w := by
  simp [traceOf_append]

def Streaming (s : CompareApp) : Prop := ∃ prompt, s.worker = some (.streaming prompt)

def Busy (s : CompareApp) : Prop :=
  Streaming s ∨ ∃ prompt outcome, s.worker = some (.gathered prompt outcome)

inductive Change (s t : CompareApp) : Event → List (Side × Write) → Prop where
  | quiet (e : Event) (ht : t.tasks = s.tasks) (hn : t.submissions = s.submissions)
      (hw : Streaming t ↔ Streaming s) (hb : Busy t ↔ Busy s)
      (hc : ∀ side, (t.panels side).content = (s.panels side).content) : Change s t e []
  | gathers (healthy : Bool) (prompt : String) (hs : ¬ Busy s) (hw : Streaming t)
      (ht : t.tasks = s.tasks++newTasks (s.submissions+1) prompt)
      (hn : t.submissions = s.submissions+1)
      (hc : ∀ side, (t.panels side).content = (s.panels side).content) :
      Change s t (.refreshed healthy) []
  | begins (submission : ℕ) (side : Side) (now : ℚ) (task : StreamTask)
      (hf : s.find submission side = some task) (hb : task.begun = false)
      (ht : t.tasks = (s.begin submission side).tasks) (hn : t.submissions = s.submissions)
      (hw : t.worker = s.worker) (hc : (t.panels side).content = "")
      (ho : (t.panels side.other).content = (s.panels side.other).content) :
      Change s t (.begins submission side now) [(side, .started submission)]
  | token (submission : ℕ) (side : Side) (text : String) (task : StreamTask)
      (hf : s.find submission side = some task) (hb : task.begun = true)
      (ht : t.tasks = s.tasks) (hn : t.submissions = s.submissions) (hw : t.worker = s.worker)
      (hc : (t.panels side).content = (s.panels side).content ++ text)
      (ho : (t.panels side.other).content = (s.panels side.other).content) :
      Change s t (.token submission side text) [(side, .token submission text)]
  | ends (submission : ℕ) (side : Side) (now : ℚ) (task : StreamTask) (o : List (Side × Write))
      (hf : s.find submission side = some task)
      (ht : t.tasks = (s.drop submission side).tasks) (hn : t.submissions = s.submissions)
      (hw : Streaming t ↔ Streaming s ∧ ∃ task ∈ t.tasks, task.submission = s.submissions)
      (hb : Busy t ↔ Busy s)
      (hc : o = [] ∧ (t.panels side).content = (s.panels side).content ∨
        ∃ message, o = [(side, .error message)] ∧ (t.panels side).content = message)
      (ho : (t.panels side.other).content = (s.panels side.other).content) :
      Change s t (.ends submission side now) o
  | fails (submission : ℕ) (side : Side) (failure : Failure) (task : StreamTask)
      (hf : s.find submission side = some task)
      (ht : t.tasks = (s.drop submission side).tasks) (hn : t.submissions = s.submissions)
      (hw : Streaming t ↔ Streaming s ∧ submission ≠ s.submissions) (hb : Busy t ↔ Busy s)
      (hc : ∀ side, (t.panels side).content = (s.panels side).content) :
      Change s t (.fails submission side failure) []
  | resumes (now : ℚ) (hs : ¬ Streaming s) (hb : ∀ task ∈ s.tasks, task.begun = true)
      (ht : t.tasks = s.tasks) (hn : t.submissions = s.submissions) (hw : ¬ Busy t)
      (hc : ∀ side, (t.panels side).content = (s.panels side).content) :
      Change s t (.resumes now) []
  | clears (ht : t.tasks = s.tasks) (hn : t.submissions = s.submissions)
      (hw : t.worker = s.worker) (hc : ∀ side, (t.panels side).content = "") :
      Change s t .clears [(.a, .cleared), (.b, .cleared)]

theorem other_ne (side : Side) : side.other ≠ side := by cases side <;> decide

theorem side_cases (side side' : Side) : side' = side ∨ side' = side.other := by
  cases side <;> cases side' <;> simp [Side.other]

theorem setModels_content (s : CompareApp) (models : String × String) (side : Side) :
    ((s.setModels models).panels side).content = (s.panels side).content := by
  cases side <;> rfl

theorem setPanel_same (s : CompareApp) (side : Side) (p : ResponsePanel) :
    (s.setPanel side p).panels side = p := if_pos rfl

theorem setPanel_other (s : CompareApp) (side : Side) (p : ResponsePanel) :
    (s.setPanel side p).panels side.other = s.panels side.other := if_neg (other_ne side)

theorem gatherEnded_fields (s : CompareApp) : s.gatherEnded.tasks = s.tasks ∧
    s.gatherEnded.submissions = s.submissions ∧ s.gatherEnded.panels = s.panels := by
  rw [CompareApp.gatherEnded]
  split
  · split_ifs <;> exact ⟨rfl, rfl, rfl⟩
  · exact ⟨rfl, rfl, rfl⟩

theorem gatherEnded_worker (s : CompareApp) :
    (Streaming s.gatherEnded ↔
      Streaming s ∧ ∃ task ∈ s.gatherEnded.tasks, task.submission = s.submissions) ∧
      (Busy s.gatherEnded ↔ Busy s) := by
  rw [CompareApp.gatherEnded]
  split
  · rename_i prompt hw
    split_ifs with hn
    · have hone : ∃ task ∈ s.tasks, task.submission = s.submissions := by simpa using hn
      exact ⟨⟨fun hs => ⟨hs, hone⟩, And.left⟩, Iff.rfl⟩
    · have hnone : ¬ ∃ task ∈ s.tasks, task.submission = s.submissions := by simpa using hn
      simp [Streaming, Busy, hw, hnone]
  · rename_i hw
    have hnot : ¬ Streaming s := fun ⟨prompt, hp⟩ => hw prompt hp
    simp [hnot]

theorem gatherFailed_fields (s : CompareApp) (submission : ℕ) (failure : Failure) :
    (s.gatherFailed submission failure).tasks = s.tasks ∧
    (s.gatherFailed submission failure).submissions = s.submissions ∧
    (s.gatherFailed submission failure).panels = s.panels := by
  rw [CompareApp.gatherFailed]
  split
  · split_ifs <;> exact ⟨rfl, rfl, rfl⟩
  · exact ⟨rfl, rfl, rfl⟩

theorem gatherFailed_worker (s : CompareApp) (submission : ℕ) (failure : Failure) :
    (Streaming (s.gatherFailed submission failure) ↔ Streaming s ∧ submission ≠ s.submissions) ∧
      (Busy (s.gatherFailed submission failure) ↔ Busy s) := by
  rw [CompareApp.gatherFailed]
  split
  · rename_i prompt hw
    split_ifs with hn
    · simp [Streaming, Busy, hw, hn]
    · simp [Streaming, Busy, hw, hn]
  · rename_i hw
    have hnot : ¬ Streaming s := fun ⟨prompt, hp⟩ => hw prompt hp
    simp [hnot]

theorem step_change (s t : CompareApp) (e : Event) (o : List (Side × Write)) (hs : Lock s)
    (h : step s e = some (t, o)) : Change s t e o := by
  replace h := step_handle s t e o h
  cases e with
  | selected models =>
    cases hc : s.compare with
    | some pair => simp [handle, hc] at h
    | none =>
      cases models <;> simp only [handle, hc] at h <;> obtain ⟨rfl, rfl⟩ := step_inj h
      · exact .quiet _ rfl rfl Iff.rfl Iff.rfl fun _ => rfl
      · exact .quiet _ rfl rfl Iff.rfl Iff.rfl fun side => setModels_content _ _ side
  | loaded ok healthy =>
    rw [handle] at h
    split_ifs at h
    obtain ⟨rfl, rfl⟩ := step_inj h
    exact .quiet _ rfl rfl Iff.rfl Iff.rfl fun _ => rfl
  | submitted value =>
    rw [handle] at h
    split_ifs at h <;> obtain ⟨rfl, rfl⟩ := step_inj h <;>
      exact .quiet _ rfl rfl Iff.rfl Iff.rfl fun _ => rfl
  | workerRuns =>
    obtain ⟨prompt, hq, h⟩ := Option.map_eq_some_iff.mp h
    obtain ⟨rfl, rfl⟩ := Prod.mk.inj h
    have hw := (hs.waiting (by simp [hq])).1
    exact .quiet _ rfl rfl (by simp [Streaming, hw]) (by simp [Busy, Streaming, hw]) fun _ => rfl
  | refreshed healthy =>
    rw [handle] at h
    split at h
    · rename_i prompt hw
      have hidle : ¬ Busy s := by simp [Busy, Streaming, hw]
      split at h
      · obtain ⟨rfl, rfl⟩ := step_inj h
        exact .quiet _ rfl rfl (by simp [Streaming, hw]) (by simp [Busy, Streaming, hw])
          fun _ => rfl
      · obtain ⟨rfl, rfl⟩ := step_inj h
        exact .gathers healthy prompt hidle ⟨prompt, rfl⟩ rfl rfl
          fun side => setModels_content _ _ side
    · cases h
  | begins submission side now =>
    rw [handle] at h
    split at h
    · rename_i task hf
      split_ifs at h with hb
      obtain ⟨rfl, rfl⟩ := step_inj h
      refine .begins submission side now task hf (by simpa using hb) rfl rfl rfl ?_ ?_
      · rw [setPanel_same]
        rfl
      · rw [setPanel_other]
        rfl
    · cases h
  | token submission side text =>
    rw [handle] at h
    split at h
    · rename_i task hf
      split_ifs at h with hb
      obtain ⟨rfl, rfl⟩ := step_inj h
      refine .token submission side text task hf (by simpa using fun hn => hb (Or.inl hn))
        rfl rfl rfl ?_ ?_
      · rw [setPanel_same]
        rfl
      · rw [setPanel_other]
    · cases h
  | ends submission side now =>
    rw [handle] at h
    split at h
    · rename_i task hf
      split_ifs at h <;> obtain ⟨rfl, rfl⟩ := step_inj h <;>
        obtain ⟨htasks, hnumber, hpanels⟩ := gatherEnded_fields ((s.drop submission side).setPanel
          side _) <;>
        obtain ⟨hw, hb⟩ := gatherEnded_worker ((s.drop submission side).setPanel side _) <;>
        refine .ends submission side now task _ hf htasks hnumber hw hb ?_ ?_
      · right
        exact ⟨_, rfl, by rw [hpanels, setPanel_same]; rfl⟩
      · rw [hpanels, setPanel_other]
        rfl
      · left
        exact ⟨rfl, by rw [hpanels, setPanel_same]; rfl⟩
      · rw [hpanels, setPanel_other]
        rfl
    · cases h
  | fails submission side failure =>
    rw [handle] at h
    split at h
    · rename_i task hf
      split_ifs at h
      obtain ⟨rfl, rfl⟩ := step_inj h
      obtain ⟨htasks, hnumber, hpanels⟩ :=
        gatherFailed_fields (s.drop submission side) submission failure
      obtain ⟨hw, hb⟩ := gatherFailed_worker (s.drop submission side) submission failure
      exact .fails submission side failure task hf htasks hnumber hw hb
        fun side => by rw [hpanels]; rfl
    · cases h
  | resumes now =>
    rw [handle] at h
    split at h
    · rename_i prompt outcome hw
      split_ifs at h with hall
      obtain ⟨rfl, rfl⟩ := step_inj h
      have hbegun : ∀ task ∈ s.tasks, task.begun = true := by simpa using hall
      refine .resumes now (by simp [Streaming, hw]) hbegun ?_ ?_ ?_ ?_ <;>
        rcases outcome with _ | (_ | _ | _) <;>
        first | rfl | simp [CompareApp.conclude, Busy, Streaming]
    · cases h
  | clears =>
    obtain ⟨rfl, rfl⟩ := step_inj h
    exact .clears rfl rfl rfl fun _ => rfl
  | quits =>
    obtain ⟨rfl, rfl⟩ := step_inj h
    exact .quiet _ rfl rfl Iff.rfl Iff.rfl fun _ => rfl

end InferenceX.CompareSteps
