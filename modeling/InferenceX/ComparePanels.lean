import InferenceX.Library.StepRuns
import InferenceX.Library.TextLines
import InferenceX.PythonValues

/-!
# The panels of the compare playground

A prompt is answered by two streams that are gathered, each writing into a
panel of its own. The gathering ends with the first stream that fails, and the
other one is not cancelled: it goes on writing while the next prompt is
submitted. What a panel shows is the sum of what was written into it since it
was last emptied, whoever wrote it.
-/

set_option autoImplicit false

namespace InferenceX.ComparePanels
open Library.StepRuns Library.TextLines
open InferenceX.PythonValues

/-- `len(text.split())`. -/
def wordCount (text : String) : ℕ :=
  ((text.toList.splitOnP isSpace).filter fun word => word ≠ []).length

structure ResponsePanel where
  model : String
  content : String
  startedAt : Option ℚ
  finishedAt : Option ℚ
  completed : Bool
  usage : String
  deriving DecidableEq, Repr

namespace ResponsePanel

def create (model : String) : ResponsePanel := ⟨model, "", none, none, false, ""⟩

def clearResponse (p : ResponsePanel) : ResponsePanel := create p.model

def start (p : ResponsePanel) (now : ℚ) : ResponsePanel :=
  { create p.model with startedAt := some now }

def appendToken (p : ResponsePanel) (token : String) : ResponsePanel :=
  { p with content := p.content ++ token }

def elapsedSeconds (p : ResponsePanel) (now : ℚ) : ℚ :=
  match p.startedAt with
  | none => 0
  | some started => p.finishedAt.getD now-started

def finish (p : ResponsePanel) (prompt : String) (now : ℚ) : ResponsePanel :=
  let done := { p with completed := true, finishedAt := some now }
  let promptTokens := wordCount prompt
  let completionTokens := wordCount p.content
  { done with usage := s!"prompt {promptTokens} | completion {completionTokens} | " ++
      s!"total {promptTokens+completionTokens} | " ++ fixedText 1 (done.elapsedSeconds now) ++ "s" }

def setError (p : ResponsePanel) (message : String) (now : ℚ) : ResponsePanel :=
  { p with completed := true, finishedAt := some now, content := message, usage := "" }

end ResponsePanel

inductive Side where
  | a
  | b
  deriving DecidableEq, Repr

def Side.other : Side → Side
  | .a => .b
  | .b => .a

structure StreamTask where
  submission : ℕ
  side : Side
  prompt : String
  begun : Bool
  deriving DecidableEq, Repr

inductive Failure where
  | readTimeout
  | httpError (text : String)
  | other (e : PyError)
  deriving DecidableEq, Repr

inductive Worker where
  | refreshing (prompt : String)
  | streaming (prompt : String)
  | gathered (prompt : String) (outcome : Option Failure)
  deriving DecidableEq, Repr

inductive StatusKind where
  | success
  | error
  | progress
  deriving DecidableEq, Repr

structure CompareApp where
  compare : Option (String × String)
  panels : Side → ResponsePanel
  healthy : Bool
  inFlight : Bool
  inputDisabled : Bool
  status : String × StatusKind
  queued : Option String
  worker : Option Worker
  submissions : ℕ
  tasks : List StreamTask
  closed : Bool

inductive Write where
  | started (submission : ℕ)
  | cleared
  | token (submission : ℕ) (text : String)
  | error (message : String)
  deriving DecidableEq, Repr

inductive Event where
  | selected (models : Option (String × String))
  | loaded (ok healthy : Bool)
  | submitted (value : List Char)
  | workerRuns
  | refreshed (healthy : Bool)
  | begins (submission : ℕ) (side : Side) (now : ℚ)
  | token (submission : ℕ) (side : Side) (text : String)
  | ends (submission : ℕ) (side : Side) (now : ℚ)
  | fails (submission : ℕ) (side : Side) (failure : Failure)
  | resumes (now : ℚ)
  | clears
  | quits
  deriving DecidableEq, Repr

namespace CompareApp

def start (compare : Option (String × String)) : CompareApp where
  compare := compare
  panels := fun
    | .a => .create ((compare.map Prod.fst).getD "…")
    | .b => .create ((compare.map Prod.snd).getD "…")
  healthy := false
  inFlight := false
  inputDisabled := true
  status := ("Ready", .success)
  queued := none
  worker := none
  submissions := 0
  tasks := []
  closed := false

def setPanel (s : CompareApp) (side : Side) (p : ResponsePanel) : CompareApp :=
  { s with panels := fun side' => if side' = side then p else s.panels side' }

def setModels (s : CompareApp) (models : String × String) : CompareApp :=
  { s with panels := fun
      | .a => { s.panels .a with model := models.1 }
      | .b => { s.panels .b with model := models.2 } }

def find (s : CompareApp) (submission : ℕ) (side : Side) : Option StreamTask :=
  s.tasks.find? fun t => t.submission = submission ∧ t.side = side

def drop (s : CompareApp) (submission : ℕ) (side : Side) : CompareApp :=
  { s with tasks := s.tasks.filter fun t => ¬ (t.submission = submission ∧ t.side = side) }

def begin (s : CompareApp) (submission : ℕ) (side : Side) : CompareApp :=
  { s with tasks := s.tasks.map fun t =>
      if t.submission = submission ∧ t.side = side then { t with begun := true } else t }

/-- The gathering ends with its last stream; streams left over are none of it. -/
def gatherEnded (s : CompareApp) : CompareApp :=
  match s.worker with
  | some (.streaming prompt) =>
    if s.tasks.any fun t => t.submission = s.submissions then s
    else { s with worker := some (.gathered prompt none) }
  | _ => s

def gatherFailed (s : CompareApp) (submission : ℕ) (failure : Failure) : CompareApp :=
  match s.worker with
  | some (.streaming prompt) =>
    if submission = s.submissions then
      { s with worker := some (.gathered prompt (some failure)) }
    else s
  | _ => s

def doneText (s : CompareApp) (prompt : String) (now : ℚ) : String :=
  let total := wordCount prompt+(wordCount (s.panels .a).content+wordCount (s.panels .b).content)
  let elapsed := max ((s.panels .a).elapsedSeconds now) ((s.panels .b).elapsedSeconds now)
  s!"Done — {total} tokens in " ++ fixedText 1 elapsed ++ "s"

/-- The rest of `_submit_prompt`; what is no `HTTPError` leaves the worker and ends the app. -/
def conclude (s : CompareApp) (prompt : String) (outcome : Option Failure) (now : ℚ) : CompareApp :=
  let released := { s with inputDisabled := false, inFlight := false, worker := none }
  match outcome with
  | none => { released with status := (s.doneText prompt now, .success) }
  | some .readTimeout => { released with status := ("Read timeout while streaming", .error) }
  | some (.httpError text) => { released with status := ("Request failed: " ++ text, .error) }
  | some (.other _) => { released with closed := true }

end CompareApp

def noTokens : String := "No response tokens received. The model may be out of VRAM or busy."

def CompareApp.open (s : CompareApp) : Bool := !s.inputDisabled || s.inFlight

def loadedStatus (ok : Bool) : String × StatusKind :=
  if ok then ("Ready", .success)
  else ("Failed to load selected model(s) — see logs/playground-server.log", .error)

def newTasks (submission : ℕ) (prompt : String) : List StreamTask :=
  [⟨submission, .a, prompt, false⟩, ⟨submission, .b, prompt, false⟩]

def handle (s : CompareApp) : Event → Option (CompareApp × List (Side × Write))
  | .selected models =>
    match s.compare, models with
    | none, some pair => some ({ s with compare := some pair }.setModels pair, [])
    | none, none => some ({ s with closed := true }, [])
    | some _, _ => none
  | .loaded ok healthy =>
    if s.inputDisabled ∧ ¬ s.inFlight ∧ s.compare.isSome then
      some ({ s with
        healthy := healthy
        inputDisabled := !ok
        status := loadedStatus ok }, [])
    else none
  | .submitted value =>
    if ¬ s.open then none
    else if s.inFlight then some (s, [])
    else if strip value = [] then some ({ s with status := ("Enter a prompt first", .error) }, [])
    else some ({ s with queued := some (String.ofList (strip value)) }, [])
  | .workerRuns => s.queued.map fun prompt =>
    ({ s with
      inFlight := true
      inputDisabled := true
      status := ("Streaming…", .progress)
      queued := none
      worker := some (.refreshing prompt) }, [])
  | .refreshed healthy =>
    match s.worker with
    | some (.refreshing prompt) =>
      match s.compare with
      | none => some ({ s with healthy := healthy, worker := none }, [])
      | some models =>
        let gathering := { s with
          healthy := healthy
          worker := some (.streaming prompt)
          submissions := s.submissions+1
          tasks := s.tasks++newTasks (s.submissions+1) prompt }
        some (gathering.setModels models, [])
    | _ => none
  | .begins submission side now =>
    match s.find submission side with
    | some task =>
      if task.begun then none
      else some ((s.begin submission side).setPanel side ((s.panels side).start now),
        [(side, .started submission)])
    | none => none
  | .token submission side text =>
    match s.find submission side with
    | some task =>
      if ¬ task.begun ∨ text = "" then none
      else some (s.setPanel side ((s.panels side).appendToken text),
        [(side, .token submission text)])
    | none => none
  | .ends submission side now =>
    match s.find submission side with
    | some task =>
      if ¬ task.begun then none
      else if strip (s.panels side).content.toList = [] then
        some (((s.drop submission side).setPanel side
          ((s.panels side).setError noTokens now)).gatherEnded, [(side, .error noTokens)])
      else
        some (((s.drop submission side).setPanel side
          ((s.panels side).finish task.prompt now)).gatherEnded, [])
    | none => none
  | .fails submission side failure =>
    match s.find submission side with
    | some task =>
      if ¬ task.begun then none
      else some ((s.drop submission side).gatherFailed submission failure, [])
    | none => none
  | .resumes now =>
    match s.worker with
    | some (.gathered prompt outcome) =>
      -- Both streams take their first step before the task that gathers them goes on.
      if s.tasks.all fun t => t.begun then some (s.conclude prompt outcome now, []) else none
    | _ => none
  | .clears =>
    some ({ s with
      panels := fun side => (s.panels side).clearResponse
      status := ("Cleared", .success) }, [(.a, .cleared), (.b, .cleared)])
  | .quits => some ({ s with closed := true }, [])

def step (s : CompareApp) (e : Event) : Option (CompareApp × List (Side × Write)) :=
  if s.closed then none else handle s e

theorem step_handle (s t : CompareApp) (e : Event) (o : List (Side × Write))
    (h : step s e = some (t, o)) : handle s e = some (t, o) := by
  rw [step] at h
  split_ifs at h
  exact h

end InferenceX.ComparePanels
