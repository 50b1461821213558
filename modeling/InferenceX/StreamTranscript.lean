import InferenceX.StreamSteps

/-!
# The transcript of a stream

A consumer that reads on sees a function of what the engine's iterator
answers: the prologue, the events of every answer in order, and the end
marker. The generator keeps no record of it, so at each rest the events
already yielded and those the current chunk still owes are added up.
-/

set_option autoImplicit false

namespace InferenceX.StreamTranscript
open Library.StepRuns Library.JsonText
open InferenceX.PythonValues InferenceX.ChatSchema InferenceX.AdmissionGates
open InferenceX.ChatDispatch InferenceX.StreamEvents InferenceX.StreamMachine InferenceX.StreamSteps

variable {E : Type}

def answers : List Input → List Input
  | [] => []
  | .chunk c::es => .chunk c::answers es
  | .pullRaised e::es => .pullRaised e::answers es
  | _::es => answers es

def ReadsOn (es : List Input) : Prop := ∀ e ∈ es, ∀ x, e ≠ .throw x

theorem answers_append (es fs : List Input) : answers (es++fs) = answers es++answers fs := by
  induction es with
  | nil => rfl
  | cons e es ih => cases e <;> simp [answers, ih]

def contentEvents (job : Job E) (c : ChatStreamChunk) : List SseEvent :=
  if c.content = "" then [] else [.content job.completionId c.content]

def usageEvents (job : Job E) (c : ChatStreamChunk) : List SseEvent :=
  match c.usage with
  | none => []
  | some figures =>
    if job.includeUsage then [.usage job.completionId figures c.timing] else []

def closingEvents (job : Job E) (c : ChatStreamChunk) : List SseEvent :=
  match c.finishReason with
  | none => []
  | some reason => .terminal job.completionId reason::usageEvents job c

def chunkEvents (job : Job E) (c : ChatStreamChunk) : List SseEvent :=
  contentEvents job c++closingEvents job c

def answerEvents (job : Job E) : Input → List SseEvent
  | .chunk c => chunkEvents job c
  | .pullRaised .timeoutError =>
    match job.streamTimeoutS with
    | .ok bound => [.error bound]
    | .error _ => []
  | _ => []

def transcript (job : Job E) (a : Admitted E) (es : List Input) : List SseEvent :=
  prologueEvent job a::es.flatMap (answerEvents job)

theorem transcript_append (job : Job E) (a : Admitted E) (es fs : List Input) :
    transcript job a (es++fs) = transcript job a es++fs.flatMap (answerEvents job) := by
  simp [transcript]

def Bounded (job : Job E) : Prop := ∃ bound, job.streamTimeoutS = .ok bound

def answerText : Input → Option String
  | .chunk c => if c.content = "" then none else some c.content
  | _ => none

def accountedUsage (job : Job E) : Input → Option ChatCompletionUsage
  | .chunk c => if c.finishReason.isSome && job.includeUsage then c.usage else none
  | _ => none

def accounted (job : Job E) (es : List Input) : Option ChatCompletionUsage :=
  (es.filterMap (accountedUsage job)).getLast?

section Readings
variable (job : Job E) (c : ChatStreamChunk)

theorem raised_events (x : PyError) : answerEvents job (.pullRaised x) = [] ∨
    ∃ bound, answerEvents job (.pullRaised x) = [.error bound] := by
  cases x with
  | timeoutError =>
    simp only [answerEvents]
    split
    · exact Or.inr ⟨_, rfl⟩
    · exact Or.inl rfl
  | _ => exact Or.inl rfl

theorem contentEvents_eq : contentEvents job c =
    ((answerText (.chunk c)).map (SseEvent.content job.completionId)).toList := by
  by_cases hc : c.content = "" <;> simp [contentEvents, answerText, hc]

/-- After the content there is a terminal event and perhaps a usage event. -/
theorem closingEvents_eq : closingEvents job c = [] ∧ accountedUsage job (.chunk c) = none ∨
    ∃ reason, closingEvents job c = .terminal job.completionId reason::
      ((accountedUsage job (.chunk c)).map
        fun figures => SseEvent.usage job.completionId figures c.timing).toList := by
  cases hf : c.finishReason with
  | none => exact Or.inl (by simp [closingEvents, accountedUsage, hf])
  | some reason =>
    refine Or.inr ⟨reason, ?_⟩
    cases hu : c.usage <;> by_cases hi : job.includeUsage <;>
      simp [closingEvents, usageEvents, accountedUsage, hf, hu, hi]

theorem answer_texts (e : Input) :
    (answerEvents job e).filterMap contentText = (answerText e).toList := by
  cases e with
  | chunk c =>
    rw [answerEvents, chunkEvents, contentEvents_eq, List.filterMap_append]
    rcases closingEvents_eq job c with ⟨hc, -⟩ | ⟨reason, hc⟩ <;> rw [hc] <;>
      cases answerText (.chunk c) <;> cases accountedUsage job (.chunk c) <;> rfl
  | pullRaised x => rcases raised_events job x with h | ⟨bound, h⟩ <;> rw [h] <;> rfl
  | _ => rfl

theorem answer_usage (e : Input) :
    (answerEvents job e).filterMap usageFigures = (accountedUsage job e).toList := by
  cases e with
  | chunk c =>
    rw [answerEvents, chunkEvents, contentEvents_eq, List.filterMap_append]
    rcases closingEvents_eq job c with ⟨hc, hu⟩ | ⟨reason, hc⟩ <;> rw [hc] <;>
      [rw [hu]; skip] <;>
      cases answerText (.chunk c) <;> cases accountedUsage job (.chunk c) <;> rfl
  | pullRaised x => rcases raised_events job x with h | ⟨bound, h⟩ <;> rw [h] <;> rfl
  | _ => rfl

theorem transcript_unfinished (a : Admitted E) (es : List Input) :
    SseEvent.done ∉ transcript job a es := by
  intro h
  rcases List.mem_cons.mp h with h | h
  · cases h
  · obtain ⟨e, -, he⟩ := List.mem_flatMap.mp h
    cases e with
    | chunk c =>
      rw [answerEvents, chunkEvents, contentEvents_eq] at he
      rcases closingEvents_eq job c with ⟨hc, -⟩ | ⟨reason, hc⟩ <;> rw [hc] at he <;>
        simp at he
    | pullRaised x => rcases raised_events job x with hx | ⟨bound, hx⟩ <;> simp [hx] at he
    | _ => cases he

theorem transcript_filterMap {B : Type} (a : Admitted E) (es : List Input)
    (f : SseEvent → Option B) (g : Input → Option B) (hp : f (prologueEvent job a) = none)
    (hd : f .done = none) (h : ∀ e, (answerEvents job e).filterMap f = (g e).toList) :
    (transcript job a es++[SseEvent.done]).filterMap f = es.filterMap g := by
  rw [transcript, List.filterMap_append, List.filterMap_cons_none hp, List.filterMap_flatMap,
    List.filterMap_cons_none hd, List.filterMap_nil, List.append_nil,
    List.filterMap_eq_flatMap_toList]
  exact congrArg (fun k => es.flatMap k) (funext h)

theorem transcript_texts (a : Admitted E) (es : List Input) :
    (transcript job a es++[SseEvent.done]).filterMap contentText = es.filterMap answerText :=
  transcript_filterMap job a es _ _ rfl rfl (answer_texts job)

theorem transcript_usage (a : Admitted E) (es : List Input) :
    (transcript job a es++[SseEvent.done]).filterMap usageFigures =
      es.filterMap (accountedUsage job) :=
  transcript_filterMap job a es _ _ rfl rfl (answer_usage job)

end Readings

def pending (job : Job E) : Pc E → List SseEvent
  | .content _ c => closingEvents job c
  | .terminal _ c => usageEvents job c
  | _ => []

section Balance
variable (job : Job E) (a : Admitted E) (c : ChatStreamChunk)

theorem afterTerminal_events :
    events (afterTerminal job a c).2++pending job (afterTerminal job a c).1 =
      usageEvents job c := by
  unfold afterTerminal usageEvents
  cases c.usage with
  | none => rfl
  | some figures => by_cases hu : job.includeUsage <;> simp [hu, events, pending]

theorem afterContent_events :
    events (afterContent job a c).2++pending job (afterContent job a c).1 =
      closingEvents job c := by
  unfold afterContent closingEvents
  cases c.finishReason <;> rfl

theorem afterPull_events :
    events (afterPull job a c).2++pending job (afterPull job a c).1 = chunkEvents job c := by
  unfold afterPull chunkEvents contentEvents
  by_cases hc : c.content = ""
  · simpa [hc] using afterContent_events job a c
  · simp [hc, events, pending]

theorem afterPullRaised_events (hb : Bounded job) (e : PyError) :
    events (afterPullRaised job a e).2++pending job (afterPullRaised job a e).1 =
      answerEvents job (.pullRaised e) := by
  obtain ⟨bound, hb⟩ := hb
  cases e with
  | timeoutError => simp [afterPullRaised, answerEvents, hb, events, pending]
  | _ => rfl

end Balance

def Ended (job : Job E) (es : List Input) (os : List (Output E)) : Pc E → Prop
  | .finished (some _) => events os = [] ∨ ∃ a, events os = transcript job a (answers es)
  | _ => Bounded job ∧ ∃ a, events os = transcript job a (answers es)++[.done]

def Transcribed (job : Job E) (es : List Input) (os : List (Output E)) (pc : Pc E) : Prop :=
  match phase pc with
  | .before => events os = [] ∧ answers es = []
  | .inside a => Bounded job ∧ events os++pending job pc = transcript job a (answers es)
  | .after => Ended job es os pc

/-- What a step does to the yielded events when the consumer reads on. -/
inductive Reading (job : Job E) : Pc E → Input → Pc E → List (Output E) → Prop
  | before (pc pc' : Pc E) (e : Input) (os : List (Output E)) (hp : phase pc = .before)
      (hp' : phase pc' = .before ∨ ∃ x, pc' = .finished (some x)) (quiet : events os = [])
      (ha : answers [e] = []) : Reading job pc e pc' os
  | enter (model : String) (engine : E) (a : Admitted E) (result : AdmissionResult)
      (hb : Bounded job) : Reading job (.admitting model engine) (.admitted result) (.prologue a)
        [.event (prologueEvent job a)]
  | inside (a : Admitted E) (pc pc' : Pc E) (e : Input) (os : List (Output E))
      (hp : phase pc = .inside a) (hp' : phase pc' = .inside a)
      (balance : Bounded job → events os++pending job pc' =
        pending job pc++(answers [e]).flatMap (answerEvents job)) : Reading job pc e pc' os
  | complete (a : Admitted E) (e : Input) (os : List (Output E)) (ho : events os = [.done])
      (ha : answers [e] = []) : Reading job (.closing a none) e .done os
  | broken (a : Admitted E) (pc : Pc E) (e : Input) (x : PyError) (os : List (Output E))
      (hp : phase pc = .inside a) (hq : pending job pc = []) (quiet : events os = [])
      (ha : answers [e] = []) : Reading job pc e (.finished (some x)) os
  | last : Reading job .done .next (.finished none) []

theorem reading_inside {job : Job E} {a : Admitted E} {r : Pc E × List (Output E)}
    (hin : Stays job a r) {pc pc' : Pc E} {e : Input} {os : List (Output E)}
    (h : some r = some (pc', os)) (hp : phase pc = .inside a)
    (balance : Bounded job → events r.2++pending job r.1 =
      pending job pc++(answers [e]).flatMap (answerEvents job)) : Reading job pc e pc' os := by
  obtain rfl := Option.some.inj h
  exact .inside a pc _ e _ hp hin.phase balance

theorem step_reading (job : Job E) (pc pc' : Pc E) (e : Input) (os : List (Output E))
    (he : ∀ x, e ≠ .throw x) (h : step job pc e = some (pc', os)) :
    Reading job pc e pc' os := by
  cases pc with
  | created =>
    cases e with
    | next =>
      simp only [step] at h
      split at h
      · obtain ⟨rfl, rfl⟩ := step_inj h
        exact .before _ _ _ _ rfl (Or.inr ⟨_, rfl⟩) rfl rfl
      · obtain ⟨rfl, rfl⟩ := step_inj h
        exact .before _ _ _ _ rfl (Or.inl rfl) rfl rfl
    | throw x => exact absurd rfl (he x)
    | _ => cases h
  | admitting model engine =>
    cases e with
    | admitted result =>
      simp only [step] at h
      split at h
      · obtain ⟨rfl, rfl⟩ := step_inj h
        exact .before _ _ _ _ rfl (Or.inr ⟨_, rfl⟩) rfl rfl
      · rename_i bound hb
        obtain ⟨rfl, rfl⟩ := step_inj h
        exact .enter model engine _ result ⟨bound, hb⟩
    | admitRaised x =>
      obtain ⟨rfl, rfl⟩ := step_inj h
      exact .before _ _ _ _ rfl (Or.inr ⟨_, rfl⟩) rfl rfl
    | _ => cases h
  | prologue a =>
    cases e with
    | next =>
      simp only [step] at h
      split at h
      · obtain ⟨rfl, rfl⟩ := step_inj h
        exact .broken a _ _ _ _ rfl rfl rfl rfl
      · obtain ⟨rfl, rfl⟩ := step_inj h
        exact .inside a _ _ _ _ rfl rfl fun _ => rfl
    | throw x => exact absurd rfl (he x)
    | _ => cases h
  | pulling a =>
    cases e with
    | chunk c =>
      apply reading_inside (afterPull_inside job a c) h rfl
      intro _
      simpa [pending, answers, answerEvents] using afterPull_events job a c
    | pullRaised x =>
      apply reading_inside (afterPullRaised_inside job a x) h rfl
      intro hb
      simpa [pending, answers] using afterPullRaised_events job a hb x
    | _ => cases h
  | content a c =>
    cases e with
    | next =>
      apply reading_inside (afterContent_inside job a c) h rfl
      intro _
      simpa [pending, answers] using afterContent_events job a c
    | throw x => exact absurd rfl (he x)
    | _ => cases h
  | terminal a c =>
    cases e with
    | next =>
      apply reading_inside (afterTerminal_inside job a c) h rfl
      intro _
      simpa [pending, answers] using afterTerminal_events job a c
    | throw x => exact absurd rfl (he x)
    | _ => cases h
  | usage a =>
    cases e with
    | next =>
      obtain ⟨rfl, rfl⟩ := step_inj h
      exact .inside a _ _ _ _ rfl rfl fun _ => rfl
    | throw x => exact absurd rfl (he x)
    | _ => cases h
  | timedOut a =>
    cases e with
    | next =>
      obtain ⟨rfl, rfl⟩ := step_inj h
      exact .inside a _ _ _ _ rfl rfl fun _ => rfl
    | throw x => exact absurd rfl (he x)
    | _ => cases h
  | closing a exit =>
    cases e with
    | closed =>
      cases exit with
      | none =>
        obtain ⟨rfl, rfl⟩ := step_inj h
        exact .complete a _ _ rfl rfl
      | some x =>
        obtain ⟨rfl, rfl⟩ := step_inj h
        exact .broken a _ _ _ _ rfl rfl rfl rfl
    | closeRaised x =>
      obtain ⟨rfl, rfl⟩ := step_inj h
      exact .broken a _ _ _ _ rfl rfl rfl rfl
    | _ => cases h
  | done =>
    cases e with
    | next =>
      obtain ⟨rfl, rfl⟩ := step_inj h
      exact .last
    | throw x => exact absurd rfl (he x)
    | _ => cases h
  | finished exit => cases e <;> cases h

theorem step_transcribed (job : Job E) (es : List Input) (os os' : List (Output E))
    (pc pc' : Pc E) (e : Input) (h : Transcribed job es os pc) (he : ∀ x, e ≠ .throw x)
    (hstep : step job pc e = some (pc', os')) : Transcribed job (es++[e]) (os++os') pc' := by
  cases step_reading job pc pc' e os' he hstep with
  | before _ _ _ _ hp hp' quiet ha =>
    simp only [Transcribed, hp] at h
    obtain ⟨ho, hes⟩ := h
    rcases hp' with hp' | ⟨x, rfl⟩
    · simp [Transcribed, hp', answers_append, ha, hes, quiet, ho]
    · exact Or.inl (by simp [quiet, ho])
  | enter model engine a result hb =>
    obtain ⟨ho, hes⟩ := h
    refine ⟨hb, ?_⟩
    simp [answers_append, answers, hes, ho, events, pending, transcript]
  | inside a _ _ _ _ hp hp' balance =>
    simp only [Transcribed, hp] at h
    simp only [Transcribed, hp']
    refine ⟨h.1, ?_⟩
    rw [events_append, List.append_assoc, balance h.1, ← List.append_assoc, h.2,
      answers_append, transcript_append]
  | complete a _ _ ho ha =>
    obtain ⟨hb, h⟩ := h
    refine ⟨hb, a, ?_⟩
    rw [events_append, ho, answers_append, ha, List.append_nil, ← h]
    simp [pending]
  | broken a _ _ x _ hp hq quiet ha =>
    simp only [Transcribed, hp, hq, List.append_nil] at h
    refine Or.inr ⟨a, ?_⟩
    rw [events_append, quiet, answers_append, ha, List.append_nil, List.append_nil, h.2]
  | last => simpa [Transcribed, Ended, phase, answers_append, answers] using h

theorem run_transcribed (job : Job E) (es : List Input) (oss : List (List (Output E)))
    (pc : Pc E) (hr : ReadsOn es) (h : run (step job) .created es = some (pc, oss)) :
    Transcribed job es oss.flatten pc := by
  refine run_history
    (fun es oss pc => ReadsOn es → Transcribed job es oss.flatten pc) ?_ .created pc es oss
    (fun _ => ⟨rfl, rfl⟩) h hr
  intro es oss pc e pc' os ih hstep hr'
  have hpre : ReadsOn es := fun x hx => hr' x (by simp [hx])
  simpa using step_transcribed job es oss.flatten os pc pc' e (ih hpre) (hr' e (by simp)) hstep

theorem finished_transcript (job : Job E) (es : List Input) (oss : List (List (Output E)))
    (hr : ReadsOn es) (h : run (step job) .created es = some (.finished none, oss)) :
    ∃ a, events oss.flatten = transcript job a (answers es)++[.done] :=
  (run_transcribed job es oss _ hr h).2

inductive Ending where
  | exhausted
  | stalled
  deriving DecidableEq, Repr

def Ending.raised : Ending → PyError
  | .exhausted => .stopAsyncIteration
  | .stalled => .timeoutError

def script (chunks : List ChatStreamChunk) (ending : Ending) : List Input :=
  chunks.map .chunk++[.pullRaised ending.raised]

def readAnswer (job : Job E) (e : Input) : List Input :=
  e::List.replicate (answerEvents job e).length .next

def reading (job : Job E) (result : AdmissionResult) (chunks : List ChatStreamChunk)
    (ending : Ending) : List Input :=
  [.next, .admitted result, .next]++(script chunks ending).flatMap (readAnswer job)++
    [.closed, .next]

theorem answers_replicate (n : ℕ) : answers (List.replicate n .next) = [] := by
  induction n with
  | zero => rfl
  | succ n ih => simpa [List.replicate_succ, answers] using ih

theorem answers_readAnswers (job : Job E) (es : List Input) :
    answers (es.flatMap (readAnswer job)) = answers es := by
  induction es with
  | nil => rfl
  | cons e es ih =>
    cases e <;> simp [readAnswer, answers, answers_append, answers_replicate, ih]

theorem answers_script (chunks : List ChatStreamChunk) (ending : Ending) :
    answers (script chunks ending) = script chunks ending := by
  induction chunks with
  | nil => rfl
  | cons c chunks ih => exact congrArg (Input.chunk c::·) ih

theorem answers_reading (job : Job E) (result : AdmissionResult)
    (chunks : List ChatStreamChunk) (ending : Ending) :
    answers (reading job result chunks ending) = script chunks ending := by
  simp [reading, answers_append, answers, answers_readAnswers, answers_script]

theorem admissions_reading (job : Job E) (result : AdmissionResult)
    (chunks : List ChatStreamChunk) (ending : Ending) :
    admissions (reading job result chunks ending) = [result] := by
  have hnext : ∀ n, admissions (List.replicate n .next) = [] := by
    intro n
    induction n with
    | zero => rfl
    | succ n ih => simpa [List.replicate_succ, admissions] using ih
  have hscript : admissions ((script chunks ending).flatMap (readAnswer job)) = [] := by
    induction chunks with
    | nil => simp [script, readAnswer, admissions, hnext]
    | cons c chunks ih =>
      simpa [script, readAnswer, admissions, admissions_append, hnext] using ih
  simp [reading, admissions_append, admissions, hscript]

theorem readsOn_reading (job : Job E) (result : AdmissionResult)
    (chunks : List ChatStreamChunk) (ending : Ending) :
    ReadsOn (reading job result chunks ending) := by
  intro e he x hx
  subst hx
  simp [reading, script, readAnswer] at he

section Reads
variable (job : Job E) (a : Admitted E) (c : ChatStreamChunk)

theorem run_afterTerminal : ∃ oss, run (step job) (afterTerminal job a c).1
    (List.replicate (usageEvents job c).length .next) = some (.pulling a, oss) := by
  unfold afterTerminal usageEvents
  cases c.usage with
  | none => exact ⟨_, rfl⟩
  | some figures => by_cases hu : job.includeUsage <;> simp [hu, run, step]

theorem run_afterContent : ∃ oss, run (step job) (afterContent job a c).1
    (List.replicate (closingEvents job c).length .next) = some (.pulling a, oss) := by
  unfold afterContent closingEvents
  cases c.finishReason with
  | none => exact ⟨_, rfl⟩
  | some reason =>
    obtain ⟨oss, h⟩ := run_afterTerminal job a c
    exact ⟨_, (run_cons_iff _ _ _ _ _).mpr ⟨_, _, oss, rfl, h, rfl⟩⟩

theorem run_afterPull : ∃ oss, run (step job) (afterPull job a c).1
    (List.replicate (chunkEvents job c).length .next) = some (.pulling a, oss) := by
  unfold afterPull chunkEvents contentEvents
  obtain ⟨oss, h⟩ := run_afterContent job a c
  by_cases hc : c.content = ""
  · simpa [hc] using ⟨oss, h⟩
  · simp only [if_neg hc, List.singleton_append, List.length_cons, List.replicate_succ]
    exact ⟨_, (run_cons_iff _ _ _ _ _).mpr ⟨_, _, oss, rfl, h, rfl⟩⟩

theorem run_chunk : ∃ oss,
    run (step job) (.pulling a) (readAnswer job (.chunk c)) = some (.pulling a, oss) := by
  obtain ⟨oss, h⟩ := run_afterPull job a c
  exact ⟨_, (run_cons_iff _ _ _ _ _).mpr ⟨_, _, oss, rfl, h, rfl⟩⟩

theorem run_chunks (chunks : List ChatStreamChunk) : ∃ oss,
    run (step job) (.pulling a) ((chunks.map Input.chunk).flatMap (readAnswer job)) =
      some (.pulling a, oss) := by
  induction chunks with
  | nil => exact ⟨[], rfl⟩
  | cons c chunks ih =>
    obtain ⟨oss, h⟩ := run_chunk job a c
    obtain ⟨oss', h'⟩ := ih
    exact ⟨_, run_append _ _ _ _ _ _ _ h h'⟩

theorem run_ending (hb : Bounded job) (ending : Ending) : ∃ oss,
    run (step job) (.pulling a) (readAnswer job (.pullRaised ending.raised)++[.closed, .next]) =
      some (.finished none, oss) := by
  obtain ⟨bound, hb⟩ := hb
  cases ending with
  | exhausted => exact ⟨_, rfl⟩
  | stalled =>
    simp [readAnswer, answerEvents, Ending.raised, hb, run, step, afterPullRaised, afterClosed]

end Reads

/-- Reading to the end of a stream that starts ends the generator. -/
theorem run_reading (job : Job E) (model : String) (engine : E) (result : AdmissionResult)
    (chunks : List ChatStreamChunk) (ending : Ending)
    (hres : job.service.resolveEngine job.request.val = .ok (model, engine))
    (hb : Bounded job)
    (hopen : job.openStream engine (job.effective ⟨model, engine, result⟩) = none) :
    ∃ oss, run (step job) .created (reading job result chunks ending) =
      some (.finished none, oss) := by
  let a : Admitted E := ⟨model, engine, result⟩
  have hstart : ∃ oss, run (step job) .created [.next, .admitted result, .next] =
      some (.pulling a, oss) := by
    obtain ⟨bound, hb⟩ := hb
    simp [run, step, hres, hb, a, hopen]
  obtain ⟨oss, hstart⟩ := hstart
  obtain ⟨oss', hchunks⟩ := run_chunks job a chunks
  obtain ⟨oss'', hending⟩ := run_ending job a hb ending
  have hsplit : reading job result chunks ending = [.next, .admitted result, .next]++
      ((chunks.map Input.chunk).flatMap (readAnswer job)++
        (readAnswer job (.pullRaised ending.raised)++[.closed, .next])) := by
    simp [reading, script]
  rw [hsplit]
  exact ⟨_, run_append _ _ _ _ _ _ _ hstart (run_append _ _ _ _ _ _ _ hchunks hending)⟩

def helloInputs : List Input :=
  reading helloJob helloResult [⟨"Hi", none, none, none⟩, ⟨"", some .stop, none, none⟩] .exhausted

end InferenceX.StreamTranscript
