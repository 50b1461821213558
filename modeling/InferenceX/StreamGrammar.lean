import InferenceX.StreamTranscript

/-!
# The order of a stream's events

A sentence is a prologue, content events and then either the terminal event,
with the usage event where one is due, or the error event; the end marker is
last. An engine that keeps its contract gives content chunks and one terminal
chunk. A stream is a sentence exactly when no token is late after that chunk.
-/

set_option autoImplicit false

namespace InferenceX.StreamGrammar
open Library.StepRuns Library.JsonText
open InferenceX.PythonValues InferenceX.ChatSchema InferenceX.AdmissionGates
open InferenceX.ChatDispatch InferenceX.StreamEvents InferenceX.StreamMachine
open InferenceX.StreamSteps InferenceX.StreamTranscript

variable {E : Type}

inductive UsageTail (id : String) : Bool → List SseEvent → Prop
  | absent : UsageTail id false []
  | present (figures : ChatCompletionUsage) (timing : Option EngineTiming) :
      UsageTail id true [.usage id figures timing]

/-- `P C* T [U] D` or `P C* E D`, with one completion id throughout. -/
inductive Sentence (id : String) (due : Bool) : List SseEvent → Prop
  | completed (block : ResolvedRequest) (warnings : List ResponseWarning) (texts : List String)
      (reason : FinishReason) (tail : List SseEvent) (htail : UsageTail id due tail) :
      Sentence id due (.prologue id block warnings::
        (texts.map (.content id)++.terminal id reason::(tail++[.done])))
  | timedOut (block : ResolvedRequest) (warnings : List ResponseWarning) (texts : List String)
      (bound : FloatText) : Sentence id due (.prologue id block warnings::
        (texts.map (.content id)++[.error bound, .done]))

theorem sentence_error (id id' : String) (due : Bool) (es : List SseEvent) (bound : FloatText)
    (reason : FinishReason) (h : Sentence id due es) (he : .error bound ∈ es) :
    .terminal id' reason ∉ es := by
  cases h with
  | completed block warnings texts reason' tail htail =>
    cases htail <;> simp at he
  | timedOut block warnings texts bound' => simp

/-- Any number of content chunks, then the one chunk with a finish reason. -/
structure Generation where
  contents : List String
  last : String
  reason : FinishReason
  usage : Option ChatCompletionUsage
  timing : Option EngineTiming

def contentChunk (text : String) : ChatStreamChunk := ⟨text, none, none, none⟩

def Generation.terminal (g : Generation) : ChatStreamChunk :=
  ⟨g.last, some g.reason, g.usage, g.timing⟩

def Generation.chunks (g : Generation) : List ChatStreamChunk :=
  g.contents.map contentChunk++[g.terminal]

def Generation.answers (g : Generation) : Option ℕ → List Input
  | none => script g.chunks .exhausted
  | some k => script (g.chunks.take k) .stalled

def usageDue (job : Job E) (g : Generation) : Bool := job.includeUsage && g.usage.isSome

def nonempty (texts : List String) : List String := texts.filter fun text => text ≠ ""

def Generation.texts (g : Generation) : List String := nonempty (g.contents++[g.last])

section Transcripts
variable (job : Job E) (g : Generation)

theorem contents_events (texts : List String) :
    ((texts.map contentChunk).map Input.chunk).flatMap (answerEvents job) =
      (nonempty texts).map (.content job.completionId) := by
  induction texts with
  | nil => rfl
  | cons text texts ih =>
    by_cases ht : text = "" <;>
      simpa [nonempty, answerEvents, chunkEvents, contentEvents, closingEvents, contentChunk, ht]
        using ih

theorem usageEvents_tail : UsageTail job.completionId (usageDue job g)
    (usageEvents job g.terminal) := by
  unfold usageEvents usageDue Generation.terminal
  cases g.usage with
  | none =>
    rw [Option.isSome_none, Bool.and_false]
    exact .absent
  | some figures =>
    by_cases hu : job.includeUsage
    · simpa [hu] using .present figures g.timing
    · simpa [hu] using .absent

theorem chunks_events : (g.chunks.map Input.chunk).flatMap (answerEvents job) =
    g.texts.map (.content job.completionId)++
      .terminal job.completionId g.reason::usageEvents job g.terminal := by
  have hlast : answerEvents job (.chunk g.terminal) =
      (nonempty [g.last]).map (.content job.completionId)++
        .terminal job.completionId g.reason::usageEvents job g.terminal := by
    by_cases hl : g.last = "" <;>
      simp [answerEvents, chunkEvents, contentEvents, closingEvents, nonempty,
        Generation.terminal, hl]
  have happ : nonempty (g.contents++[g.last]) = nonempty g.contents++nonempty [g.last] := by
    simp [nonempty]
  rw [Generation.chunks, List.map_append, List.flatMap_append, contents_events,
    Generation.texts, happ, List.map_append, List.append_assoc]
  exact congrArg _ (by simpa using hlast)

/-- A stall before the terminal chunk leaves a prefix of the contents. -/
theorem chunks_take (k : ℕ) (hk : k < g.chunks.length) :
    g.chunks.take k = (g.contents.take k).map contentChunk := by
  have hle : k ≤ (g.contents.map contentChunk).length := by
    simp only [Generation.chunks, List.length_append, List.length_singleton] at hk
    omega
  rw [Generation.chunks, List.take_append_of_le_length hle, List.map_take]

theorem stalled_transcript (a : Admitted E) (bound : FloatText)
    (hb : job.streamTimeoutS = .ok bound) (chunks : List ChatStreamChunk) :
    transcript job a (script chunks .stalled) = prologueEvent job a::
      ((chunks.map Input.chunk).flatMap (answerEvents job)++[.error bound]) := by
  simp [transcript, script, Ending.raised, answerEvents, hb]

theorem exhausted_transcript (a : Admitted E) (chunks : List ChatStreamChunk) :
    transcript job a (script chunks .exhausted) = prologueEvent job a::
      (chunks.map Input.chunk).flatMap (answerEvents job) := by
  simp [transcript, script, Ending.raised, answerEvents]

theorem sentence_transcript (a : Admitted E) (hb : Bounded job) (stall : Option ℕ) :
    (∃ id, Sentence id (usageDue job g) (transcript job a (g.answers stall)++[.done])) ↔
      ∀ k ∈ stall, k < g.chunks.length := by
  obtain ⟨bound, hb⟩ := hb
  cases stall with
  | none =>
    refine ⟨fun _ k hk => (by cases hk), fun _ => ⟨job.completionId, ?_⟩⟩
    rw [Generation.answers, exhausted_transcript, chunks_events]
    simpa [prologueEvent] using Sentence.completed _ _ g.texts g.reason _ (usageEvents_tail job g)
  | some k =>
    rw [Generation.answers, stalled_transcript job a bound hb]
    constructor
    · rintro ⟨id, hs⟩ n hn
      obtain rfl : k = n := by simpa using hn
      by_contra hk
      rw [List.take_of_length_le (not_lt.mp hk), chunks_events] at hs
      exact sentence_error id job.completionId _ _ bound g.reason hs (by simp) (by simp)
    · intro hk
      refine ⟨job.completionId, ?_⟩
      rw [chunks_take g k (hk k rfl), contents_events]
      simpa [prologueEvent] using Sentence.timedOut _ _ (nonempty (g.contents.take k)) bound

end Transcripts

/-- The events of a stream that is read to its end are a sentence if and only
if no token is late after the terminal chunk; and every stream that starts can
be read to its end. -/
theorem sentence_iff (job : Job E) (g : Generation) (stall : Option ℕ) :
    (∀ es oss, ReadsOn es → answers es = g.answers stall →
      run (step job) .created es = some (.finished none, oss) →
      ((∃ id, Sentence id (usageDue job g) (events oss.flatten)) ↔
        ∀ k ∈ stall, k < g.chunks.length)) ∧
    ∀ model engine result bound,
      job.service.resolveEngine job.request.val = .ok (model, engine) →
      job.streamTimeoutS = .ok bound →
      job.openStream engine (job.effective ⟨model, engine, result⟩) = none →
      ∃ es oss, ReadsOn es ∧ admissions es = [result] ∧ answers es = g.answers stall ∧
        run (step job) .created es = some (.finished none, oss) := by
  constructor
  · intro es oss hr ha h
    obtain ⟨hb, a, hev⟩ := run_transcribed job es oss _ hr h
    rw [hev, ha]
    exact sentence_transcript job g a hb stall
  · intro model engine result bound hres hb hopen
    have hstart := fun chunks ending =>
      run_reading job model engine result chunks ending hres ⟨bound, hb⟩ hopen
    cases stall with
    | none =>
      obtain ⟨oss, h⟩ := hstart g.chunks .exhausted
      exact ⟨_, oss, readsOn_reading _ _ _ _, admissions_reading _ _ _ _,
        answers_reading _ _ _ _, h⟩
    | some k =>
      obtain ⟨oss, h⟩ := hstart (g.chunks.take k) .stalled
      exact ⟨_, oss, readsOn_reading _ _ _ _, admissions_reading _ _ _ _,
        answers_reading _ _ _ _, h⟩

def hello : Generation where
  contents := ["Hi"]
  last := ""
  reason := .stop
  usage := some ⟨3, 1, 4⟩
  timing := none

theorem sentence_iff_read : ∃ oss,
    run (step helloJob) .created (reading helloJob helloResult hello.chunks .exhausted) =
      some (.finished none, oss) ∧
    ∃ id, Sentence id (usageDue helloJob hello) (events oss.flatten) :=
  ⟨_, rfl, ((sentence_iff helloJob hello none).1
    (reading helloJob helloResult hello.chunks .exhausted) _ (readsOn_reading _ _ _ _)
    (answers_reading _ _ _ _) rfl).mpr (by simp)⟩

/-- The engine stalls after its terminal chunk, and the client is told of an
error once the answer is complete. -/
theorem stall_after_terminal : ∃ es oss,
    ReadsOn es ∧ answers es = hello.answers (some 2) ∧
    run (step helloJob) .created es = some (.finished none, oss) ∧
    ¬ ∃ id, Sentence id (usageDue helloJob hello) (events oss.flatten) := by
  refine ⟨reading helloJob helloResult hello.chunks .stalled, _, readsOn_reading _ _ _ _,
    answers_reading _ _ _ _, rfl, ?_⟩
  rintro ⟨id, hs⟩
  refine sentence_error id "chatcmpl-0" _ _ (.decimal false 30 (.frac ⟨0, []⟩ none)) .stop hs ?_ ?_
  · decide
  · decide

end InferenceX.StreamGrammar
