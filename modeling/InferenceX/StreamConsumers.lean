import InferenceX.SseRecording
import InferenceX.StreamTranscript

/-!
# The clients of a stream

The playground collects tokens and the benchmark runner measures, both line
by line. On the lines of a stream they see what the middleware sees: the
engine's contents, the first event with text, and the engine's own count.
-/

set_option autoImplicit false

namespace InferenceX.StreamConsumers
open Library.StepRuns Library.TextLines Library.Utf8Text Library.CharClasses
open InferenceX.PythonValues InferenceX.ChatSchema InferenceX.AdmissionGates
open InferenceX.StreamEvents InferenceX.StreamFrames InferenceX.SseReaders
open InferenceX.SseRecording InferenceX.StreamMachine InferenceX.StreamTranscript

variable {E : Type}

def parseSseStream : List (List Char) → Except PyError (List String)
  | [] => .ok []
  | line::lines => do
    let token ← parseSseLine line
    let tokens ← parseSseStream lines
    return token.toList++tokens

def streamChatTokens : List (List Char) → List String × Option PyError
  | [] => ([], none)
  | line::lines =>
    if strip line = dataPrefix++doneText then ([], none)
    else
      match parseSseLine line with
      | .error e => ([], some e)
      | .ok none => streamChatTokens lines
      | .ok (some token) =>
        if token = "" then streamChatTokens lines
        else (token::(streamChatTokens lines).1, (streamChatTokens lines).2)

structure PromptResult where
  promptLabel : String
  tokensGenerated : ℤ
  ttftMs : ℚ
  totalLatencyMs : ℚ
  tokensPerSec : ℚ
  deriving DecidableEq

structure Measured where
  tokensGenerated : ℤ
  ttftMs : Option ℚ
  deriving DecidableEq

def Measured.line (start now : ℚ) (m : Measured) : RunnerLine → Measured
  | .skipped => m
  | .counted completionTokens => { m with tokensGenerated := completionTokens }
  | .delta hasContent =>
    if hasContent = true ∧ m.ttftMs = none then { m with ttftMs := some (elapsedMs start now) }
    else m

def measure (k : CharTable) (start : ℚ) : Measured → List (List Char × ℚ) → Except PyError Measured
  | m, [] => .ok m
  | m, (line, now)::lines => do
    let reading ← runnerLine k line
    measure k start (m.line start now reading) lines

def runPromptStream (k : CharTable) (promptLabel : String) (start finish : ℚ)
    (lines : List (List Char × ℚ)) : Except PyError PromptResult := do
  let m ← measure k start ⟨0, none⟩ lines
  let total := elapsedMs start finish
  return {
    promptLabel := promptLabel
    tokensGenerated := m.tokensGenerated
    ttftMs := roundPlaces 2 (m.ttftMs.getD total)
    totalLatencyMs := roundPlaces 2 total
    tokensPerSec := roundPlaces 2 (if total > 0 then m.tokensGenerated/total*1000 else 0) }

theorem parseSseLine_blank : parseSseLine [] = .ok none := rfl

theorem hasContentDelta_blank : hasContentDelta (encode []) = false := rfl

theorem frame_done (e : SseEvent) :
    strip (frame e) = dataPrefix++doneText ↔ e.payload = none := by
  rw [strip_frame, frame, List.append_cancel_left_eq]
  cases h : e.payload with
  | none => simp [eventData, h]
  | some payload => simpa using data_ne_done e payload h

theorem parseSseStream_events (es : List SseEvent) :
    parseSseStream (eventLines es) = .ok (es.filterMap contentText) := by
  induction es with
  | nil => rfl
  | cons e es ih =>
    have hlines : eventLines (e::es) = frame e::[]::eventLines es := rfl
    rw [hlines, parseSseStream, parseSseStream, parseSseLine_event, parseSseLine_blank, ih]
    cases h : contentText e <;> simp [h] <;> rfl

theorem payload_none (e : SseEvent) : e.payload = none ↔ e = .done := by
  cases e <;> simp [SseEvent.payload]

theorem streamChatTokens_events (es : List SseEvent) (h : SseEvent.done ∉ es) :
    streamChatTokens (eventLines (es++[.done])) =
      ((es.filterMap contentText).filter fun text => text ≠ "", none) := by
  induction es with
  | nil => rfl
  | cons e es ih =>
    have hne : e ≠ .done := fun he => h (by simp [he])
    have hopen : ¬ strip (frame e) = dataPrefix++doneText :=
      fun hf => hne ((payload_none e).mp ((frame_done e).mp hf))
    have hlines : eventLines (e::es++[.done]) = frame e::[]::eventLines (es++[.done]) := rfl
    have hrest : streamChatTokens ([]::eventLines (es++[.done])) =
        ((es.filterMap contentText).filter fun text => text ≠ "", none) :=
      ih fun he => h (by simp [he])
    rw [hlines, streamChatTokens, if_neg hopen, parseSseLine_event]
    cases hc : contentText e with
    | none => simp [hrest, hc]
    | some text => by_cases ht : text = "" <;> simp [hrest, hc, ht]

def Agrees (k : CharTable) (line : List Char) : Prop :=
  ∃ reading, runnerLine k line = .ok reading ∧
    (reading = .delta true ↔ hasContentDelta (encode line) = true)

def RunnerLine.count : RunnerLine → Option ℤ
  | .counted completionTokens => some completionTokens
  | _ => none

def countOf (k : CharTable) (line : List Char) : Option ℤ :=
  match runnerLine k line with
  | .ok reading => RunnerLine.count reading
  | .error _ => none

theorem agrees_event (k : CharTable) (e : SseEvent) : Agrees k (frame e) := by
  refine ⟨_, runnerLine_event k e, ?_⟩
  rw [hasContentDelta_event, runnerReading]
  cases e <;> simp [SseEvent.payload, usageFigures, carriesText, contentText]

theorem agrees_lines (k : CharTable) (es : List SseEvent) :
    ∀ line ∈ eventLines es, Agrees k line := by
  intro line hl
  obtain ⟨e, -, he⟩ := List.mem_flatMap.mp hl
  rcases List.mem_cons.mp he with rfl | he
  · exact agrees_event k e
  · obtain rfl := List.mem_singleton.mp he
    exact ⟨.skipped, rfl, by simp [hasContentDelta_blank]⟩

theorem countOf_event (k : CharTable) (e : SseEvent) :
    countOf k (frame e) = (usageFigures e).map ChatCompletionUsage.completionTokens := by
  rw [countOf, runnerLine_event, runnerReading]
  cases e <;> rfl

theorem countOf_lines (k : CharTable) (es : List SseEvent) :
    (eventLines es).filterMap (countOf k) =
    (es.filterMap usageFigures).map ChatCompletionUsage.completionTokens := by
  induction es with
  | nil => rfl
  | cons e es ih =>
    have hlines : eventLines (e::es) = frame e::[]::eventLines es := rfl
    rw [hlines, List.filterMap_cons, List.filterMap_cons_none (show countOf k [] = none from rfl),
      ih, countOf_event, List.filterMap_cons]
    cases usageFigures e <;> rfl

theorem line_ttft (start now : ℚ) (m : Measured) (reading : RunnerLine) :
    (m.line start now reading).ttftMs =
      m.ttftMs.or (if reading = .delta true then some (elapsedMs start now) else none) := by
  cases reading with
  | delta hasContent =>
    cases hasContent <;> cases ht : m.ttftMs <;> simp [Measured.line, ht]
  | _ => simp [Measured.line]

theorem line_count (start now : ℚ) (m : Measured) (reading : RunnerLine) :
    (m.line start now reading).tokensGenerated =
      (RunnerLine.count reading).getD m.tokensGenerated := by
  cases reading with
  | delta hasContent =>
    simp only [Measured.line]
    split_ifs <;> rfl
  | _ => rfl

section Measure
variable (k : CharTable) (start : ℚ) (m : Measured) (lines : List (List Char × ℚ))

theorem measure_ok (h : ∀ p ∈ lines, Agrees k p.1) : ∃ m', measure k start m lines = .ok m' ∧
    m'.ttftMs = m.ttftMs.or ((lines.find? fun p => hasContentDelta (encode p.1)).map
      fun p => elapsedMs start p.2) ∧
    m'.tokensGenerated =
      ((lines.map Prod.fst).filterMap (countOf k)).getLast?.getD m.tokensGenerated := by
  induction lines generalizing m with
  | nil => exact ⟨m, rfl, by simp, rfl⟩
  | cons p lines ih =>
    obtain ⟨line, now⟩ := p
    obtain ⟨reading, hreading, htext⟩ := h (line, now) (by simp)
    obtain ⟨m', hm, ht, hc⟩ := ih (m.line start now reading) fun p hp => h p (by simp [hp])
    refine ⟨m', ?_, ?_, ?_⟩
    · rw [measure, hreading]
      exact hm
    · rw [ht, line_ttft, List.find?_cons]
      by_cases hc : hasContentDelta (encode line) = true
      · rw [if_pos (htext.mpr hc)]
        cases m.ttftMs <;> simp [hc]
      · rw [if_neg fun hr => hc (htext.mp hr)]
        simp [hc]
    · have hcount : countOf k line = RunnerLine.count reading := by
        rw [countOf, hreading]
      rw [hc, line_count, List.map_cons, List.filterMap_cons, hcount]
      cases RunnerLine.count reading with
      | none => rfl
      | some n => simp [List.getLast?_cons]

end Measure

def engineContents : List Input → List String
  | [] => []
  | .chunk c::es => c.content::engineContents es
  | _::es => engineContents es

theorem texts_nonempty (es : List Input) : ∀ text ∈ es.filterMap answerText, text ≠ "" := by
  intro text ht
  obtain ⟨e, -, he⟩ := List.mem_filterMap.mp ht
  cases e with
  | chunk c =>
    by_cases hc : c.content = ""
    · simp [answerText, hc] at he
    · obtain rfl : c.content = text := by simpa [answerText, hc] using he
      exact hc
  | _ => cases he

theorem concat_texts (es : List Input) : (es.filterMap answerText).flatMap String.toList =
    (engineContents es).flatMap String.toList := by
  induction es with
  | nil => rfl
  | cons e es ih =>
    cases e with
    | chunk c => by_cases hc : c.content = "" <;> simpa [answerText, engineContents, hc] using ih
    | _ => exact ih

section Lines
variable (job : Job E) (a : Admitted E) (es : List Input)

theorem transcript_tokens :
    ∃ tokens, streamChatTokens (eventLines (transcript job a es++[.done])) = (tokens, none) ∧
      parseSseStream (eventLines (transcript job a es++[.done])) = .ok tokens ∧
      tokens.flatMap String.toList = (engineContents es).flatMap String.toList := by
  have htexts : (transcript job a es).filterMap contentText = es.filterMap answerText := by
    have hdone : [SseEvent.done].filterMap contentText = [] := rfl
    rw [← transcript_texts job a, List.filterMap_append, hdone, List.append_nil]
  have hkept : (es.filterMap answerText).filter (fun text => text ≠ "") =
      es.filterMap answerText :=
    List.filter_eq_self.mpr fun text ht => by simpa using texts_nonempty _ text ht
  refine ⟨es.filterMap answerText, ?_, ?_, concat_texts _⟩
  · rw [streamChatTokens_events _ (transcript_unfinished job a _), htexts, hkept]
  · rw [parseSseStream_events, transcript_texts]

/-- The runner starts its clock with the middleware and takes the engine's count. -/
theorem transcript_measured (k : CharTable) (label : String) (start finish : ℚ)
    (timed : List (List Char × ℚ))
    (ht : timed.map Prod.fst = eventLines (transcript job a es++[.done])) :
    ∃ result, runPromptStream k label start finish timed = .ok result ∧
      result.ttftMs = roundPlaces 2 (((timed.find? fun p : List Char × ℚ =>
        hasContentDelta (encode p.1)).map fun p => elapsedMs start p.2).getD
          (elapsedMs start finish)) ∧
      ∀ usage ∈ accounted job es, result.tokensGenerated = usage.completionTokens := by
  have hcounts : ((timed.map Prod.fst).filterMap (countOf k)).getLast? =
      (accounted job es).map ChatCompletionUsage.completionTokens := by
    rw [ht, countOf_lines, transcript_usage, List.getLast?_map, accounted]
  have hagree : ∀ p ∈ timed, Agrees k p.1 := by
    intro p hp
    refine agrees_lines k (transcript job a es++[.done]) p.1 ?_
    rw [← ht]
    exact List.mem_map_of_mem hp
  obtain ⟨m, hm, httft, hcount⟩ := measure_ok k start ⟨0, none⟩ timed hagree
  refine ⟨_, by rw [runPromptStream, hm]; rfl, by rw [httft, Option.none_or], ?_⟩
  intro usage hu
  rw [hcount, hcounts, Option.mem_def.mp hu]
  rfl

end Lines

theorem silent_event (k : CharTable) (e : SseEvent) (hc : contentText e = none) :
    parseSseLine (frame e) = .ok none ∧ runnerLine k (frame e) ≠ .ok (.delta true) ∧
      hasContentDelta (encode (frame e)) = false := by
  have htext : carriesText e = false := by
    rw [carriesText, hc]
    rfl
  refine ⟨by rw [parseSseLine_event, hc], ?_, by rw [hasContentDelta_event, htext]⟩
  obtain ⟨reading, hreading, hagree⟩ := agrees_event k e
  rw [hasContentDelta_event, htext] at hagree
  rw [hreading]
  intro hd
  exact absurd (hagree.mp (Except.ok.inj hd)) (by decide)

/-- Every client reads a complete stream as the middleware does: the tokens
concatenate to the engine's contents, the runner does not raise, starts its
clock at the middleware's event and counts what the engine counted, and no
event without text is taken for text. -/
theorem consumers_agree (k : CharTable) (job : Job E) (es : List Input)
    (oss : List (List (Output E))) (lines : List (List Char)) (hr : ReadsOn es)
    (h : run (step job) .created es = some (.finished none, oss))
    (hlines : lines = splitlines ((events oss.flatten).flatMap SseEvent.text)) :
    (∃ tokens, streamChatTokens lines = (tokens, none) ∧ parseSseStream lines = .ok tokens ∧
      tokens.flatMap String.toList = (engineContents (answers es)).flatMap String.toList) ∧
    (∀ label start finish timed, timed.map Prod.fst = lines →
      ∃ result, runPromptStream k label start finish timed = .ok result ∧
        result.ttftMs = roundPlaces 2 (((timed.find? fun p : List Char × ℚ =>
          hasContentDelta (encode p.1)).map fun p => elapsedMs start p.2).getD
            (elapsedMs start finish)) ∧
        ∀ usage ∈ accounted job (answers es), result.tokensGenerated = usage.completionTokens) ∧
    ∀ e ∈ events oss.flatten, contentText e = none →
      parseSseLine (frame e) = .ok none ∧ runnerLine k (frame e) ≠ .ok (.delta true) ∧
        hasContentDelta (encode (frame e)) = false := by
  obtain ⟨a, hev⟩ := finished_transcript job es oss hr h
  rw [splitlines_events, hev] at hlines
  subst hlines
  exact ⟨transcript_tokens job a (answers es), transcript_measured job a (answers es) k,
    fun e _ hc => silent_event k e hc⟩

theorem consumers_agree_hello : ∃ oss tokens,
    run (step helloJob) .created helloInputs = some (.finished none, oss) ∧
    streamChatTokens (splitlines ((events oss.flatten).flatMap SseEvent.text)) =
      (tokens, none) := by
  obtain ⟨tokens, htokens, -⟩ :=
    (consumers_agree ascii helloJob helloInputs _ _ (readsOn_reading _ _ _ _) rfl rfl).1
  exact ⟨_, tokens, rfl, htokens⟩

end InferenceX.StreamConsumers
