import InferenceX.SseRecording
import InferenceX.StreamTranscript

/-!
# The recorded figures of a stream

The bytes of the yielded events are blank-line frames, however they are cut
into chunks. So the record of a stream holds the figures the engine accounted
and the time of the chunk that completes the first event with text, and no
generated text can change it.
-/

set_option autoImplicit false

namespace InferenceX.StreamFraming
open Library.StepRuns Library.ChunkedFrames Library.Utf8Text Library.CharClasses
open InferenceX.PythonValues InferenceX.ChatSchema InferenceX.AdmissionGates
open InferenceX.StreamEvents InferenceX.StreamFrames InferenceX.SseReaders
open InferenceX.SseRecording InferenceX.StreamMachine InferenceX.StreamTranscript

variable {E : Type}

def lines (es : List SseEvent) : List (List UInt8) := es.map fun e => encode (frame e)

theorem lines_read (es : List SseEvent) :
    ∀ line ∈ lines es, blankLines.Reads (·++[10, 10]) line := by
  intro line hl
  obtain ⟨e, -, rfl⟩ := List.mem_map.mp hl
  exact delimited_reads 10 [10] _ (frame_bytes e)

theorem lines_ends (es : List SseEvent) (offset : ℕ) : ends (·++[10, 10]) offset (lines es) =
    (ends (fun e : SseEvent => encode e.text) offset es).map
      fun p => (encode (frame p.1), p.2) := by
  induction es generalizing offset with
  | nil => rfl
  | cons e es ih =>
    have htext : encode e.text = encode (frame e)++[10, 10] := by
      rw [text_eq, encode_append]
      rfl
    simp only [lines, List.map_cons, ends, htext]
    exact congrArg (_::·) (ih _)

def lastFigures (es : List SseEvent) : Option ChatCompletionUsage :=
  (es.filterMap usageFigures).getLast?

theorem lastUsage_lines (k : CharTable) (es : List SseEvent) : lastUsage k (lines es) =
    (lastFigures es).map fun figures => (figures.promptTokens, figures.completionTokens) := by
  have hmap : (lines es).filterMap (extractSseUsage k) = (es.filterMap usageFigures).map
      fun figures => (figures.promptTokens, figures.completionTokens) := by
    rw [lines, List.filterMap_map, List.map_filterMap]
    exact congrArg (fun f => es.filterMap f) (funext (extractSseUsage_event k))
  rw [lastUsage, hmap, List.getLast?_map, lastFigures]

def firstContentEnd (es : List SseEvent) : Option ℕ :=
  ((ends (fun e : SseEvent => encode e.text) 0 es).find? fun p => carriesText p.1).map Prod.snd

section Body
variable (es : List SseEvent) (body : List Arrival)

def Carries : Prop :=
  (body.map fun a => a.chunk.raw).flatten = encode (es.flatMap SseEvent.text)

theorem carries_lines (h : Carries es body) :
    ((body.map Arrival.marked).map Prod.fst).flatten = (lines es).flatMap (·++[10, 10]) := by
  rw [List.map_map]
  exact h.trans (encode_events es)

theorem marked_lines (h : Carries es body) :
    (blankLines.marked [] (body.map Arrival.marked)).map Prod.fst = lines es :=
  marked_frames blankLines _ _ (lines_read es) _ (carries_lines es body h)

theorem first_marked (h : Carries es body) :
    ((blankLines.marked [] (body.map Arrival.marked)).find? fun p =>
        hasContentDelta p.1).map Prod.snd =
      (firstContentEnd es).bind fun n => arrival n (body.map Arrival.marked) := by
  have hfind := marked_find blankLines _ hasContentDelta _ (lines_read es) _
    (carries_lines es body h)
  have hcontent : ((fun p : List UInt8 × ℕ => hasContentDelta p.1) ∘
      fun p : SseEvent × ℕ => (encode (frame p.1), p.2)) = fun p => carriesText p.1 :=
    funext fun p => hasContentDelta_event p.1
  rw [lines_ends, List.find?_map, hcontent, Option.map_map] at hfind
  exact hfind

end Body

section Record
variable (k : CharTable) (es : List SseEvent) (body : List Arrival) (request : RecordedRequest)
  (finish : ℚ)

def recordOf : RecordCall := (wrapAndRecordSse k request finish body none).2

theorem record_tokens (h : Carries es body) :
    (recordOf k body request finish).promptTokens =
        (lastFigures es).map ChatCompletionUsage.promptTokens ∧
      (recordOf k body request finish).completionTokens =
        (lastFigures es).map ChatCompletionUsage.completionTokens := by
  have hfold := relay_figures (Figures.line k request.start) ⟨[], .unset⟩ body
  simp only [recordOf, wrapAndRecordSse, recordCall, hfold]
  rw [fold_prompt, fold_completion, marked_lines es body h, lastUsage_lines]
  cases lastFigures es <;> exact ⟨rfl, rfl⟩

theorem record_total : (recordOf k body request finish).totalTokens =
    match (recordOf k body request finish).promptTokens,
      (recordOf k body request finish).completionTokens with
    | some prompt, some completion => some (prompt+completion)
    | _, _ => none := rfl

theorem record_ttft (h : Carries es body) : (recordOf k body request finish).ttftMs =
    ((firstContentEnd es).bind fun n => arrival n (body.map Arrival.marked)).map
      (elapsedMs request.start) := by
  have hfold := relay_figures (Figures.line k request.start) ⟨[], .unset⟩ body
  simp only [recordOf, wrapAndRecordSse, recordCall, hfold]
  rw [fold_ttft, ← first_marked es body h, Option.map_map]
  rfl

theorem record_ttft_isSome (h : Carries es body) :
    (recordOf k body request finish).ttftMs.isSome = es.any carriesText := by
  have hfold := relay_figures (Figures.line k request.start) ⟨[], .unset⟩ body
  simp only [recordOf, wrapAndRecordSse, recordCall, hfold]
  have hany := congrArg (List.any · hasContentDelta) (marked_lines es body h)
  rw [List.any_map, lines, List.any_map] at hany
  have hcontent : hasContentDelta ∘ (fun e : SseEvent => encode (frame e)) = carriesText :=
    funext hasContentDelta_event
  rw [fold_ttft, Figures.unset, Option.none_or, Option.isSome_map, List.isSome_find?, ← hcontent]
  exact hany

end Record

/-- The figures of a record are those of a usage, or all absent. -/
def Accounts (usage : Option ChatCompletionUsage) (r : RecordCall) : Prop :=
  r.promptTokens = usage.map ChatCompletionUsage.promptTokens ∧
  r.completionTokens = usage.map ChatCompletionUsage.completionTokens ∧
  r.totalTokens = usage.map fun figures => figures.promptTokens+figures.completionTokens

theorem transcript_carries (job : Job E) (a : Admitted E) (es : List Input) :
    (transcript job a es++[SseEvent.done]).any carriesText = true ↔
      ∃ c, .chunk c ∈ es ∧ c.content ≠ "" := by
  have htexts : ∀ events : List SseEvent, events.any carriesText =
      (events.filterMap contentText).any fun text => text ≠ "" := by
    intro events
    induction events with
    | nil => rfl
    | cons e events ih =>
      cases h : contentText e <;> simp [carriesText, h, ih]
  rw [htexts, transcript_texts, List.any_eq_true]
  constructor
  · rintro ⟨text, ht, -⟩
    obtain ⟨e, he, htext⟩ := List.mem_filterMap.mp ht
    cases e with
    | chunk c =>
      refine ⟨c, he, fun hc => ?_⟩
      rw [answerText, if_pos hc] at htext
      cases htext
    | _ => cases htext
  · rintro ⟨c, hc, hne⟩
    exact ⟨c.content, List.mem_filterMap.mpr ⟨.chunk c, hc, if_neg hne⟩, by simpa using hne⟩

/-- However the bytes of a stream are cut, the wrapper yields the same chunks
and records the engine's figures, and the first text with the chunk that
completes its event. -/
theorem framing_exact (k : CharTable) (job : Job E) (es : List Input) (oss : List (List (Output E)))
    (body : List Arrival) (request : RecordedRequest) (finish : ℚ) (hr : ReadsOn es)
    (h : run (step job) .created es = some (.finished none, oss))
    (hbody : Carries (events oss.flatten) body) :
    (wrapAndRecordSse k request finish body none).1 = body.map (fun a => a.chunk.raw) ∧
    Accounts (accounted job (answers es)) (wrapAndRecordSse k request finish body none).2 ∧
    ((wrapAndRecordSse k request finish body none).2.ttftMs.isSome ↔
      ∃ c, .chunk c ∈ answers es ∧ c.content ≠ "") ∧
    (wrapAndRecordSse k request finish body none).2.ttftMs =
      ((firstContentEnd (events oss.flatten)).bind fun n =>
        arrival n (body.map Arrival.marked)).map (elapsedMs request.start) := by
  obtain ⟨a, hev⟩ := finished_transcript job es oss hr h
  have husage : lastFigures (events oss.flatten) = accounted job (answers es) := by
    rw [hev, lastFigures, transcript_usage, accounted]
  obtain ⟨hp, hc⟩ := record_tokens k (events oss.flatten) body request finish hbody
  rw [husage] at hp hc
  refine ⟨relay_yielded _ _ _, ⟨hp, hc, ?_⟩, ?_, record_ttft k _ body request finish hbody⟩
  · show (recordOf k body request finish).totalTokens = _
    rw [record_total, hp, hc]
    cases accounted job (answers es) <;> rfl
  · show (recordOf k body request finish).ttftMs.isSome ↔ _
    rw [record_ttft_isSome k _ body request finish hbody, hev, transcript_carries]

def halves (es : List SseEvent) (n : ℕ) : List Arrival :=
  [⟨.bytes ((encode (es.flatMap SseEvent.text)).take n), 1⟩,
    ⟨.bytes ((encode (es.flatMap SseEvent.text)).drop n), 2⟩]

theorem halves_carry (es : List SseEvent) (n : ℕ) : Carries es (halves es n) := by
  simp [Carries, halves, BodyChunk.raw]

theorem framing_exact_halves : ∃ oss,
    run (step helloJob) .created helloInputs = some (.finished none, oss) ∧
    (wrapAndRecordSse ascii ⟨0, none, "/v1/chat/completions", "POST"⟩ 3
      (halves (events oss.flatten) 200) none).2.ttftMs.isSome = true :=
  ⟨_, rfl, (framing_exact ascii helloJob helloInputs _ _ ⟨0, none, "/v1/chat/completions", "POST"⟩ 3
    (readsOn_reading _ _ _ _) rfl (halves_carry _ 200)).2.2.1.mpr
      ⟨⟨"Hi", none, none, none⟩, by
        rw [helloInputs, answers_reading]
        exact List.mem_append_left _ (by simp), by decide⟩⟩

end InferenceX.StreamFraming
