import InferenceX.BenchmarkRun
import InferenceX.NameResolvers

/-!
# What a benchmark counts

Against servers whose streams finish a run does not fail, and the tokens it
reports for each prompt are those the engine accounted for.
-/

set_option autoImplicit false

namespace InferenceX.BenchmarkCounts
open Library.JsonText Library.DecimalFloat Library.StepRuns Library.TextLines Library.CharClasses
open InferenceX.PythonValues InferenceX.ChatSchema InferenceX.ModelRegistry
open InferenceX.BenchmarkSchemas InferenceX.SuiteIdentity InferenceX.VllmPoolConfig
open InferenceX.HubEstimates InferenceX.StreamEvents InferenceX.StreamMachine
open InferenceX.StreamTranscript InferenceX.BenchmarkRun
open InferenceX.StreamConsumers (runPromptStream measure_ok agrees_lines countOf_lines)
open InferenceX.DefaultRoute (plainHub)
open InferenceX.NameResolvers (plainHub_sized)

def promptPayload (modelName text : String) : ChatPayload where
  model := modelName
  messages := [⟨.user, text⟩]
  temperature := none
  maxTokens := some (some 256)
  topP := none
  stream := some true
  maxContextTokens := none
  maxOutputTokens := none
  priority := none
  streamOptions := some (some ⟨true⟩)
  seed := none
  strict := none

def finalUsage : Input → Option ChatCompletionUsage
  | .chunk c => if c.finishReason.isSome then c.usage else none
  | _ => none

def engineCount (es : List Input) : ℤ :=
  ((es.filterMap finalUsage).getLast?.map ChatCompletionUsage.completionTokens).getD 0

/-- The exchange is a stream that the server finished for the prompt's request,
and the engine accounted for so many tokens. -/
def Finishes (E : Type) (modelName text : String) (count : ℤ) (exchange : Exchange) : Prop :=
  ∃ (job : Job E) (es : List Input) (oss : List (List (Output E))) (start finish : ℚ)
    (timed : List (List Char × ℚ)), job.request.val = (promptPayload modelName text).request ∧
    ReadsOn es ∧ run (step job) .created es = some (.finished none, oss) ∧
    timed.map Prod.fst = splitlines ((events oss.flatten).flatMap SseEvent.text) ∧
    exchange = .streamed start finish timed ∧ count = engineCount (answers es)

/-- An item of a suite with a text and a label, which are texts. -/
def Asks (item : Json) (p : String × String) : Prop :=
  subscript item "label" = .ok (.str p.1) ∧ subscript item "text" = .ok (.str p.2)

section Counts
variable {E : Type} (k : CharTable) (F : FloatRepr 2)

theorem accounted_final (job : Job E) (h : job.includeUsage = true) (e : Input) :
    accountedUsage job e = finalUsage e := by
  cases e with
  | chunk c => simp [accountedUsage, finalUsage, h]
  | _ => rfl

theorem runPrompt_finishes (label modelName text : String) (count : ℤ) (exchange : Exchange)
    (h : Finishes E modelName text count exchange) :
    ∃ r, runPrompt k F (.str label) exchange = .ok r ∧ r.promptLabel = label ∧
      r.tokensGenerated = count := by
  obtain ⟨job, es, oss, start, finish, timed, hrequest, hr, hrun, hlines, rfl, rfl⟩ := h
  have husage : job.includeUsage = true := by
    rw [Job.includeUsage, hrequest]
    rfl
  obtain ⟨a, hev⟩ := finished_transcript job es oss hr hrun
  rw [StreamFrames.splitlines_events, hev] at hlines
  have hagree : ∀ p ∈ timed, StreamConsumers.Agrees k p.1 := by
    intro p hp
    refine agrees_lines k (transcript job a (answers es)++[.done]) p.1 ?_
    rw [← hlines]
    exact List.mem_map_of_mem hp
  obtain ⟨m, hm, -, hcount⟩ := measure_ok k start ⟨0, none⟩ timed hagree
  have hstream : ∃ p, runPromptStream k label start finish timed = .ok p ∧
      p.promptLabel = label ∧ p.tokensGenerated = m.tokensGenerated :=
    ⟨_, by rw [runPromptStream, hm]; rfl, rfl, rfl⟩
  obtain ⟨p, hp, hlabel, htokens⟩ := hstream
  refine ⟨stored F p, by rw [runPrompt, hp]; rfl, hlabel, ?_⟩
  have hfinal : accountedUsage job = finalUsage := funext (accounted_final job husage)
  rw [stored, htokens, hcount, hlines, countOf_lines, transcript_usage, hfinal,
    List.getLast?_map, engineCount]

theorem runPrompts_finish (modelName : String) (server : ℕ → Json → Exchange) (counts : ℕ → ℤ)
    (items : List Json) (prompts : List (String × String)) (h : List.Forall₂ Asks items prompts)
    (i : ℕ) (hserver : ∀ j p, prompts[j]? = some p →
      Finishes E modelName p.2 (counts (i+j)) (server (i+j) (.str p.2))) :
    ∃ results, runPrompts k F server i items = .ok results ∧
      results.map (fun r => (r.promptLabel, r.tokensGenerated)) =
        (prompts.zipIdx i).map fun p => (p.1.1, counts p.2) := by
  induction h generalizing i with
  | nil => exact ⟨[], rfl, rfl⟩
  | @cons item p items prompts hask _ ih =>
    obtain ⟨r, hr, hlabel, htokens⟩ := runPrompt_finishes k F p.1 modelName p.2 (counts i)
      (server i (.str p.2)) (hserver 0 p rfl)
    obtain ⟨results, hresults, hmap⟩ := ih (i+1) fun j q hq => by
      rw [Nat.add_assoc, Nat.add_comm 1]
      exact hserver (j+1) q hq
    refine ⟨r::results, ?_, ?_⟩
    · rw [runPrompts, hask.1, hask.2]
      simp only [bind, Except.bind]
      rw [hr, hresults]
      rfl
    · rw [List.map_cons, hmap, List.zipIdx_cons, List.map_cons, hlabel, htokens]

theorem checkVramBudget_sized (hub : Hub) (hs : Sized hub) (modelName : String) (measured : ℚ)
    (entry : Option ModelEntry) (he : ∀ e ∈ entry, e.valid = true) :
    ∃ p, checkVramBudget hub modelName measured entry = .ok p := by
  cases entry with
  | none => exact ⟨_, rfl⟩
  | some e =>
    have hwindow : 0 ≤ (pyOr e.maxModelLen (some 2048)).getD 0 := by
      have hvalid := he e rfl
      simp only [ModelEntry.valid, Bool.and_eq_true] at hvalid
      have hlen : positive e.maxModelLen = true := hvalid.1.1.1.1.2
      cases hm : e.maxModelLen with
      | none => decide
      | some n =>
        have hn : 1 ≤ n := by simpa [positive, hm] using hlen
        have hne : n ≠ 0 := by omega
        simp only [pyOr, if_neg hne, Option.getD_some]
        omega
    obtain ⟨f, hf⟩ := estimateEngineFootprintGib_sized hub hs e.modelPath e.quantization _ hwindow
    simp only [checkVramBudget, hf, bind, Except.bind]
    exact ⟨_, rfl⟩

/-- Against a server that finishes every stream a run of a suite that verifies
does not fail: it reports one result for each prompt, in their order, under its
label and with the engine's count of tokens. -/
theorem run_counts (hub : Hub) (hs : Sized hub) (entry : Option ModelEntry)
    (he : ∀ e ∈ entry, e.valid = true) (server : ℕ → Json → Exchange)
    (before after : HardwareProfile) (modelName timestamp : String) (concurrency : ℤ)
    (data : List (String × Json)) (version : Json) (items : List Json)
    (hv : verifySuite data = .ok (version, .arr items)) (prompts : List (String × String))
    (hprompts : List.Forall₂ Asks items prompts) (counts : ℕ → ℤ)
    (hserver : ∀ i p, prompts[i]? = some p →
      Finishes E modelName p.2 (counts i) (server i (.str p.2))) :
    ∃ r, BenchmarkRun.run F hub entry server before after modelName timestamp concurrency data =
        .ok r ∧
      r.promptResults.map (fun q => (q.promptLabel, q.tokensGenerated)) =
        prompts.zipIdx.map fun p => (p.1.1, counts p.2) := by
  have hserver0 : ∀ j p, prompts[j]? = some p →
      Finishes E modelName p.2 (counts (0+j)) (server (0+j) (.str p.2)) := by
    intro j p hp
    rw [Nat.zero_add]
    exact hserver j p hp
  obtain ⟨results, hresults, hmap⟩ :=
    runPrompts_finish hub.classes F modelName server counts items prompts hprompts 0 hserver0
  obtain ⟨⟨exceeded, warning⟩, hbudget⟩ := checkVramBudget_sized hub hs modelName
    (peakVramFootprintGb before after) entry he
  have hrun : ∃ r, BenchmarkRun.run F hub entry server before after modelName timestamp
      concurrency data = .ok r ∧ r.promptResults = results := by
    simp only [BenchmarkRun.run, verified, hv, iterate, bind, Except.bind]
    rw [hresults]
    simp only [hbudget]
    exact ⟨_, rfl, rfl⟩
  obtain ⟨r, hr, rfl⟩ := hrun
  exact ⟨r, hr, hmap⟩

/-- A prompt, and the stream of a small server that accounts for two tokens. -/
theorem run_counts_hello :
    let prompts := Json.arr [.obj [("label", .str "greeting"), ("text", .str "hello")]]
    let job := smallJob () ⟨(promptPayload "m" "hello").request, by decide +kernel⟩
    let inputs := reading job helloResult [⟨"Hi", none, none, none⟩,
      ⟨"", some .stop, some ⟨5, 2, 7⟩, none⟩] .exhausted
    ∃ oss r, run (step job) .created inputs = some (.finished none, oss) ∧
      BenchmarkRun.run (decimals 1) plainHub none (fun _ _ => .streamed 0 1
          ((splitlines ((events oss.flatten).flatMap SseEvent.text)).map fun l => (l, 1)))
        ⟨none, .short 0 0, .short 0 0, 4, .short 8 0, false⟩
        ⟨none, .short 0 0, .short 0 0, 4, .short 8 0, false⟩ "m" "now" 1
        [("suite_version", .str (computeSuiteVersion prompts)), ("prompts", prompts)] = .ok r ∧
      r.promptResults.map (fun q => (q.promptLabel, q.tokensGenerated)) = [("greeting", 2)] := by
  intro prompts job inputs
  have hrun : ∃ oss, run (step job) .created inputs = some (.finished none, oss) := ⟨_, rfl⟩
  obtain ⟨oss, hrun⟩ := hrun
  have hv : verifySuite [("suite_version", .str (computeSuiteVersion prompts)),
      ("prompts", prompts)] = .ok (.str (computeSuiteVersion prompts), prompts) :=
    (verifySuite_ok _ _ _).mpr ⟨rfl, rfl, rfl⟩
  obtain ⟨r, hr, hmap⟩ := run_counts (E := Unit) (decimals 1) plainHub plainHub_sized none (by simp)
    (fun _ _ => .streamed 0 1
      ((splitlines ((events oss.flatten).flatMap SseEvent.text)).map fun l => (l, 1)))
    ⟨none, .short 0 0, .short 0 0, 4, .short 8 0, false⟩
    ⟨none, .short 0 0, .short 0 0, 4, .short 8 0, false⟩ "m" "now" 1 _ _ _ hv
    [("greeting", "hello")] (.cons ⟨rfl, rfl⟩ .nil) (fun _ => 2) (by
      intro i p hp
      obtain ⟨rfl, rfl⟩ : i = 0 ∧ p = ("greeting", "hello") := by
        rcases i with _ | i
        · exact ⟨rfl, (Option.some.inj hp).symm⟩
        · cases hp
      refine ⟨job, inputs, oss, 0, 1, _, rfl, readsOn_reading _ _ _ _, hrun, ?_, rfl, rfl⟩
      rw [List.map_map]
      exact List.map_id' _)
  exact ⟨oss, r, hrun, hr, hmap⟩

end Counts

end InferenceX.BenchmarkCounts
