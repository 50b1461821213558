import InferenceX.Library.DecimalFloat
import InferenceX.Library.Quantiles
import InferenceX.ModelAdvisor
import InferenceX.StreamConsumers
import InferenceX.SuiteIdentity
import InferenceX.VllmPoolConfig

/-!
# A benchmark run

The runner sends the prompts of a verified suite one after the other and gives
up at the first that fails. Of what it measured it reports percentiles and a
mean, rounded to two places like the measurements themselves.
-/

set_option autoImplicit false

namespace InferenceX.BenchmarkRun
open Library.JsonText Library.CharClasses Library.DecimalFloat Library.Quantiles
open InferenceX.PythonValues InferenceX.ModelRegistry InferenceX.BenchmarkSchemas
open InferenceX.ModelAdvisor (number mean)
open InferenceX.SseRecording (elapsedMs)
open InferenceX.StreamConsumers (runPromptStream measure)
open InferenceX.SuiteIdentity InferenceX.VllmPoolConfig

def percentile (data : List ℚ) (p : ℕ) : ℚ :=
  match data with
  | [] => 0
  | [x] => x
  | data => quantile 100 p data

/-- `statistics.mean(throughputs) if throughputs else 0.0`. -/
def meanOf (throughputs : List ℚ) : ℚ := if throughputs = [] then 0 else mean throughputs

def vramBudgetSlackGb : ℚ := 1/2

def peakVramFootprintGb (before after : HardwareProfile) : ℚ :=
  if before.hasGpu then
    max 0 (number before.vramTotalGb-min (number before.vramFreeGb) (number after.vramFreeGb))
  else 0

def budgetText (modelName : String) (measured budget : ℚ) : String :=
  modelName ++ ": measured VRAM delta " ++ fixedText 2 measured ++
    " GB exceeds estimated budget " ++ fixedText 2 budget ++ " GB (weights + KV + overhead + " ++
    fixedText 1 vramBudgetSlackGb ++ " GB slack)."

def checkVramBudget (hub : Hub) (modelName : String) (measured : ℚ) (entry : Option ModelEntry) :
    Except PyError (Bool × Option String) :=
  match entry with
  | none => .ok (false, none)
  | some e => do
    let window := (pyOr e.maxModelLen (some 2048)).getD 0
    let footprint ← estimateEngineFootprintGib hub e.modelPath e.quantization window
    let budget := footprint+vramBudgetSlackGb
    return if measured ≤ budget then (false, none)
      else (true, some (budgetText modelName measured budget))

/-- What comes of one request: an exception of the client, or a stream. -/
inductive Exchange where
  | failed (e : PyError)
  | streamed (start finish : ℚ) (lines : List (List Char × ℚ))

/-- `value[name]`. -/
def subscript (value : Json) (name : String) : Except PyError Json :=
  match value with
  | .obj members =>
    match member name members with
    | some v => .ok v
    | none => .error .keyError
  | _ => .error .typeError

/-- `for prompt in prompts`. -/
def iterate : Json → Except PyError (List Json)
  | .arr items => .ok items
  | .obj members => .ok (members.map fun m => .str m.1)
  | .str s => .ok (s.toList.map fun c => .str (String.ofList [c]))
  | _ => .error .typeError

section Runner
variable (k : CharTable) (F : FloatRepr 2)

def stored (p : StreamConsumers.PromptResult) : PromptResult :=
  ⟨p.promptLabel, p.tokensGenerated, F.text p.ttftMs, F.text p.totalLatencyMs,
    F.text p.tokensPerSec⟩

/-- `_run_prompt_stream`; a label that is no text fails when the result is built. -/
def runPrompt (label : Json) : Exchange → Except PyError PromptResult
  | .failed e => .error e
  | .streamed start finish lines =>
    match label with
    | .str s => (runPromptStream k s start finish lines).map (stored F)
    | _ => do
      let _ ← runPromptStream k "" start finish lines
      .error (.valueError "prompt_label")

def runPrompts (server : ℕ → Json → Exchange) : ℕ → List Json → Except PyError (List PromptResult)
  | _, [] => .ok []
  | i, prompt::rest => do
    let text ← subscript prompt "text"
    let label ← subscript prompt "label"
    let result ← runPrompt k F label (server i text)
    return result::(← runPrompts server (i+1) rest)

def verified (data : List (String × Json)) : Except PyError (Json × Json) :=
  match verifySuite data with
  | .ok p => .ok p
  | .error (.suiteIdentity message) => .error (.valueError message)
  | .error .keyError => .error .keyError

def latencies (results : List PromptResult) : List ℚ :=
  results.map fun r => number r.totalLatencyMs

def throughputs (results : List PromptResult) : List ℚ :=
  results.map fun r => number r.tokensPerSec

/-- `BenchmarkRunner.run` on a parsed suite. `entry` is what the registry has of
the model, and nothing where there is no registry. -/
def run (hub : Hub) (entry : Option ModelEntry) (server : ℕ → Json → Exchange)
    (before after : HardwareProfile) (modelName timestamp : String) (concurrency : ℤ)
    (data : List (String × Json)) : Except PyError BenchmarkResult := do
  let (version, prompts) ← verified data
  let results ← runPrompts hub.classes F server 0 (← iterate prompts)
  let peak := peakVramFootprintGb before after
  let (exceeded, warning) ← checkVramBudget hub modelName peak entry
  return {
    modelName := modelName
    suiteVersion := pyStr version
    timestamp := timestamp
    concurrency := concurrency
    promptResults := results
    p50LatencyMs := F.text (roundPlaces 2 (percentile (latencies results) 50))
    p95LatencyMs := F.text (roundPlaces 2 (percentile (latencies results) 95))
    p99LatencyMs := F.text (roundPlaces 2 (percentile (latencies results) 99))
    meanThroughputTps := F.text (roundPlaces 2 (meanOf (throughputs results)))
    vramDeviceOccupiedGib := F.text (roundPlaces 2 peak)
    hardware := some before
    maxModelLen := entry.bind ModelEntry.maxModelLen
    vramBudgetExceeded := exceeded
    vramBudgetWarning := warning }

end Runner

theorem roundPlaces_idem (places : ℕ) (q : ℚ) :
    roundPlaces places (roundPlaces places q) = roundPlaces places q := by
  have hpos : (10 : ℚ)^places ≠ 0 := by positivity
  rw [roundPlaces, roundPlaces, div_mul_cancel₀ _ hpos, roundHalfEven_int]

theorem number_text (F : FloatRepr 2) (q : ℚ) :
    number (F.text (roundPlaces 2 q)) = roundPlaces 2 q := by
  have hvalue : (F.text (roundPlaces 2 q)).value = some (roundPlaces 2 q) :=
    F.value_text (roundHalfEven (q*10^2))
  rw [number, hvalue, Option.getD_some]

theorem percentile_eq (data : List ℚ) (p : ℕ) : percentile data p = quantile 100 p data := by
  rcases data with _ | ⟨x, _ | ⟨y, data⟩⟩
  · simp [percentile, quantile, interpolate]
  · rw [quantile_eq, List.length_singleton, Nat.sub_self, Nat.mul_zero,
      interpolate_point 100 _ (by decide) 0 rfl]
    rfl
  · rfl

section Mean
variable (xs : List ℚ) (h : xs ≠ [])
include h

theorem sum_mean : (xs.map fun _ => mean xs).sum = xs.sum := by
  have hpos : (xs.length : ℚ) ≠ 0 := by simpa using h
  rw [List.map_const', List.sum_replicate, nsmul_eq_mul, mean, mul_div_cancel₀ _ hpos]

theorem exists_le_mean : ∃ x ∈ xs, x ≤ mean xs :=
  List.exists_le_of_sum_le h id (fun _ => mean xs) (by rw [List.map_id, sum_mean xs h])

theorem exists_mean_le : ∃ x ∈ xs, mean xs ≤ x :=
  List.exists_le_of_sum_le h (fun _ => mean xs) id (by rw [List.map_id, sum_mean xs h])

end Mean

section Summary
variable (k : CharTable) (F : FloatRepr 2)

def Rounded (x : FloatText) : Prop := ∃ q, x = F.text (roundPlaces 2 q)

theorem Rounded.fixed {x : FloatText} (h : Rounded F x) :
    roundPlaces 2 (number x) = number x := by
  obtain ⟨q, rfl⟩ := h
  rw [number_text, roundPlaces_idem]

/-- What is told of a stream: what its lines gave, and the time from its start to its end. -/
structure Figures (start finish : ℚ) (m : StreamConsumers.Measured) (r : PromptResult) : Prop where
  tokens : r.tokensGenerated = m.tokensGenerated
  ttft : r.ttftMs = F.text (roundPlaces 2 (m.ttftMs.getD (elapsedMs start finish)))
  total : r.totalLatencyMs = F.text (roundPlaces 2 (elapsedMs start finish))
  rate : r.tokensPerSec = F.text (roundPlaces 2 (if elapsedMs start finish > 0 then
    m.tokensGenerated/elapsedMs start finish*1000 else 0))

/-- A result is that of its prompt: it carries the prompt's label, and the stream that
answers the prompt's text, read to its end, gives its figures. -/
def ResultOf (exchange : Json → Exchange) (prompt : Json) (r : PromptResult) : Prop :=
  ∃ text start finish lines m, subscript prompt "text" = .ok text ∧
    subscript prompt "label" = .ok (.str r.promptLabel) ∧
    runPrompt k F (.str r.promptLabel) (exchange text) = .ok r ∧
    exchange text = .streamed start finish lines ∧ measure k start ⟨0, none⟩ lines = .ok m ∧
    Figures F start finish m r

/-- A prompt that is measured was answered by a stream, and has a text for its label. -/
theorem runPrompt_ok (label : Json) (exchange : Exchange) (r : PromptResult)
    (h : runPrompt k F label exchange = .ok r) : label = .str r.promptLabel ∧
      ∃ start finish lines m, exchange = .streamed start finish lines ∧
        measure k start ⟨0, none⟩ lines = .ok m ∧ Figures F start finish m r := by
  cases exchange with
  | failed e => cases h
  | streamed start finish lines =>
    cases label with
    | str s =>
      obtain ⟨p, hp, rfl⟩ := map_ok h
      obtain ⟨m, hm, hp⟩ := bind_ok hp
      obtain rfl := Except.ok.inj hp
      exact ⟨rfl, start, finish, lines, m, rfl, hm, rfl, rfl, rfl, rfl⟩
    | _ =>
      obtain ⟨p, -, h⟩ := bind_ok h
      cases h

theorem runPrompts_ok (server : ℕ → Json → Exchange) (i : ℕ) (items : List Json)
    (results : List PromptResult) (h : runPrompts k F server i items = .ok results) :
    List.Forall₂ (fun p r => ResultOf k F (server p.2) p.1 r) (items.zipIdx i) results := by
  induction items generalizing i results with
  | nil =>
    obtain rfl := Except.ok.inj h
    exact .nil
  | cons prompt items ih =>
    obtain ⟨text, htext, h⟩ := bind_ok h
    obtain ⟨label, hlabel, h⟩ := bind_ok h
    obtain ⟨r, hr, h⟩ := bind_ok h
    obtain ⟨rest, hrest, h⟩ := bind_ok h
    obtain rfl := Except.ok.inj h
    obtain ⟨rfl, start, finish, lines, m, hex, hm, hfigures⟩ := runPrompt_ok k F label _ r hr
    rw [List.zipIdx_cons]
    exact .cons ⟨text, start, finish, lines, m, htext, hlabel, hr, hex, hm, hfigures⟩
      (ih (i+1) rest hrest)

theorem ResultOf.rounded {exchange : Json → Exchange} {prompt : Json} {r : PromptResult}
    (h : ResultOf k F exchange prompt r) :
    Rounded F r.totalLatencyMs ∧ Rounded F r.tokensPerSec := by
  obtain ⟨_, _, _, _, _, -, -, -, -, -, hfigures⟩ := h
  exact ⟨⟨_, hfigures.total⟩, _, hfigures.rate⟩

theorem results_rounded (server : ℕ → Json → Exchange) (items : List (Json × ℕ))
    (results : List PromptResult)
    (h : List.Forall₂ (fun p r => ResultOf k F (server p.2) p.1 r) items results) :
    ∀ r ∈ results, Rounded F r.totalLatencyMs ∧ Rounded F r.tokensPerSec := by
  induction h with
  | nil => simp
  | cons hof _ ih => exact List.forall_mem_cons.mpr ⟨hof.rounded, ih⟩

/-- A reported percentile splits the measured latencies as it should. -/
theorem percentile_splits (results : List PromptResult) (hne : results ≠ [])
    (hr : ∀ r ∈ results, Rounded F r.totalLatencyMs) (p : ℕ) (hp : p ≤ 100) :
    Splits 100 p (latencies results)
      (number (F.text (roundPlaces 2 (percentile (latencies results) p)))) := by
  rw [number_text, percentile_eq]
  refine quantile_splits 100 p _ (by decide) hp (by simpa [latencies] using hne) _
    (roundPlaces_mono 2) fun y hy => ?_
  obtain ⟨r, hmem, rfl⟩ := List.mem_map.mp hy
  exact (hr r hmem).fixed

theorem percentile_mono (data : List ℚ) (p q : ℕ) (h : p ≤ q) (hq : q ≤ 100) :
    number (F.text (roundPlaces 2 (percentile data p))) ≤
      number (F.text (roundPlaces 2 (percentile data q))) := by
  rw [number_text, number_text, percentile_eq, percentile_eq]
  exact roundPlaces_mono 2 (quantile_mono 100 p data q (by decide) h hq)

/-- The reported mean lies between two of the measured throughputs. -/
theorem mean_between (results : List PromptResult) (hne : results ≠ [])
    (hr : ∀ r ∈ results, Rounded F r.tokensPerSec) :
    (∃ t ∈ throughputs results,
      t ≤ number (F.text (roundPlaces 2 (meanOf (throughputs results))))) ∧
    ∃ t ∈ throughputs results,
      number (F.text (roundPlaces 2 (meanOf (throughputs results)))) ≤ t := by
  have hthroughputs : throughputs results ≠ [] := by simpa [throughputs] using hne
  have hfixed : ∀ t ∈ throughputs results, roundPlaces 2 t = t := by
    intro t ht
    obtain ⟨r, hmem, rfl⟩ := List.mem_map.mp ht
    exact (hr r hmem).fixed
  rw [number_text, meanOf, if_neg hthroughputs]
  constructor
  · obtain ⟨t, ht, hle⟩ := exists_le_mean _ hthroughputs
    refine ⟨t, ht, ?_⟩
    rw [← hfixed t ht]
    exact roundPlaces_mono 2 hle
  · obtain ⟨t, ht, hle⟩ := exists_mean_le _ hthroughputs
    refine ⟨t, ht, ?_⟩
    rw [← hfixed t ht]
    exact roundPlaces_mono 2 hle

theorem checkVramBudget_ok (hub : Hub) (modelName : String) (measured : ℚ)
    (entry : Option ModelEntry) (exceeded : Bool) (warning : Option String)
    (h : checkVramBudget hub modelName measured entry = .ok (exceeded, warning)) :
    exceeded = warning.isSome := by
  cases entry with
  | none =>
    obtain ⟨rfl, rfl⟩ := Prod.mk.inj (Except.ok.inj h)
    rfl
  | some e =>
    obtain ⟨footprint, -, h⟩ := bind_ok h
    have h := Except.ok.inj h
    split_ifs at h
    · obtain ⟨rfl, rfl⟩ := Prod.mk.inj h
      rfl
    · obtain ⟨rfl, rfl⟩ := Prod.mk.inj h
      rfl

section Run
variable (hub : Hub) (entry : Option ModelEntry) (server : ℕ → Json → Exchange)
  (before after : HardwareProfile) (modelName timestamp : String) (concurrency : ℤ)
  (data : List (String × Json)) (r : BenchmarkResult)
  (h : run F hub entry server before after modelName timestamp concurrency data = .ok r)
include h

/-- A run that returns has verified the suite and measured each of its prompts. -/
theorem run_measured : ∃ version prompts items, verifySuite data = .ok (version, prompts) ∧
    iterate prompts = .ok items ∧ List.Forall₂
      (fun p q => ResultOf hub.classes F (server p.2) p.1 q) items.zipIdx r.promptResults := by
  obtain ⟨⟨version, prompts⟩, hverified, h⟩ := bind_ok h
  obtain ⟨items, hitems, h⟩ := bind_ok h
  obtain ⟨results, hresults, h⟩ := bind_ok h
  obtain ⟨⟨exceeded, warning⟩, -, h⟩ := bind_ok h
  obtain rfl := Except.ok.inj h
  refine ⟨version, prompts, items, ?_, hitems,
    runPrompts_ok hub.classes F server 0 items results hresults⟩
  rw [verified] at hverified
  split at hverified
  · rename_i hok
    rw [hok]
    exact congrArg _ (Except.ok.inj hverified)
  · cases hverified
  · cases hverified

theorem run_figures :
    r.p50LatencyMs = F.text (roundPlaces 2 (percentile (latencies r.promptResults) 50)) ∧
    r.p95LatencyMs = F.text (roundPlaces 2 (percentile (latencies r.promptResults) 95)) ∧
    r.p99LatencyMs = F.text (roundPlaces 2 (percentile (latencies r.promptResults) 99)) ∧
    r.meanThroughputTps = F.text (roundPlaces 2 (meanOf (throughputs r.promptResults))) ∧
    r.vramBudgetExceeded = r.vramBudgetWarning.isSome := by
  obtain ⟨⟨version, prompts⟩, -, h⟩ := bind_ok h
  obtain ⟨items, -, h⟩ := bind_ok h
  obtain ⟨results, -, h⟩ := bind_ok h
  obtain ⟨⟨exceeded, warning⟩, hbudget, h⟩ := bind_ok h
  obtain rfl := Except.ok.inj h
  exact ⟨rfl, rfl, rfl, rfl, checkVramBudget_ok hub modelName _ entry exceeded warning hbudget⟩

end Run

section Reordered
variable (results others : List PromptResult) (h : results.Perm others)
include h

theorem percentile_perm (p : ℕ) :
    percentile (latencies results) p = percentile (latencies others) p := by
  rw [percentile_eq, percentile_eq]
  exact quantile_perm 100 p _ _ (h.map _)

theorem meanOf_perm : meanOf (throughputs results) = meanOf (throughputs others) := by
  have hperm : (throughputs results).Perm (throughputs others) := h.map _
  by_cases hnil : throughputs others = []
  · rw [meanOf, meanOf, if_pos hnil, if_pos (List.perm_nil.mp (hnil ▸ hperm))]
  · have hsome : throughputs results ≠ [] := fun he => hnil (List.nil_perm.mp (he ▸ hperm))
    rw [meanOf, meanOf, if_neg hnil, if_neg hsome, mean, mean, hperm.sum_eq, hperm.length_eq]

end Reordered

/-- What a run reports does not depend on the order in which it measured. -/
theorem figures_reordered (hub : Hub) (entry : Option ModelEntry)
    (server server' : ℕ → Json → Exchange) (before after : HardwareProfile)
    (modelName timestamp : String) (concurrency : ℤ) (data data' : List (String × Json))
    (r r' : BenchmarkResult)
    (h : run F hub entry server before after modelName timestamp concurrency data = .ok r)
    (h' : run F hub entry server' before after modelName timestamp concurrency data' = .ok r')
    (hperm : r.promptResults.Perm r'.promptResults) :
    r.p50LatencyMs = r'.p50LatencyMs ∧ r.p95LatencyMs = r'.p95LatencyMs ∧
      r.p99LatencyMs = r'.p99LatencyMs ∧ r.meanThroughputTps = r'.meanThroughputTps := by
  obtain ⟨h50, h95, h99, hmean, -⟩ := run_figures F hub entry server before after modelName
    timestamp concurrency data r h
  obtain ⟨h50', h95', h99', hmean', -⟩ := run_figures F hub entry server' before after modelName
    timestamp concurrency data' r' h'
  rw [h50, h95, h99, hmean, h50', h95', h99', hmean', percentile_perm _ _ hperm,
    percentile_perm _ _ hperm, percentile_perm _ _ hperm, meanOf_perm _ _ hperm]
  exact ⟨rfl, rfl, rfl, rfl⟩

/-- A run that returns has measured every prompt of a suite that verifies on the stream
that answered its text, and what it reports of them is sound: percentiles in their order
and within the measured latencies, each splitting them in its ratio, and a mean among
the measured throughputs. -/
theorem run_summary (hub : Hub) (entry : Option ModelEntry) (server : ℕ → Json → Exchange)
    (before after : HardwareProfile) (modelName timestamp : String) (concurrency : ℤ)
    (data : List (String × Json)) (r : BenchmarkResult)
    (h : run F hub entry server before after modelName timestamp concurrency data = .ok r) :
    (∃ version prompts items, verifySuite data = .ok (version, prompts) ∧
      iterate prompts = .ok items ∧ List.Forall₂
        (fun p q => ResultOf hub.classes F (server p.2) p.1 q) items.zipIdx r.promptResults) ∧
    number r.p50LatencyMs ≤ number r.p95LatencyMs ∧
    number r.p95LatencyMs ≤ number r.p99LatencyMs ∧
    (r.promptResults ≠ [] →
      Splits 100 50 (latencies r.promptResults) (number r.p50LatencyMs) ∧
      Splits 100 95 (latencies r.promptResults) (number r.p95LatencyMs) ∧
      Splits 100 99 (latencies r.promptResults) (number r.p99LatencyMs) ∧
      (∀ low high, (∀ l ∈ latencies r.promptResults, low ≤ l ∧ l ≤ high) →
        low ≤ number r.p50LatencyMs ∧ number r.p99LatencyMs ≤ high) ∧
      (∃ t ∈ throughputs r.promptResults, t ≤ number r.meanThroughputTps) ∧
      ∃ t ∈ throughputs r.promptResults, number r.meanThroughputTps ≤ t) ∧
    r.vramBudgetExceeded = r.vramBudgetWarning.isSome := by
  obtain ⟨version, prompts, items, hverified, hitems, hall⟩ := run_measured F hub entry server
    before after modelName timestamp concurrency data r h
  obtain ⟨h50, h95, h99, hmean, hwarning⟩ := run_figures F hub entry server before after modelName
    timestamp concurrency data r h
  have hrounded := results_rounded hub.classes F server items.zipIdx r.promptResults hall
  refine ⟨⟨version, prompts, items, hverified, hitems, hall⟩, ?_, ?_, fun hne => ?_, hwarning⟩
  · rw [h50, h95]
    exact percentile_mono F _ 50 95 (by decide) (by decide)
  · rw [h95, h99]
    exact percentile_mono F _ 95 99 (by decide) (by decide)
  · have hl := fun q hq => (hrounded q hq).1
    have hsplits50 := percentile_splits F r.promptResults hne hl 50 (by decide)
    have hsplits99 := percentile_splits F r.promptResults hne hl 99 (by decide)
    obtain ⟨hlow, hhigh⟩ := mean_between F r.promptResults hne fun q hq => (hrounded q hq).2
    rw [h50, h95, h99, hmean]
    exact ⟨hsplits50, percentile_splits F r.promptResults hne hl 95 (by decide), hsplits99,
      fun low high hb => ⟨(hsplits50.bounds 100 50 _ low high hb).1,
        (hsplits99.bounds 100 99 _ low high hb).2⟩, hlow, hhigh⟩

theorem latency_seconds (i : ℕ) (prompt : Json) (r : PromptResult)
    (h : ResultOf k F (fun _ => .streamed 0 (i+1) []) prompt r) :
    number r.totalLatencyMs = 1000*(i+1) := by
  obtain ⟨text, start, finish, lines, m, -, -, -, hexchange, -, hfigures⟩ := h
  obtain ⟨rfl, rfl, -⟩ := Exchange.streamed.inj hexchange
  have hms : elapsedMs 0 ((i : ℚ)+1) = ((1000*(i+1) : ℤ) : ℚ) := by
    rw [elapsedMs]
    push_cast
    ring
  rw [hfigures.total, number_text, hms, roundPlaces_int]
  push_cast
  ring

/-- Two prompts, answered in one and in two seconds. -/
theorem run_summary_two :
    let prompts := Json.arr [.obj [("label", .str "a"), ("text", .str "x")],
      .obj [("label", .str "b"), ("text", .str "y")]]
    let idle : HardwareProfile := ⟨none, .short 0 0, .short 0 0, 4, .short 8 0, false⟩
    ∃ r, run (decimals 1) ⟨fun _ => none, Library.CharClasses.ascii⟩ none
        (fun i _ => .streamed 0 (i+1) []) idle idle "m" "now" 1
        [("suite_version", .str (computeSuiteVersion prompts)), ("prompts", prompts)] = .ok r ∧
      r.promptResults.map PromptResult.promptLabel = ["a", "b"] ∧
      latencies r.promptResults = [1000, 2000] ∧
      number r.p50LatencyMs ≤ number r.p95LatencyMs := by
  intro prompts idle
  have hv : verifySuite [("suite_version", .str (computeSuiteVersion prompts)),
      ("prompts", prompts)] = .ok (.str (computeSuiteVersion prompts), prompts) :=
    (verifySuite_ok _ _ _).mpr ⟨rfl, rfl, rfl⟩
  have hrun : ∃ r, run (decimals 1) ⟨fun _ => none, Library.CharClasses.ascii⟩ none
      (fun i _ => .streamed 0 (i+1) []) idle idle "m" "now" 1
      [("suite_version", .str (computeSuiteVersion prompts)), ("prompts", prompts)] = .ok r ∧
      r.promptResults.map PromptResult.promptLabel = ["a", "b"] := by
    simp only [run, verified, hv, bind, Except.bind]
    exact ⟨_, rfl, rfl⟩
  obtain ⟨r, hr, hlabels⟩ := hrun
  obtain ⟨⟨_, _, items, hverified, hitems, hall⟩, hle, -⟩ :=
    run_summary (decimals 1) _ _ _ _ _ _ _ _ _ r hr
  obtain ⟨-, rfl⟩ := Prod.mk.inj (Except.ok.inj (hv.symm.trans hverified))
  obtain rfl := Except.ok.inj hitems
  obtain ⟨first, rest, hfirst, hrest, hresults⟩ := List.forall₂_cons_left_iff.mp hall
  obtain ⟨second, rest, hsecond, hnone, rfl⟩ := List.forall₂_cons_left_iff.mp hrest
  obtain rfl := List.forall₂_nil_left_iff.mp hnone
  refine ⟨r, hr, hlabels, ?_, hle⟩
  rw [latencies, hresults, List.map_cons, List.map_singleton, latency_seconds _ _ 0 _ first hfirst,
    latency_seconds _ _ 1 _ second hsecond]
  norm_num

end Summary

end InferenceX.BenchmarkRun
