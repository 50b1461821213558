import InferenceX.AdvisorScores
import InferenceX.BenchmarkRun
import InferenceX.SuiteLatest

/-!
# From benchmark runs to advice

The runner saves its results, the route reads them back, keeps the latest of
each model for the current suite and lets the advisor rank them. Whatever runs
were saved, the route answers: with one of two warnings where it has nothing to
rank, else with one entry for each model whose latest run is on this hardware.
-/

set_option autoImplicit false

namespace InferenceX.AdviseRoute
open Library.JsonText Library.DecimalFloat Library.CharClasses Library.KeyedWrites
open Library.LatestByKey
open InferenceX.PythonValues InferenceX.ModelRegistry InferenceX.BenchmarkSchemas
open InferenceX.ModelAdvisor InferenceX.AdvisorScores InferenceX.ResultStore
open InferenceX.SuiteIdentity InferenceX.SuiteLatest InferenceX.VllmPoolConfig
open InferenceX.BenchmarkRun hiding run
open InferenceX.StreamConsumers (measure)
open InferenceX.SseReaders (runnerLine RunnerLine)
open InferenceX.SseRecording (elapsedMs)

structure BenchmarkAdviseResponse where
  ranked : List AdvisorResult
  hardware : HardwareProfile
  generatedAt : String
  warnings : List String
  deriving DecidableEq, Repr

def suiteVersionOf (data : List (String × Json)) : Except PyError String :=
  (verified data).map fun p => pyStr p.1

def emptyStore : String := "No benchmark results exist. Run `make benchmark-all`."

def suiteMismatch (expectedSuite : String) : String :=
  "Benchmark results exist but none match the current suite version " ++ expectedSuite ++
    ". Re-run `make benchmark-all` to refresh."

def modelMaxLens (registry : Registry) : List (String × Option ℤ) :=
  registry.entries.map fun m => (m.val.name, m.val.maxModelLen)

def getBenchmarkAdvise (lowercase : String → String) (V : Validator) (dir : Directory)
    (data : List (String × Json)) (hardware : HardwareProfile)
    (config : Except PyError Registry) (generatedAt : String) :
    Except PyError BenchmarkAdviseResponse := do
  let expectedSuite ← suiteVersionOf data
  let selection := latestPerModelForSuite V expectedSuite dir
  match selection.status with
  | .empty => return ⟨[], hardware, generatedAt, [emptyStore]⟩
  | .suiteMismatch => return ⟨[], hardware, generatedAt, [suiteMismatch expectedSuite]⟩
  | .ok =>
    let registry ← config
    let report ← rank lowercase hardware (selection.latest.map Prod.snd)
      (some (modelMaxLens registry))
    return ⟨report.ranked, hardware, generatedAt, report.warnings⟩

def Plausible (k : CharTable) : Exchange → Prop
  | .failed _ => True
  | .streamed start finish lines => start ≤ finish ∧
      ∀ p ∈ lines, start ≤ p.2 ∧ ∀ n, runnerLine k p.1 = .ok (.counted n) → 0 ≤ n

def Sensible (m : StreamConsumers.Measured) : Prop :=
  0 ≤ m.tokensGenerated ∧ ∀ t ∈ m.ttftMs, 0 ≤ t

theorem elapsedMs_nonneg (start now : ℚ) (h : start ≤ now) : 0 ≤ elapsedMs start now :=
  mul_nonneg (sub_nonneg.mpr h) (by norm_num)

theorem line_sensible (start now : ℚ) (m : StreamConsumers.Measured) (hm : Sensible m)
    (hnow : start ≤ now) (reading : RunnerLine) (hr : ∀ n, reading = .counted n → 0 ≤ n) :
    Sensible (m.line start now reading) := by
  cases reading with
  | skipped => exact hm
  | counted n => exact ⟨hr n rfl, hm.2⟩
  | delta hasContent =>
    rw [StreamConsumers.Measured.line]
    split_ifs
    · refine ⟨hm.1, fun t ht => ?_⟩
      rw [← Option.some.inj ht]
      exact elapsedMs_nonneg start now hnow
    · exact hm

theorem measure_sensible (k : CharTable) (start : ℚ) (lines : List (List Char × ℚ))
    (hl : ∀ p ∈ lines, start ≤ p.2 ∧ ∀ n, runnerLine k p.1 = .ok (.counted n) → 0 ≤ n)
    (m m' : StreamConsumers.Measured) (hm : Sensible m) (h : measure k start m lines = .ok m') :
    Sensible m' := by
  induction lines generalizing m with
  | nil =>
    obtain rfl := Except.ok.inj h
    exact hm
  | cons p lines ih =>
    obtain ⟨line, now⟩ := p
    obtain ⟨reading, hreading, h⟩ := bind_ok h
    obtain ⟨⟨hnow, hcount⟩, hrest⟩ := List.forall_mem_cons.mp hl
    refine ih hrest _ (line_sensible start now m hm hnow reading ?_) h
    rintro n rfl
    exact hcount n hreading

theorem roundPlaces_nonneg (places : ℕ) (q : ℚ) (h : 0 ≤ q) : 0 ≤ roundPlaces places q := by
  have hzero : roundPlaces places 0 = 0 := by simpa using roundPlaces_int places 0
  rw [← hzero]
  exact roundPlaces_mono places h

section Runner
variable (k : CharTable) (F : FloatRepr 2)

theorem text_nonNegative (q : ℚ) (h : 0 ≤ q) : NonNegative (F.text (roundPlaces 2 q)) :=
  ⟨roundPlaces 2 q, F.value_text (roundHalfEven (q*10^2)), roundPlaces_nonneg 2 q h⟩

theorem runPrompt_nonNegative (label : Json) (exchange : Exchange) (hp : Plausible k exchange)
    (r : PromptResult) (h : runPrompt k F label exchange = .ok r) :
    NonNegative r.ttftMs ∧ 0 ≤ number r.tokensPerSec := by
  obtain ⟨-, start, finish, lines, m, rfl, hmeasure, hfigures⟩ :=
    runPrompt_ok k F label exchange r h
  obtain ⟨hcount, httft⟩ :=
    measure_sensible k start lines hp.2 _ m ⟨le_refl 0, by simp⟩ hmeasure
  have htotal := elapsedMs_nonneg start finish hp.1
  rw [hfigures.ttft, hfigures.rate]
  constructor
  · apply text_nonNegative
    cases hm : m.ttftMs with
    | none => exact htotal
    | some t => exact httft t hm
  · apply number_nonneg
    apply text_nonNegative
    have hcount : (0 : ℚ) ≤ m.tokensGenerated := by exact_mod_cast hcount
    split_ifs
    · positivity
    · exact le_refl 0

theorem runPrompts_nonNegative (server : ℕ → Json → Exchange)
    (hs : ∀ i text, Plausible k (server i text)) (i : ℕ) (items : List Json)
    (results : List PromptResult) (h : runPrompts k F server i items = .ok results) :
    ∀ r ∈ results, NonNegative r.ttftMs ∧ 0 ≤ number r.tokensPerSec := by
  induction items generalizing i results with
  | nil =>
    obtain rfl := Except.ok.inj h
    exact List.forall_mem_nil _
  | cons prompt items ih =>
    obtain ⟨text, -, h⟩ := bind_ok h
    obtain ⟨label, -, h⟩ := bind_ok h
    obtain ⟨r, hr, h⟩ := bind_ok h
    obtain ⟨rest, hrest, h⟩ := bind_ok h
    obtain rfl := Except.ok.inj h
    exact List.forall_mem_cons.mpr
      ⟨runPrompt_nonNegative k F label _ (hs i text) r hr, ih (i+1) rest hrest⟩

theorem meanOf_nonneg (xs : List ℚ) (h : ∀ x ∈ xs, 0 ≤ x) : 0 ≤ meanOf xs := by
  rw [meanOf]
  split_ifs
  · exact le_refl 0
  · exact div_nonneg (List.sum_nonneg h) (Nat.cast_nonneg _)

theorem peakVramFootprintGb_nonneg (before after : HardwareProfile) :
    0 ≤ peakVramFootprintGb before after := by
  rw [peakVramFootprintGb]
  split_ifs
  · exact le_max_left _ _
  · exact le_refl 0

/-- The result of a run against a server whose streams are plausible. -/
def Reported (r : BenchmarkResult) : Prop :=
  ∃ (hub : Hub) (entry : Option ModelEntry) (server : ℕ → Json → Exchange)
    (before after : HardwareProfile) (modelName : String) (moment : Moment) (concurrency : ℤ)
    (data : List (String × Json)), (∀ i text, Plausible hub.classes (server i text)) ∧
    BenchmarkRun.run F hub entry server before after modelName (String.ofList moment.isoformat)
      concurrency data = .ok r

theorem Reported.measured {r : BenchmarkResult} (h : Reported F r) : Measured r := by
  obtain ⟨hub, entry, server, before, after, modelName, moment, concurrency, data, hs, h⟩ := h
  obtain ⟨⟨version, prompts⟩, -, h⟩ := bind_ok h
  obtain ⟨items, -, h⟩ := bind_ok h
  obtain ⟨results, hresults, h⟩ := bind_ok h
  obtain ⟨⟨exceeded, warning⟩, -, h⟩ := bind_ok h
  obtain rfl := Except.ok.inj h
  have hnn := runPrompts_nonNegative hub.classes F server hs 0 items results hresults
  refine ⟨text_nonNegative F _ (meanOf_nonneg _ fun x hx => ?_),
    text_nonNegative F _ (peakVramFootprintGb_nonneg before after), fun p hp => (hnn p hp).1⟩
  obtain ⟨p, hp, rfl⟩ := List.mem_map.mp hx
  exact (hnn p hp).2

theorem Reported.fromRunner {r : BenchmarkResult} (h : Reported F r) : FromRunner r.timestamp := by
  obtain ⟨hub, entry, server, before, after, modelName, moment, concurrency, data, -, h⟩ := h
  obtain ⟨⟨version, prompts⟩, -, h⟩ := bind_ok h
  obtain ⟨items, -, h⟩ := bind_ok h
  obtain ⟨results, -, h⟩ := bind_ok h
  obtain ⟨⟨exceeded, warning⟩, -, h⟩ := bind_ok h
  obtain rfl := Except.ok.inj h
  exact ⟨moment, String.toList_ofList⟩

end Runner

section Route
variable (F : FloatRepr 2) (V : Validator) (k : CharTable) (runs : List BenchmarkResult)
  (hruns : ∀ r ∈ runs, Reported F r)
  (hd : (runs.map fun r => (safeModel k r.modelName.toList, r.timestamp)).Nodup)

include hd in
theorem runs_distinct : (runs.map fun r => (r.modelName, r.timestamp)).Nodup := by
  refine List.Nodup.map_on (fun r hr q hq hpair => ?_) hd.of_map
  obtain ⟨hmodel, htime⟩ := Prod.mk.inj hpair
  exact List.inj_on_of_nodup_map hd hr hq (by rw [hmodel, htime])

include hruns hd in
theorem runs_read : (allResults V (runs.foldl (save k) [])).Perm runs := by
  have hstamps : ∀ r ∈ runs, FromRunner r.timestamp := fun r hr => (hruns r hr).fromRunner
  have hsaved : runs.foldl (save k) [] = runs.map (written k) := by
    rw [saves_puts, puts_fresh _ [] ((names_nodup k runs hstamps).mpr hd), List.nil_append]
  have hperm := allResults_perm V k runs
  rwa [hsaved, read_written, ← hsaved] at hperm

theorem suiteVersionOf_verified (data : List (String × Json)) (version prompts : Json)
    (hv : verifySuite data = .ok (version, prompts)) :
    suiteVersionOf data = .ok (computeSuiteVersion prompts) := by
  obtain ⟨-, -, rfl⟩ := (verifySuite_ok _ _ _).mp hv
  rw [suiteVersionOf, verified, hv]
  rfl

structure LatestRuns (expected : String) (latest : List BenchmarkResult) : Prop where
  mem_iff : ∀ r, r ∈ latest ↔ LatestOfSuite runs expected r.modelName r
  nodup : (latest.map BenchmarkResult.modelName).Nodup
  complete : ∀ r ∈ runs, r.suiteVersion = expected →
    r.modelName ∈ latest.map BenchmarkResult.modelName

/-- The values kept of the results that are read are the latest runs. -/
theorem latestPerModel_runs (expected : String) (results : List BenchmarkResult)
    (hperm : results.Perm runs) (hstamps : ∀ r ∈ results, FromRunner r.timestamp)
    (hdistinct : (results.map fun r => (r.modelName, r.timestamp)).Nodup) :
    LatestRuns runs expected
      ((latestPerModel (results.filter fun r => r.suiteVersion = expected)).map Prod.snd) := by
  let matching := results.filter fun r => r.suiteVersion = expected
  have hm : (matching.map fun r => (r.modelName, r.timestamp)).Nodup :=
    hdistinct.sublist (List.filter_sublist.map _)
  have hpairs (model : String) (r : BenchmarkResult) :
      (model, r) ∈ latestPerModel matching ↔ LatestOfSuite runs expected model r := by
    rw [latestPerModel_latest, mem_latest_iff _ _ matching hm,
      newest_latestOfSuite results expected hstamps]
    simp only [LatestOfSuite, hperm.mem_iff]
  have hkeys : (latestPerModel matching).map Prod.fst =
      ((latestPerModel matching).map Prod.snd).map BenchmarkResult.modelName := by
    rw [List.map_map]
    exact List.map_congr_left fun p hp => ((hpairs p.1 p.2).mp hp).2.2.1.symm
  refine ⟨fun r => ?_, ?_, fun r hr hsuite => ?_⟩
  · rw [← hpairs]
    constructor
    · intro h
      obtain ⟨p, hp, rfl⟩ := List.mem_map.mp h
      rwa [((hpairs p.1 p.2).mp hp).2.2.1]
    · exact fun h => List.mem_map.mpr ⟨_, h, rfl⟩
  · rw [← hkeys, latestPerModel_latest]
    exact latest_keys_nodup _ _ matching
  · have hmem : r ∈ matching :=
      List.mem_filter.mpr ⟨hperm.mem_iff.mpr hr, decide_eq_true hsuite⟩
    have hkept := latest_keptAt BenchmarkResult.modelName BenchmarkResult.timestamp matching
      r.modelName
    rw [← latestPerModel_latest] at hkept
    rw [← hkeys]
    cases hl : (latestPerModel matching).lookup r.modelName with
    | none =>
      rw [hl] at hkept
      exact absurd rfl (hkept r hmem)
    | some q => exact List.mem_map.mpr ⟨_, mem_of_lookup _ _ _ hl, rfl⟩

theorem selection_runs (expected : String) (dir : Directory) (hperm : (allResults V dir).Perm runs)
    (hstamps : ∀ r ∈ runs, FromRunner r.timestamp)
    (hdistinct : (runs.map fun r => (r.modelName, r.timestamp)).Nodup) :
    ((latestPerModelForSuite V expected dir).status = .empty ↔ runs = []) ∧
    ((latestPerModelForSuite V expected dir).status = .suiteMismatch ↔
      runs ≠ [] ∧ ∀ r ∈ runs, r.suiteVersion ≠ expected) ∧
    ((∃ r ∈ runs, r.suiteVersion = expected) →
      (latestPerModelForSuite V expected dir).status = .ok ∧
      LatestRuns runs expected
        ((latestPerModelForSuite V expected dir).latest.map Prod.snd)) := by
  have hnil : allResults V dir = [] ↔ runs = [] := by
    rw [← List.length_eq_zero_iff, ← List.length_eq_zero_iff, hperm.length_eq]
  have hnone : (allResults V dir).filter (fun r => r.suiteVersion = expected) = [] ↔
      ∀ r ∈ runs, r.suiteVersion ≠ expected := by
    simp [List.filter_eq_nil_iff, hperm.mem_iff]
  rw [latestPerModelForSuite]
  dsimp only
  split_ifs with hempty hmismatch
  · have hruns := hnil.mp hempty
    refine ⟨iff_of_true rfl hruns, iff_of_false (by simp) fun h => h.1 hruns, ?_⟩
    rintro ⟨r, hr, -⟩
    exact absurd (hruns ▸ hr) List.not_mem_nil
  · refine ⟨iff_of_false (by simp) fun h => hempty (hnil.mpr h),
      iff_of_true rfl ⟨fun h => hempty (hnil.mpr h), hnone.mp hmismatch⟩, ?_⟩
    rintro ⟨r, hr, hsuite⟩
    exact absurd hsuite (hnone.mp hmismatch r hr)
  · refine ⟨iff_of_false (by simp) fun h => hempty (hnil.mpr h),
      iff_of_false (by simp) fun h => hmismatch (hnone.mpr h.2), fun _ => ⟨rfl, ?_⟩⟩
    exact latestPerModel_runs runs expected _ hperm (fun q hq => hstamps q (hperm.mem_iff.mp hq))
      ((hperm.map _).nodup_iff.mpr hdistinct)

end Route

section Advice
variable (F : FloatRepr 2) (lowercase : String → String) (V : Validator) (k : CharTable)
  (data : List (String × Json)) (hardware : HardwareProfile) (registry : Registry)
  (generatedAt : String)

theorem advise_unranked (dir : Directory) (config : Except PyError Registry) (expected : String)
    (hsuite : suiteVersionOf data = .ok expected) :
    ((latestPerModelForSuite V expected dir).status = .empty →
      getBenchmarkAdvise lowercase V dir data hardware config generatedAt =
        .ok ⟨[], hardware, generatedAt, [emptyStore]⟩) ∧
    ((latestPerModelForSuite V expected dir).status = .suiteMismatch →
      getBenchmarkAdvise lowercase V dir data hardware config generatedAt =
        .ok ⟨[], hardware, generatedAt, [suiteMismatch expected]⟩) := by
  constructor
  · intro h
    simp only [getBenchmarkAdvise, hsuite, h, bind, Except.bind]
    rfl
  · intro h
    simp only [getBenchmarkAdvise, hsuite, h, bind, Except.bind]
    rfl

theorem advise_ranked (dir : Directory) (expected : String)
    (hsuite : suiteVersionOf data = .ok expected) (latest : List BenchmarkResult)
    (hs : (latestPerModelForSuite V expected dir).status = .ok)
    (hl : (latestPerModelForSuite V expected dir).latest.map Prod.snd = latest)
    (hm : ∀ r ∈ latest, Measured r) :
    getBenchmarkAdvise lowercase V dir data hardware (.ok registry) generatedAt =
      .ok ⟨(entries hardware (latest.filter (isEligible lowercase hardware))).insertionSort
          RanksBefore, hardware, generatedAt,
        latest.flatMap (warningsOf lowercase hardware (some (modelMaxLens registry)))⟩ := by
  simp only [getBenchmarkAdvise, hsuite, hs, hl, bind, Except.bind,
    rank_sorted lowercase hardware latest _ hm]
  rfl

/-- However many runs were saved, the route answers. Without a run it says so;
without a run of the current suite it says that; else the report has one entry
for each model whose latest run of the suite is on this hardware, by scores
between 0 and 100. -/
theorem advice_of_runs (version prompts : Json) (hv : verifySuite data = .ok (version, prompts))
    (runs : List BenchmarkResult) (hruns : ∀ r ∈ runs, Reported F r)
    (hd : (runs.map fun r => (safeModel k r.modelName.toList, r.timestamp)).Nodup) :
    let expected := computeSuiteVersion prompts
    let advice := getBenchmarkAdvise lowercase V (runs.foldl (save k) []) data hardware
      (.ok registry) generatedAt
    (runs = [] → advice = .ok ⟨[], hardware, generatedAt, [emptyStore]⟩) ∧
    (runs ≠ [] → (∀ r ∈ runs, r.suiteVersion ≠ expected) →
      advice = .ok ⟨[], hardware, generatedAt, [suiteMismatch expected]⟩) ∧
    ((∃ r ∈ runs, r.suiteVersion = expected) → ∃ latest ranked, LatestRuns runs expected latest ∧
      advice = .ok ⟨ranked, hardware, generatedAt,
        latest.flatMap (warningsOf lowercase hardware (some (modelMaxLens registry)))⟩ ∧
      ranked.Perm (entries hardware (latest.filter (isEligible lowercase hardware))) ∧
      ranked.Pairwise RanksBefore ∧ ∀ a ∈ ranked, 0 ≤ a.score ∧ a.score ≤ 100) := by
  intro expected advice
  have hsuite : suiteVersionOf data = .ok expected :=
    suiteVersionOf_verified data version prompts hv
  have hperm := runs_read F V k runs hruns hd
  have hstamps : ∀ r ∈ runs, FromRunner r.timestamp := fun r hr => (hruns r hr).fromRunner
  have hselect := selection_runs V runs expected (runs.foldl (save k) []) hperm hstamps
    (runs_distinct k runs hd)
  obtain ⟨hunranked, hmismatched⟩ := advise_unranked lowercase V data hardware generatedAt
    (runs.foldl (save k) []) (.ok registry) expected hsuite
  refine ⟨fun hnil => hunranked (hselect.1.mpr hnil),
    fun hne hnone => hmismatched (hselect.2.1.mpr ⟨hne, hnone⟩), fun hsome => ?_⟩
  obtain ⟨hs, hlatest⟩ := hselect.2.2 hsome
  have hmeasured : ∀ r ∈ (latestPerModelForSuite V expected (runs.foldl (save k) [])).latest.map
      Prod.snd, Measured r :=
    fun r hr => (hruns r ((hlatest.mem_iff r).mp hr).1).measured
  refine ⟨_, _, hlatest, advise_ranked lowercase V data hardware registry generatedAt _ expected
    hsuite _ hs rfl hmeasured, List.perm_insertionSort _ _, List.pairwise_insertionSort _ _,
    fun a ha => ?_⟩
  obtain ⟨q, hq, rfl⟩ := List.mem_map.mp ((List.mem_insertionSort _).mp ha)
  exact score_bounds hardware _ q hq (hmeasured q (List.mem_of_mem_filter hq))

/-- A run of two prompts on a machine without a GPU is the one that is advised. -/
theorem advice_of_runs_one :
    let prompts := Json.arr [.obj [("label", .str "a"), ("text", .str "x")],
      .obj [("label", .str "b"), ("text", .str "y")]]
    let data := [("suite_version", Json.str (computeSuiteVersion prompts)), ("prompts", prompts)]
    let idle : HardwareProfile := ⟨none, .short 0 0, .short 0 0, 4, .short 8 0, false⟩
    ∃ r ranked warnings, BenchmarkRun.run (decimals 1) ⟨fun _ => none, ascii⟩ none
        (fun i _ => .streamed 0 (i+1) []) idle idle "m" (String.ofList (noon 0).isoformat) 1 data =
          .ok r ∧
      getBenchmarkAdvise id strict ([r].foldl (save ascii) []) data idle (.ok Registry.empty)
        "now" = .ok ⟨ranked, idle, "now", warnings⟩ ∧
      ranked.map AdvisorResult.modelName = ["m"] := by
  intro prompts data idle
  have hv : verifySuite data = .ok (.str (computeSuiteVersion prompts), prompts) :=
    (verifySuite_ok _ _ _).mpr ⟨rfl, rfl, rfl⟩
  have hrun : ∃ r, BenchmarkRun.run (decimals 1) ⟨fun _ => none, ascii⟩ none
      (fun i _ => .streamed 0 (i+1) []) idle idle "m" (String.ofList (noon 0).isoformat) 1 data =
        .ok r ∧ r.modelName = "m" ∧ r.suiteVersion = computeSuiteVersion prompts ∧
      r.hardware = some idle := by
    simp only [BenchmarkRun.run, verified, hv, bind, Except.bind]
    exact ⟨_, rfl, rfl, rfl, rfl⟩
  obtain ⟨r, hr, hmodel, hsuite, hhardware⟩ := hrun
  have hplausible : ∀ (i : ℕ) (text : Json), Plausible ascii (.streamed 0 (i+1) []) :=
    fun i _ => ⟨by positivity, by simp⟩
  have hreported : ∀ q ∈ [r], Reported (decimals 1) q := by
    intro q hq
    rw [List.mem_singleton.mp hq]
    exact ⟨_, _, _, _, _, _, noon 0, _, _, hplausible, hr⟩
  obtain ⟨latest, ranked, hlatest, hadvice, hperm, -⟩ :=
    (advice_of_runs (decimals 1) id strict ascii data idle Registry.empty "now" _ _ hv [r] hreported
      (by simp)).2.2 ⟨r, by simp, hsuite⟩
  have hone : latest = [r] := by
    refine List.perm_singleton.mp ((List.perm_ext_iff_of_nodup hlatest.nodup.of_map
      (List.nodup_singleton r)).mpr fun q => ?_)
    refine ⟨fun hq => ((hlatest.mem_iff q).mp hq).1, fun hq => ?_⟩
    obtain ⟨other, hother, -⟩ := List.mem_map.mp (hlatest.complete r (by simp) hsuite)
    have hsame := List.mem_singleton.mp ((hlatest.mem_iff other).mp hother).1
    rwa [List.mem_singleton.mp hq, ← hsame]
  have heligible : isEligible id idle r = true := by
    rw [isEligible, hhardware]
    decide +kernel
  have hranked : ranked = [advised idle (fastest [r]) (slowest [r]) r] := by
    refine List.perm_singleton.mp (hperm.trans ?_)
    rw [hone, List.filter_cons_of_pos heligible]
    exact List.Perm.refl _
  refine ⟨r, ranked, _, hr, hadvice, ?_⟩
  rw [hranked, List.map_singleton, advised]
  split_ifs
  · exact congrArg (fun name => [name]) hmodel
  · exact congrArg (fun name => [name]) hmodel

end Advice

end InferenceX.AdviseRoute
