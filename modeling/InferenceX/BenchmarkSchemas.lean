import InferenceX.Library.JsonRead

/-!
# Benchmark results and their JSON

`model_dump` writes every field under its name. `model_validate` looks each
field up, the occupied memory under its deprecated name as well, and falls
back to the field's default. The validator's conversions of a value are
parameters: all that is assumed is that a value of the right type stays.
-/

set_option autoImplicit false

namespace InferenceX.BenchmarkSchemas
open Library.JsonText

structure HardwareProfile where
  gpuName : Option String
  vramTotalGb : FloatText
  vramFreeGb : FloatText
  cpuCores : ℤ
  ramTotalGb : FloatText
  hasGpu : Bool
  deriving DecidableEq, Repr

structure PromptResult where
  promptLabel : String
  tokensGenerated : ℤ
  ttftMs : FloatText
  totalLatencyMs : FloatText
  tokensPerSec : FloatText
  deriving DecidableEq, Repr

structure BenchmarkResult where
  modelName : String
  suiteVersion : String
  timestamp : String
  concurrency : ℤ
  promptResults : List PromptResult
  p50LatencyMs : FloatText
  p95LatencyMs : FloatText
  p99LatencyMs : FloatText
  meanThroughputTps : FloatText
  vramDeviceOccupiedGib : FloatText
  hardware : Option HardwareProfile
  maxModelLen : Option ℤ
  vramBudgetExceeded : Bool
  vramBudgetWarning : Option String
  deriving DecidableEq, Repr

def HardwareProfile.dump (h : HardwareProfile) : Json :=
  .obj [("gpu_name", h.gpuName.elim .null .str), ("vram_total_gb", .float h.vramTotalGb),
    ("vram_free_gb", .float h.vramFreeGb), ("cpu_cores", .int h.cpuCores),
    ("ram_total_gb", .float h.ramTotalGb), ("has_gpu", .bool h.hasGpu)]

def PromptResult.dump (p : PromptResult) : Json :=
  .obj [("prompt_label", .str p.promptLabel), ("tokens_generated", .int p.tokensGenerated),
    ("ttft_ms", .float p.ttftMs), ("total_latency_ms", .float p.totalLatencyMs),
    ("tokens_per_sec", .float p.tokensPerSec)]

def BenchmarkResult.dump (r : BenchmarkResult) : Json :=
  .obj [("model_name", .str r.modelName), ("suite_version", .str r.suiteVersion),
    ("timestamp", .str r.timestamp), ("concurrency", .int r.concurrency),
    ("prompt_results", .arr (r.promptResults.map PromptResult.dump)),
    ("p50_latency_ms", .float r.p50LatencyMs), ("p95_latency_ms", .float r.p95LatencyMs),
    ("p99_latency_ms", .float r.p99LatencyMs),
    ("mean_throughput_tps", .float r.meanThroughputTps),
    ("vram_device_occupied_gib", .float r.vramDeviceOccupiedGib),
    ("hardware", r.hardware.elim .null HardwareProfile.dump),
    ("max_model_len", r.maxModelLen.elim .null .int),
    ("vram_budget_exceeded", .bool r.vramBudgetExceeded),
    ("vram_budget_warning", r.vramBudgetWarning.elim .null .str)]

/-- The conversions of the validator, each undefined where it raises. -/
structure Validator where
  str : Json → Option String
  int : Json → Option ℤ
  float : Json → Option FloatText
  bool : Json → Option Bool
  str_self : ∀ s, str (.str s) = some s
  int_self : ∀ z, int (.int z) = some z
  float_self : ∀ x, float (.float x) = some x
  bool_self : ∀ b, bool (.bool b) = some b

def strict : Validator where
  str | .str s => some s | _ => none
  int | .int z => some z | _ => none
  float | .float x => some x | _ => none
  bool | .bool b => some b | _ => none
  str_self _ := rfl
  int_self _ := rfl
  float_self _ := rfl
  bool_self _ := rfl

def field {A : Type} (members : List (String × Json)) (names : List String)
    (convert : Json → Option A) (fallback : Option A) : Option A :=
  match names.findSome? fun name => member name members with
  | some value => convert value
  | none => fallback

/-- `Optional[…]`. -/
def optional {A : Type} (convert : Json → Option A) : Json → Option (Option A)
  | .null => some none
  | value => (convert value).map some

/-- `list[…]`. -/
def listOf {A : Type} (convert : Json → Option A) : Json → Option (List A)
  | .arr items => items.mapM convert
  | _ => none

def zeroFloat : FloatText := .short 0 0

section Validate
variable (V : Validator)

def validateHardware : Json → Option HardwareProfile
  | .obj members => do
    return {
      gpuName := ← field members ["gpu_name"] (optional V.str) (some none)
      vramTotalGb := ← field members ["vram_total_gb"] V.float (some zeroFloat)
      vramFreeGb := ← field members ["vram_free_gb"] V.float (some zeroFloat)
      cpuCores := ← field members ["cpu_cores"] V.int (some 1)
      ramTotalGb := ← field members ["ram_total_gb"] V.float (some zeroFloat)
      hasGpu := ← field members ["has_gpu"] V.bool (some false) }
  | _ => none

def validatePrompt : Json → Option PromptResult
  | .obj members => do
    return {
      promptLabel := ← field members ["prompt_label"] V.str none
      tokensGenerated := ← field members ["tokens_generated"] V.int none
      ttftMs := ← field members ["ttft_ms"] V.float none
      totalLatencyMs := ← field members ["total_latency_ms"] V.float none
      tokensPerSec := ← field members ["tokens_per_sec"] V.float none }
  | _ => none

def validateResult : Json → Option BenchmarkResult
  | .obj members => do
    return {
      modelName := ← field members ["model_name"] V.str none
      suiteVersion := ← field members ["suite_version"] V.str none
      timestamp := ← field members ["timestamp"] V.str none
      concurrency := ← field members ["concurrency"] V.int (some 1)
      promptResults := ← field members ["prompt_results"] (listOf (validatePrompt V)) (some [])
      p50LatencyMs := ← field members ["p50_latency_ms"] V.float (some zeroFloat)
      p95LatencyMs := ← field members ["p95_latency_ms"] V.float (some zeroFloat)
      p99LatencyMs := ← field members ["p99_latency_ms"] V.float (some zeroFloat)
      meanThroughputTps := ← field members ["mean_throughput_tps"] V.float (some zeroFloat)
      vramDeviceOccupiedGib := ← field members
        ["vram_device_occupied_gib", "peak_vram_delta_gb"] V.float (some zeroFloat)
      hardware := ← field members ["hardware"] (optional (validateHardware V)) (some none)
      maxModelLen := ← field members ["max_model_len"] (optional V.int) (some none)
      vramBudgetExceeded := ← field members ["vram_budget_exceeded"] V.bool (some false)
      vramBudgetWarning := ← field members ["vram_budget_warning"] (optional V.str) (some none) }
  | _ => none

theorem optional_elim {A : Type} (convert : Json → Option A) (dump : A → Json)
    (h : ∀ a, convert (dump a) = some a) (hnull : ∀ a, dump a ≠ .null) (a : Option A) :
    optional convert (a.elim .null dump) = some a := by
  cases a with
  | none => rfl
  | some a =>
    rw [Option.elim_some, optional, h]
    · rfl
    · exact hnull a

theorem validateHardware_dump (h : HardwareProfile) : validateHardware V h.dump = some h := by
  have hname := optional_elim V.str .str V.str_self (fun _ => nofun) h.gpuName
  simp [validateHardware, HardwareProfile.dump, field, member, V.float_self, V.int_self,
    V.bool_self, hname]

theorem validatePrompt_dump (p : PromptResult) : validatePrompt V p.dump = some p := by
  simp [validatePrompt, PromptResult.dump, field, member, V.str_self, V.int_self, V.float_self]

theorem listOf_dump (ps : List PromptResult) :
    listOf (validatePrompt V) (.arr (ps.map PromptResult.dump)) = some ps := by
  induction ps with
  | nil => rfl
  | cons p ps ih =>
    rw [listOf] at ih
    simp [listOf, validatePrompt_dump, ih]

theorem validateResult_dump (r : BenchmarkResult) : validateResult V r.dump = some r := by
  have hhardware := optional_elim (validateHardware V) HardwareProfile.dump
    (validateHardware_dump V) (fun _ => nofun) r.hardware
  have hlen := optional_elim V.int .int V.int_self (fun _ => nofun) r.maxModelLen
  have hwarning := optional_elim V.str .str V.str_self (fun _ => nofun) r.vramBudgetWarning
  simp [validateResult, BenchmarkResult.dump, field, member, V.str_self, V.int_self,
    V.float_self, V.bool_self, listOf_dump, hhardware, hlen, hwarning]

end Validate

end InferenceX.BenchmarkSchemas
