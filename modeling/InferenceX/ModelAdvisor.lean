import InferenceX.BenchmarkSchemas
import InferenceX.Library.StableSort
import InferenceX.Library.TextLines
import InferenceX.PythonValues

/-!
# The model advisor

Benchmark results are scored against a hardware profile and sorted by their
scores. Throughput and warm latency are taken relative to the maxima over all
results of the hardware, a model without room in the GPU memory scores zero.
Measurements are exact rationals, and lowering a text is a parameter.
-/

set_option autoImplicit false

namespace InferenceX.ModelAdvisor
open Library.JsonText Library.TextLines Library.StableSort
open InferenceX.PythonValues InferenceX.BenchmarkSchemas

def number (x : FloatText) : ℚ := x.value.getD 0

def vramSafetyBufferGb : ℚ := 1/2

structure AdvisorResult where
  modelName : String
  score : ℚ
  viable : Bool
  throughputTps : ℚ
  ttftMs : ℚ
  vramDeviceOccupiedGib : ℚ
  recommendationStr : String
  deriving DecidableEq, Repr

structure AdvisorReport where
  ranked : List AdvisorResult
  warnings : List String
  deriving DecidableEq, Repr

/-- `a / b`. -/
def divide (a b : ℚ) : Except PyError ℚ :=
  if b = 0 then .error (.other "ZeroDivisionError") else .ok (a/b)

def safeDiv (a b fallback : ℚ) : Except PyError ℚ :=
  if b > 0 then divide a b else .ok fallback

/-- `max(xs)` of a list that is not empty. -/
def maximum (xs : List ℚ) : ℚ := xs.max?.getD 0

/-- `statistics.mean(xs)` of a list that is not empty. -/
def mean (xs : List ℚ) : ℚ := xs.sum/xs.length

def warmResults (result : BenchmarkResult) : List PromptResult :=
  if 1 < result.promptResults.length then result.promptResults.drop 1 else result.promptResults

def warmTtftMs (result : BenchmarkResult) : ℚ :=
  if warmResults result = [] then 0
  else mean ((warmResults result).map fun p => number p.ttftMs)

def formatGpuLabel (hw : HardwareProfile) : String :=
  match hw.gpuName with
  | none => "CPU only"
  | some name =>
    if name = "" then "CPU only" else name ++ " (" ++ fixedText 1 (number hw.vramTotalGb) ++ " GB)"

section Eligible
variable (lowercase : String → String) (hardware : HardwareProfile)
  (modelMaxLens : Option (List (String × Option ℤ)))

/-- `(name or "").lower().strip()`. -/
def nameKey (name : Option String) : List Char := strip (lowercase (name.getD "")).toList

def hardwareMatches (saved current : HardwareProfile) : Bool :=
  let savedName := nameKey lowercase saved.gpuName
  let currentName := nameKey lowercase current.gpuName
  if savedName ≠ [] ∧ currentName ≠ [] ∧ savedName ≠ currentName then false
  else if |number saved.vramTotalGb-number current.vramTotalGb| > 1/2 then false
  else true

def isEligible (result : BenchmarkResult) : Bool :=
  match result.hardware with
  | none => true
  | some saved => hardwareMatches lowercase saved hardware

def maxModelLenWarning (result : BenchmarkResult) : List String :=
  match modelMaxLens with
  | none => []
  | some lens =>
    match result.maxModelLen, (lens.lookup result.modelName).join with
    | some saved, some current =>
      if saved ≠ current then
        [result.modelName ++ ": benchmark used max_model_len=" ++ toString saved ++
          ", current config is " ++ toString current ++ " — re-run `make benchmark MODEL=" ++
          result.modelName ++ "` to refresh."]
      else []
    | _, _ => []

def noHardware (result : BenchmarkResult) : String :=
  "No hardware recorded for " ++ result.modelName ++ " — re-run `make benchmark MODEL=" ++
    result.modelName ++ "`"

def skipped (result : BenchmarkResult) (saved : HardwareProfile) : String :=
  "Skipped " ++ result.modelName ++ " — benchmark was run on " ++ formatGpuLabel saved ++
    ", current GPU is " ++ formatGpuLabel hardware ++ ". Re-run `make benchmark MODEL=" ++
    result.modelName ++ "` to get fresh results."

def warningsOf (result : BenchmarkResult) : List String :=
  match result.hardware with
  | none => noHardware result::maxModelLenWarning modelMaxLens result
  | some saved =>
    if hardwareMatches lowercase saved hardware then maxModelLenWarning modelMaxLens result
    else [skipped hardware result saved]

end Eligible

section Score
variable (hardware : HardwareProfile)

def vramRequired (result : BenchmarkResult) : ℚ :=
  number result.vramDeviceOccupiedGib+vramSafetyBufferGb

def viableByVram (result : BenchmarkResult) : Bool :=
  if hardware.hasGpu then vramRequired result ≤ number hardware.vramTotalGb else true

def skipText (result : BenchmarkResult) : String :=
  result.modelName ++ " — requires " ++ fixedText 2 (number result.vramDeviceOccupiedGib) ++
    " GB + " ++ fixedText 1 vramSafetyBufferGb ++ " GB buffer = " ++
    fixedText 2 (vramRequired result) ++ " GB, only " ++
    fixedText 1 (number hardware.vramTotalGb) ++ " GB total. Skip."

def viableText (result : BenchmarkResult) : String :=
  result.modelName ++ " — " ++ fixedText 0 (number result.meanThroughputTps) ++ " tok/s, " ++
    fixedText 0 (warmTtftMs result) ++ "ms TTFT, " ++
    fixedText 2 (number result.vramDeviceOccupiedGib) ++ " GB VRAM"

def vramScore (result : BenchmarkResult) : Except PyError ℚ :=
  if hardware.hasGpu then
    (divide (number hardware.vramTotalGb-vramRequired result) (number hardware.vramTotalGb)).map
      fun share => max 0 (min 1 share)
  else .ok 1

def entry (result : BenchmarkResult) (score : ℚ) (viable : Bool) (text : String) :
    AdvisorResult :=
  ⟨result.modelName, roundPlaces 2 score, viable, number result.meanThroughputTps,
    warmTtftMs result, number result.vramDeviceOccupiedGib, text⟩

def advise (maxThroughput maxTtft : ℚ) (result : BenchmarkResult) :
    Except PyError AdvisorResult :=
  if viableByVram hardware result then do
    let throughputScore ← safeDiv (number result.meanThroughputTps) maxThroughput 0
    let ttftShare ← safeDiv (warmTtftMs result) maxTtft 0
    let ttftScore := 1-ttftShare
    let vram ← vramScore hardware result
    let score := (4/9*throughputScore+1/3*ttftScore+2/9*vram)*100
    return entry result score true (viableText result)
  else .ok (entry result 0 false (skipText hardware result))

end Score

/-- `key=lambda r: r.score, reverse=True`. -/
def RanksBefore (a b : AdvisorResult) : Prop := b.score ≤ a.score

instance : DecidableRel RanksBefore := fun _ _ => inferInstanceAs (Decidable (_ ≤ _))

def rank (lowercase : String → String) (hardware : HardwareProfile)
    (results : List BenchmarkResult) (modelMaxLens : Option (List (String × Option ℤ))) :
    Except PyError AdvisorReport :=
  if results = [] then .ok ⟨[], []⟩
  else
    let eligible := results.filter (isEligible lowercase hardware)
    let warnings := results.flatMap (warningsOf lowercase hardware modelMaxLens)
    if eligible = [] then .ok ⟨[], warnings⟩
    else do
      let maxThroughput := maximum (eligible.map fun r => number r.meanThroughputTps)
      let maxTtft := maximum (eligible.map warmTtftMs)
      let advised ← eligible.mapM (advise hardware maxThroughput maxTtft)
      return ⟨advised.insertionSort RanksBefore, warnings⟩

end InferenceX.ModelAdvisor
