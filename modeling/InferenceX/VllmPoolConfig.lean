import InferenceX.JsonAccess
import InferenceX.Library.CharClasses
import InferenceX.ModelRegistry

/-!
# GPU memory sizing

The share of GPU memory an engine gets: a footprint estimated from the model's
path and its hub configuration, lowered to the free memory and the entry's own
cap, raised to the weights, and lowered again. Memory and shares are exact
rationals. What the hub and the Unicode tables answer are parameters.
-/

set_option autoImplicit false

namespace InferenceX.VllmPoolConfig
open Library.JsonText Library.TextLines Library.CharClasses
open InferenceX.PythonValues InferenceX.JsonAccess InferenceX.ModelRegistry

abbrev HfConfig := List (String × Json)

/-- What the sizing reads from outside: `AutoConfig.from_pretrained(path).to_dict()`,
if it does not raise, and the character tables. -/
structure Hub where
  autoConfig : String → Option HfConfig
  classes : CharTable

def poolGpuHeadroom : ℚ := 92/100
def defaultBytesPerParam : ℚ := 2
def runtimeHeadroomGib : ℚ := 35/100
def cudagraphOverheadGib : ℚ := 45/100
def freeVramSafety : ℚ := 98/100
def defaultWeightGib : ℚ := 3/2
def defaultKvGib : ℚ := 4/10
def gib : ℚ := 1024^3

def quantBytesPerParam : List (String × ℚ) :=
  [("awq", 55/100), ("awq_marlin", 55/100), ("gptq", 55/100), ("gptq_marlin", 55/100),
    ("int4", 55/100), ("bitsandbytes", 55/100), ("int8", 1), ("fp8", 1), ("fp8_e4m3", 1),
    ("fp8_e5m2", 1)]

/-- `part in text`. -/
def occurs (part text : List Char) : Bool := text.tails.any fun t => part.isPrefixOf t

/-- `text.lower()`, as far as an ASCII word can tell. -/
def lower (text : List Char) : List Char := text.map Char.toLower

def bytesPerParam (quantization : Option String) : ℚ :=
  match quantization with
  | none => defaultBytesPerParam
  | some q =>
    if q = "" then defaultBytesPerParam
    else
      let key := lower (strip q.toList)
      match quantBytesPerParam.find? fun p => p.1.toList = key with
      | some p => p.2
      | none =>
        match quantBytesPerParam.find? fun p => occurs p.1.toList key with
        | some p => p.2
        | none => defaultBytesPerParam

/-- `config.get(a) or config.get(b) or … or fallback`. -/
def firstTruthy (config : HfConfig) (fallback : Json) : List String → Json
  | [] => fallback
  | name::names =>
    let value := (member name config).getD .null
    if truthy value then value else firstTruthy config fallback names

def readInt (k : CharTable) (config : HfConfig) (names : List String) (fallback : ℤ) :
    Except PyError ℤ :=
  toInt k (firstTruthy config (.int fallback) names)

def layerNames : List String := ["num_hidden_layers", "n_layer", "num_layers"]

def parameterCountFromArch (k : CharTable) (config : HfConfig) : Except PyError ℤ := do
  let hidden ← readInt k config ["hidden_size", "n_embd"] 4096
  let layers ← readInt k config layerNames 32
  let vocab ← readInt k config ["vocab_size"] 32000
  let intermediate ← readInt k config ["intermediate_size"] (hidden*4)
  let perLayer := 12*hidden*hidden+13*hidden*intermediate
  return layers*perLayer+vocab*hidden

section Paths
variable (hub : Hub)

def hfConfigDict (modelPath : String) : Option HfConfig :=
  if modelPath = "" ∨ ["/", "./", "../"].any (fun p => p.toList.isPrefixOf modelPath.toList) then
    none
  else hub.autoConfig modelPath

def unitFactor : List Char → Option ℕ
  | c::rest =>
    if hub.classes.ends rest then
      if c = 'm' ∨ c = 'M' then some 1000000
      else if c = 'b' ∨ c = 'B' then some 1000000000
      else none
    else none
  | [] => none

/-- `(\d+(?:\.\d+)?)([mMbB])\b` at the front of a text, as a number of parameters. -/
def paramsHere (text : List Char) : Option ℤ :=
  match hub.classes.digits text with
  | ([], _) => none
  | (whole, rest) =>
    match rest with
    | '.'::more =>
      match hub.classes.digits more with
      | ([], _) => none
      | (fraction, after) =>
        (unitFactor hub after).map fun factor =>
          truncate ((ofDigits (whole++fraction) : ℚ)/10^fraction.length*factor)
    | _ => (unitFactor hub rest).map fun factor => truncate ((ofDigits whole : ℚ)*factor)

def paramsFromNameOrPath (modelPath : String) : Option ℤ :=
  modelPath.toList.tails.findSome? (paramsHere hub)

end Paths

def embeddingParamCount (k : CharTable) (config : Option HfConfig) (totalParams : ℤ) :
    Except PyError ℤ :=
  match config with
  | none => .ok 0
  | some [] => .ok 0
  | some members => do
    let hidden ← readInt k members ["hidden_size", "n_embd"] 0
    let vocab ← readInt k members ["vocab_size"] 0
    if hidden = 0 ∨ vocab = 0 then return 0
    let tied := truthy ((member "tie_word_embeddings" members).getD (.bool true))
    return min (vocab*hidden*(if tied then 1 else 2)) totalParams

section Estimates
variable (hub : Hub) (modelPath : String) (quantization : Option String)

def paramCount (config : Option HfConfig) : Except PyError Json :=
  match paramsFromNameOrPath hub modelPath, config with
  | some n, _ => .ok (.int n)
  | none, none => .ok .null
  | none, some [] => .ok .null
  | none, some members =>
    let params := firstTruthy members ((member "n_params" members).getD .null) ["num_parameters"]
    if truthy params then .ok params else (parameterCountFromArch hub.classes members).map Json.int

def estimateWeightGib : Except PyError ℚ := do
  let config := hfConfigDict hub modelPath
  let found ← paramCount hub modelPath config
  if truthy found = false then return defaultWeightGib
  let params ← toInt hub.classes found
  let perParam := bytesPerParam quantization
  if perParam ≥ defaultBytesPerParam then return params*perParam/gib
  let embed ← embeddingParamCount hub.classes config params
  return ((params-embed : ℤ)*perParam+embed*defaultBytesPerParam)/gib

def estimateKvCacheGib (maxModelLen : ℤ) : Except PyError ℚ :=
  match hfConfigDict hub modelPath with
  | none => .ok (defaultKvGib*(maxModelLen/2048))
  | some [] => .ok (defaultKvGib*(maxModelLen/2048))
  | some members => do
    let hidden ← readInt hub.classes members ["hidden_size", "n_embd"] 4096
    let layers ← readInt hub.classes members layerNames 32
    return (2*layers*hidden*maxModelLen : ℤ)*defaultBytesPerParam/gib

def architectureOverheadGib : ℚ :=
  if occurs "minicpm".toList (lower modelPath.toList) then 28/10 else 0

def estimateEngineFootprintGib (maxModelLen : ℤ) : Except PyError ℚ := do
  let weights ← estimateWeightGib hub modelPath quantization
  let kv ← estimateKvCacheGib hub modelPath maxModelLen
  return weights+kv+runtimeHeadroomGib+cudagraphOverheadGib+architectureOverheadGib modelPath

def minimumUtilization (maxModelLen : ℤ) (total : ℚ) : Except PyError ℚ :=
  if total ≤ 0 then .ok (9/10)
  else (estimateEngineFootprintGib hub modelPath quantization maxModelLen).map (·/total)

def weightsOnlyUtilization (total : ℚ) : Except PyError ℚ :=
  if total ≤ 0 then .ok (1/2) else (estimateWeightGib hub modelPath quantization).map (·/total)

end Estimates

/-- An entry's fields and the engine knobs of its tier, as the engine gets them. -/
structure EngineConfig where
  entry : ModelEntry
  blockSize : Option ℤ
  kvCacheDtype : Option String
  enablePrefixCaching : Option Bool
  deriving DecidableEq, Repr

/-- `model_dump()`. -/
def modelDump (e : ModelEntry) : EngineConfig := ⟨e, none, none, none⟩

def userUtilCap (config : EngineConfig) : Option ℚ :=
  match config.entry.gpuMemoryUtilization with
  | some (.fixed share) => some share
  | _ => none

/-- `int(config.get("max_model_len") or 2048)`. -/
def windowOf (config : EngineConfig) : ℤ :=
  match config.entry.maxModelLen with
  | some n => if n = 0 then 2048 else n
  | none => 2048

def maxFromFree (total : ℚ) (free : Option ℚ) : Option ℚ :=
  free.bind fun f => if 0 < total then some (freeVramSafety*f/total) else none

def noRoomError (name : String) (free weight : ℚ) : PyError :=
  .valueError ("Only " ++ fixedText 1 free ++ " GiB VRAM free but model " ++ name ++
    " needs ~" ++ fixedText 1 weight ++ " GiB for weights. Stop other GPU processes " ++
    "(orphaned VLLM::EngineCore from prior runs) or choose a smaller model.")

/-- `min(x, bound)` where there is a bound. -/
def lowered (x : ℚ) : Option ℚ → ℚ
  | some bound => min x bound
  | none => x

def chain (footprint weights : ℚ) (fromFree cap : Option ℚ) : ℚ :=
  min (lowered (max (lowered (lowered footprint fromFree) cap) weights) fromFree) poolGpuHeadroom

section Engine
variable (hub : Hub)

def weightsFit (config : EngineConfig) (total : ℚ) (free : Option ℚ) : Except PyError Unit :=
  match free with
  | none => .ok ()
  | some f =>
    if 0 < total then do
      let weight ← estimateWeightGib hub config.entry.modelPath config.entry.quantization
      if weight > f*freeVramSafety then .error (noRoomError config.entry.name f weight) else .ok ()
    else .ok ()

def singleEngineUtilization (config : EngineConfig) (total : ℚ) (free : Option ℚ) :
    Except PyError ℚ := do
  let path := config.entry.modelPath
  let weights ← weightsOnlyUtilization hub path config.entry.quantization total
  let footprint ← minimumUtilization hub path config.entry.quantization (windowOf config) total
  weightsFit hub config total free
  return roundPlaces 4 (chain footprint weights (maxFromFree total free) (userUtilCap config))

def validateModelFits (config : EngineConfig) (total : ℚ) (free : Option ℚ) :
    Except PyError Unit :=
  (singleEngineUtilization hub config total free).map fun _ => ()

def scaleModelConfig (config : EngineConfig) (total : ℚ) (free : Option ℚ) :
    Except PyError EngineConfig :=
  (singleEngineUtilization hub config total free).map fun util =>
    { config with entry := { config.entry with gpuMemoryUtilization := some (.fixed util) } }

end Engine

def tighter (own : Option ℤ) (ceiling : ℤ) : ℤ := (own.map (min · ceiling)).getD ceiling

def applyTierKnobs (config : EngineConfig) (tier : Option VramTier) : EngineConfig :=
  match tier with
  | none => config
  | some t =>
    { entry := { config.entry with
        maxNumSeqs := some (tighter config.entry.maxNumSeqs t.maxNumSeqs)
        maxNumBatchedTokens :=
          match t.maxNumBatchedTokens with
          | some bound => some (tighter config.entry.maxNumBatchedTokens bound)
          | none => config.entry.maxNumBatchedTokens }
      blockSize := some t.blockSize
      kvCacheDtype := some t.kvCacheDtype
      enablePrefixCaching := some t.enablePrefixCaching }

/-- `probe_gpu_memory_gib()`: free and total memory. -/
structure Probe where
  free : Option ℚ
  total : Option ℚ
  deriving DecidableEq, Repr

/-- `_probe_cuda_vram().get("total_gib")`. -/
def Probe.totalGib (p : Probe) : Option ℚ :=
  match p.free, p.total with
  | some _, some total => some (roundPlaces 2 total)
  | _, _ => none

/-- `a or b` on memory sizes. -/
def sizeOr (a : Option ℚ) (b : ℚ) : ℚ :=
  match a with
  | some x => if x = 0 then b else x
  | none => b

/-- `total_vram_gib or _probe_cuda_vram().get("total_gib") or 8.0`. -/
def engineTotal (probe again : Probe) : ℚ := sizeOr probe.total (sizeOr again.totalGib 8)

/-- The steps of `_build_engine_pool` up to the sizing inside the engine, which
probes again where the first probe had no total. -/
def prepareEngine (hub : Hub) (entry : ModelEntry) (tier : Option VramTier)
    (probe again : Probe) : Except PyError EngineConfig := do
  let config := applyTierKnobs (modelDump entry) tier
  validateModelFits hub config (probe.total.getD 8) probe.free
  scaleModelConfig hub config (engineTotal probe again) probe.free

end InferenceX.VllmPoolConfig
