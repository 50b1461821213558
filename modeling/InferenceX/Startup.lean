import InferenceX.ChatDispatch
import InferenceX.VariantSelector

/-!
# Startup

The router and the engine pool are built one after the other, each from a
setting of its own and its own reading of tier and memory. A registered name
stands for itself, any other for the variant of its family that fits. Nothing
compares the two outcomes, so a request for an unknown model is served exactly
where both settings stand for one model.
-/

set_option autoImplicit false

namespace InferenceX.Startup
open Library.TextLines
open InferenceX.PythonValues InferenceX.ChatSchema InferenceX.ModelRegistry
open InferenceX.AdmissionGates InferenceX.ChatDispatch
open InferenceX.VllmPoolConfig InferenceX.VariantSelector

structure Settings where
  defaultModel : String
  loadedModels : List String
  deriving DecidableEq, Repr

def appSettings (defaultModel loadedModels : Option String) : Settings :=
  let fallback := defaultModel.getD "qwen2.5-0.5b"
  let raw := (loadedModels.getD "").toList
  let names := ((raw.splitOn ',').map strip).filter (· ≠ [])
  ⟨fallback, if strip raw = [] then [fallback] else names.map String.ofList⟩

/-- What a builder reads: the tier, if it resolves, and the memory. -/
structure Reading where
  tier : Option VramTier
  probe : Probe

def Reading.routerVram (reading : Reading) : ℚ :=
  reading.probe.free.getD (sizeOr reading.probe.total 8)

def Reading.poolVram (reading : Reading) : ℚ :=
  reading.probe.free.getD (reading.probe.total.getD 8)

def notRegistered (name : String) (registry : Registry) : PyError :=
  .valueError ("Model '" ++ name ++ "' is not registered. Available: " ++ listRepr registry.names)

def registryGet (registry : Registry) (name : String) : Except PyError ValidEntry :=
  match registry.find name with
  | some e => .ok e
  | none => .error (notRegistered name registry)

def tooManyModels (names : List String) : PyError :=
  .valueError ("INFERENCE_X_LOADED_MODELS resolved to " ++ toString names.length ++ " models (" ++
    ", ".intercalate names ++ "), but each server process serves " ++
    "exactly one model (docs/DECISIONS.md DEC-059). Run one process per " ++
    "model instead — see playground/server_control.py for the pattern " ++
    "InferenceX's own TUI compare mode uses.")

/-- Loading vLLM, and the rest of an engine's constructor behind its sizing. -/
structure Runtime (E : Type) where
  loadVllm : Except PyError Unit
  construct : EngineConfig → Except PyError E
  isHealthy : E → Bool

section Pool
variable {E : Type} (hub : Hub) (runtime : Runtime E) (registry : Registry)

def resolveLoadedName (tier : Option VramTier) (available : ℚ) (name : String) :
    Except PyError String :=
  if registry.contains name then .ok name
  else
    match tier with
    | none => do
      let _ ← registryGet registry name
      .error .attributeError
    | some t =>
      if (variants registry name).isEmpty then do
        let _ ← registryGet registry name
        selectVariant hub name registry t available
      else selectVariant hub name registry t available

def resolveLoadedModelNames (loaded : List String) (tier : Option VramTier) (available : ℚ) :
    Except PyError (List String) :=
  loaded.mapM (resolveLoadedName hub registry tier available)

/-- `VLLMEngine(model_config, free_vram_gib, total_vram_gib)` behind the preflight. -/
def buildEngine (entry : ModelEntry) (reading : Reading) (again : Probe) : Except PyError E := do
  let config := applyTierKnobs (modelDump entry) reading.tier
  validateModelFits hub config (reading.probe.total.getD 8) reading.probe.free
  runtime.loadVllm
  let scaled ← scaleModelConfig hub config (engineTotal reading.probe again) reading.probe.free
  runtime.construct scaled

def onePool (name : String) (engine : E) : EnginePool E :=
  ⟨[(name, engine)], List.cons_ne_nil _ _, List.nodup_singleton _⟩

def buildEnginePool (loaded : List String) (reading : Reading) (again : Probe) :
    Except PyError (EnginePool E) := do
  let resolved ← resolveLoadedModelNames hub registry loaded reading.tier reading.poolVram
  match resolved.eraseDups with
  | [] => .error (.valueError "EnginePool requires at least one engine")
  | [name] =>
    let entry ← registryGet registry name
    (buildEngine hub runtime entry.val reading again).map (onePool name)
  | names => .error (tooManyModels names)

def unknownDefault (name : String) (registry : Registry) : PyError :=
  .valueError ("Default model '" ++ name ++ "' is not in the registry. Available: " ++
    listRepr registry.names)

def resolveDefaultModel (defaultModel : String) (tier : Option VramTier) (available : ℚ) :
    Except PyError String :=
  match tier with
  | none => .ok defaultModel
  | some t =>
    if registry.contains defaultModel = true ∨ (variants registry defaultModel).isEmpty = true then
      .ok defaultModel
    else selectVariant hub defaultModel registry t available

/-- `TaskRouter(registry, default_model)`. -/
def taskRouter (defaultModel : String) : Except PyError TaskRouter :=
  if h : registry.contains defaultModel = true then .ok ⟨registry, defaultModel, h⟩
  else .error (unknownDefault defaultModel registry)

def buildRouter (defaultModel : String) (reading : Reading) : Except PyError TaskRouter := do
  let resolved ← resolveDefaultModel hub registry defaultModel reading.tier reading.routerVram
  taskRouter registry resolved

def unhealthy (names : List String) : PyError :=
  .runtimeError ("Engines not healthy after startup init: " ++ listRepr names)

def initializeApp (settings : Settings) (forRouter forPool : Reading) (again : Probe) :
    Except PyError (TaskRouter × EnginePool E) := do
  let router ← buildRouter hub registry settings.defaultModel forRouter
  let pool ← buildEnginePool hub runtime registry settings.loadedModels forPool again
  if pool.engines.all fun e => runtime.isHealthy e.2 then .ok (router, pool)
  else .error (unhealthy ((pool.engines.filter fun e => !runtime.isHealthy e.2).map Prod.fst))

end Pool

end InferenceX.Startup
