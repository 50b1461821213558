import InferenceX.AdmissionGates

/-!
# Routing, the engine pool and the effective request

The router honours a registered model name and falls back to the default,
which its constructor checked to be registered. The service looks the routed
name up in the pool of loaded engines. The effective request replaces
`max_tokens` by what admission granted; the resolved block is read off it.
-/

set_option autoImplicit false

namespace InferenceX.ChatDispatch
open InferenceX.PythonValues InferenceX.ChatSchema InferenceX.ModelRegistry
open InferenceX.AdmissionGates

structure ExplicitModelPolicy where
  registry : Registry

def ExplicitModelPolicy.apply (p : ExplicitModelPolicy) (r : ChatCompletionRequest) :
    Option String :=
  if p.registry.contains r.model then some r.model else none

structure DefaultModelPolicy (registry : Registry) where
  defaultModel : String
  registered : registry.contains defaultModel = true

def DefaultModelPolicy.apply {registry : Registry} (p : DefaultModelPolicy registry)
    (_r : ChatCompletionRequest) : String :=
  p.defaultModel

structure TaskRouter where
  registry : Registry
  default : DefaultModelPolicy registry

def TaskRouter.explicit (t : TaskRouter) : ExplicitModelPolicy := ⟨t.registry⟩

def TaskRouter.select (t : TaskRouter) (r : ChatCompletionRequest) : String :=
  match t.explicit.apply r with
  | some model => model
  | none => t.default.apply r

structure EnginePool (E : Type) where
  engines : List (String × E)
  nonempty : engines ≠ []
  nodup : (engines.map Prod.fst).Nodup

namespace EnginePool
variable {E : Type}

def loadedModels (p : EnginePool E) : List String := p.engines.map Prod.fst

def get (p : EnginePool E) (name : String) : Option E :=
  (p.engines.find? fun e => e.1 = name).map Prod.snd

end EnginePool

structure ChatService (E : Type) where
  pool : EnginePool E
  router : TaskRouter
  admission : AdmissionController

variable {E : Type}

/-- `loaded[0] if len(loaded) == 1 else str(loaded)`. -/
def loadedText (names : List String) : String :=
  match names with
  | [name] => name
  | _ => listRepr names

def notLoaded (model : String) (loaded : List String) : PyError :=
  .valueError (s!"Routed to model '{model}' but loaded model is " ++
    s!"'{loadedText loaded}'. " ++
    s!"Restart this process with INFERENCE_X_DEFAULT_MODEL={model}.")

def ChatService.resolveEngine (svc : ChatService E) (r : ChatCompletionRequest) :
    Except PyError (String × E) :=
  let model := svc.router.select r
  match svc.pool.get model with
  | none => .error (notLoaded model svc.pool.loadedModels)
  | some engine => .ok (model, engine)

/-- `request.model_copy(update={"max_tokens": admitted.effective_max_tokens})`. -/
def effectiveRequest (r : ChatCompletionRequest) (admitted : AdmissionResult) :
    ChatCompletionRequest :=
  { r with maxTokens := some admitted.effectiveMaxTokens }

def resolved (effective : ChatCompletionRequest) : ResolvedRequest where
  model := effective.model
  temperature := effective.temperature
  maxTokens := effective.maxTokens
  topP := effective.topP
  maxContextTokens := effective.maxContextTokens
  maxOutputTokens := effective.maxOutputTokens
  priority := effective.priority
  seed := effective.seed

def attach (response : ChatCompletionResponse) (effective : ChatCompletionRequest)
    (admitted : AdmissionResult) : ChatCompletionResponse :=
  { response with resolved := some (resolved effective), warnings := admitted.warnings }

theorem resolveEngine_ok (svc : ChatService E) (r : ChatCompletionRequest) (model : String)
    (engine : E) (h : svc.resolveEngine r = .ok (model, engine)) :
    model = svc.router.select r ∧ svc.pool.get model = some engine := by
  rw [ChatService.resolveEngine] at h
  split at h
  · cases h
  · obtain ⟨rfl, rfl⟩ := Prod.mk.inj (Except.ok.inj h)
    exact ⟨rfl, ‹_›⟩

theorem select_registered (t : TaskRouter) (r : ChatCompletionRequest) :
    t.registry.contains (t.select r) = true := by
  rw [TaskRouter.select, ExplicitModelPolicy.apply]
  split_ifs with h
  · exact h
  · exact t.default.registered

/-- A client gets the model it named exactly when that model is registered. -/
theorem select_same_iff (t : TaskRouter) (r : ChatCompletionRequest) :
    t.select r = r.model ↔ t.registry.contains r.model = true := by
  constructor
  · intro h
    exact h ▸ select_registered t r
  · intro h
    have he : t.explicit.apply r = some r.model := if_pos h
    rw [TaskRouter.select, he]

def smallService (engine : E) : ChatService E where
  pool := ⟨[("m", engine)], List.cons_ne_nil _ _, by simp⟩
  router := ⟨smallController.registry, "m", by decide⟩
  admission := smallController

end InferenceX.ChatDispatch
